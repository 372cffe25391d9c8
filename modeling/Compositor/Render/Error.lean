namespace Compositor

/-- Why a document cannot be rendered. -/
inductive RenderError where
  | layoutNotFound (id : String)
  | recursiveLayout (id : String)
  | recursiveReference (id : String)
  deriving DecidableEq, Repr

namespace RenderError

def message : RenderError → String
  | .layoutNotFound id => "Unable to render document: layout \"" ++ id ++ "\" not found"
  | .recursiveLayout id =>
      "Unable to render document: layout \"" ++ id ++ "\" usage is recursive"
  | .recursiveReference id =>
      "Unable to render document: reference \"" ++ id ++ "\" is recursive"

def statusCode (_ : RenderError) : Nat := 500

end RenderError

end Compositor
