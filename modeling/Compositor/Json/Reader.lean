import Compositor.Json.Token
import Compositor.Document

namespace Compositor.Json

/-- A list or map that is still open: the items so far, the latest first, or
the entries so far with the key that waits for its value. -/
inductive Frame (ρ : Type) where
  | list (items : List (Value ρ))
  | map (entries : Entries (Value ρ)) (key : String)

/-- What the reader waits for, inside the frames that are open. -/
inductive State (ρ : Type) where
  | start (frames : List (Frame ρ))
  | firstItem (frames : List (Frame ρ))
  | firstKey (frames : List (Frame ρ))
  | nextKey (entries : Entries (Value ρ)) (frames : List (Frame ρ))
  | colon (entries : Entries (Value ρ)) (key : String) (frames : List (Frame ρ))
  | done (value : Value ρ) (frames : List (Frame ρ))

namespace State

variable {ρ : Type}

/-- A token that begins a value. One more list or map may open as long as fewer
than `limit` are open with it. -/
def begin? (limit : Nat) (frames : List (Frame ρ)) : Token → Option (State ρ)
  | .openList => if frames.length + 1 < limit then some (.firstItem frames) else none
  | .openMap => if frames.length + 1 < limit then some (.firstKey frames) else none
  | .null => some (.done .null frames)
  | .bool value => some (.done (.bool value) frames)
  | .int value => some (.done (.int value) frames)
  | .float value => some (.done (.float value) frames)
  | .string text => some (.done (.string text) frames)
  | _ => none

def step? (limit : Nat) : State ρ → Token → Option (State ρ)
  | .start frames, token => begin? limit frames token
  | .firstItem frames, .closeList => some (.done (.list []) frames)
  | .firstItem frames, token => begin? limit (.list [] :: frames) token
  | .firstKey frames, .closeMap => some (.done (.map []) frames)
  | .firstKey frames, .string key => some (.colon [] key frames)
  | .nextKey entries frames, .string key => some (.colon entries key frames)
  | .colon entries key frames, .colon => some (.start (.map entries key :: frames))
  | .done value (.list items :: frames), .comma =>
      some (.start (.list (value :: items) :: frames))
  | .done value (.list items :: frames), .closeList =>
      some (.done (.list (value :: items).reverse) frames)
  | .done value (.map entries key :: frames), .comma =>
      some (.nextKey (entries.insert key value) frames)
  | .done value (.map entries key :: frames), .closeMap =>
      some (.done (.map (entries.insert key value)) frames)
  | _, _ => none

def result? : State ρ → Option (Value ρ)
  | .done value [] => some value
  | _ => none

end State

/-- Reads a text as one value, with fewer than `limit` lists and maps open at
any point. -/
def readWithin? {ρ : Type} (limit : Nat) (text : String) : Option (Value ρ) := do
  let tokens ← tokens? text.toList
  let state ← tokens.foldlM (State.step? limit) (.start [])
  state.result?

def read? {ρ : Type} (text : String) : Option (Value ρ) :=
  readWithin? 128 text

end Compositor.Json
