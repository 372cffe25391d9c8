namespace Compositor

inductive Severity where
  | debug
  | info
  | warning
  | error
  deriving DecidableEq, Repr

namespace Severity

def name : Severity → String
  | .debug => "debug"
  | .info => "info"
  | .warning => "warning"
  | .error => "error"

end Severity

structure Message where
  severity : Severity
  text : String
  deriving DecidableEq, Repr

abbrev Log := List Message

namespace Log

def debug (text : String) : Message := ⟨.debug, text⟩
def info (text : String) : Message := ⟨.info, text⟩
def warning (text : String) : Message := ⟨.warning, text⟩
def error (text : String) : Message := ⟨.error, text⟩

end Log

end Compositor
