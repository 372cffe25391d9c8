import Compositor.Engine
import Compositor.Json.Writer

namespace Compositor

inductive Command where
  | render (root id : String) (assignments : List (String × String))
      (config : Option String)
  | list (root : String) (config : Option String)
  deriving DecidableEq, Repr

namespace Command

/-- What a text for the user is about. -/
inductive Topic where
  | version
  | program
  | command (name : String)
  deriving DecidableEq, Repr

/-- The texts for the user, as the reader of the arguments makes them. -/
abbrev Manual := Topic → String

/-- Why no command is run: the arguments are wrong, or ask for a text. -/
inductive Stop where
  | misuse
  | text (topic : Topic)
  deriving DecidableEq, Repr

/-- The arguments that a command takes. -/
structure Usage where
  name : String
  positionals : Nat
  takesAssignments : Bool

def Usage.render : Usage := ⟨"render", 2, true⟩

def Usage.list : Usage := ⟨"list", 1, false⟩

structure Parsed where
  positionals : List String := []
  assignments : List (String × String) := []
  config : Option String := none

/-- Reads the flags in one argument. Verbosity changes no output; the first of the
others decides. -/
def readFlags (topic? : Char → Option Topic) : List Char → Except Stop Unit
  | [] => pure ()
  | flag :: rest =>
      if flag = 'v' then readFlags topic? rest
      else throw ((topic? flag).elim .misuse .text)

/-- Two or more characters that begin with a dash name an option. -/
def isOption (argument : String) : Bool :=
  match argument.toList with
  | '-' :: _ :: _ => true
  | _ => false

def splitAssignment? (text : String) : Option (String × String) :=
  let chars := text.toList
  match chars.dropWhile (· ≠ '=') with
  | [] => none
  | _ :: value =>
      some (String.ofList (chars.takeWhile (· ≠ '=')), String.ofList value)

/-- `KEY=VALUE`, with blanks around the key taken away. -/
def assignment? (text : String) : Option (String × String) := do
  let (key, value) ← splitAssignment? text
  let key := Text.trim key
  if key.isEmpty then none else pure (key, value)

namespace Usage

def topic? (usage : Usage) (flag : Char) : Option Topic :=
  if flag = 'h' then some (.command usage.name) else none

/-- The root comes first and is not empty. -/
def addPositional (usage : Usage) (parsed : Parsed) (argument : String) :
    Except Stop Parsed :=
  if usage.positionals ≤ parsed.positionals.length then throw .misuse
  else if parsed.positionals.isEmpty && argument.isEmpty then throw .misuse
  else pure { parsed with positionals := parsed.positionals ++ [argument] }

/-- Takes the value of an option; a file may be named once, assignments belong
to `render`. -/
def setOption (usage : Usage) (parsed : Parsed) (name value : String) :
    Except Stop Parsed :=
  if name = "--config" then
    if value.isEmpty || parsed.config.isSome then throw .misuse
    else pure { parsed with config := some value }
  else if name = "--set" && usage.takesAssignments then
    match assignment? value with
    | none => throw .misuse
    | some assignment =>
        pure { parsed with assignments := parsed.assignments ++ [assignment] }
  else throw .misuse

/-- Reads the arguments after a command's name. Options stand anywhere, up to
`--`; a value follows its option or an equals sign. -/
def parseRest (usage : Usage) : Parsed → List String → Except Stop Parsed
  | parsed, [] => pure parsed
  | parsed, argument :: rest =>
      match argument.toList with
      | ['-', '-'] => rest.foldlM usage.addPositional parsed
      | '-' :: '-' :: _ =>
          if argument = "--verbose" then parseRest usage parsed rest
          else if argument = "--help" then throw (.text (.command usage.name))
          else
            match splitAssignment? argument with
            | some (name, value) => do
                parseRest usage (← usage.setOption parsed name value) rest
            | none =>
                match rest with
                | [] => throw .misuse
                | value :: rest =>
                    if isOption value then throw .misuse
                    else do
                      parseRest usage (← usage.setOption parsed argument value) rest
      | '-' :: flag :: flags => do
          readFlags usage.topic? (flag :: flags)
          parseRest usage parsed rest
      | _ => do
          parseRest usage (← usage.addPositional parsed argument) rest

end Usage

def topic? (flag : Char) : Option Topic :=
  if flag = 'h' then some .program
  else if flag = 'V' then some .version
  else none

/-- After `help` stands the name of a command, or nothing. -/
def helpOn : List String → Stop
  | [] => .text .program
  | [name] =>
      if name = "render" || name = "list" || name = "help" then .text (.command name)
      else .misuse
  | _ => .misuse

/-- Reads a whole command line. What is wrong or asks for a text stops it there. -/
def parse : List String → Except Stop Command
  | [] => throw .misuse
  | argument :: rest =>
      if argument = "--verbose" then parse rest
      else if argument = "--help" then throw (.text .program)
      else if argument = "--version" then throw (.text .version)
      else if argument = "help" then throw (helpOn rest)
      else if argument = "render" then do
        let parsed ← Usage.render.parseRest {} rest
        match parsed.positionals with
        | [root, id] => pure (.render root id parsed.assignments parsed.config)
        | _ => throw .misuse
      else if argument = "list" then do
        let parsed ← Usage.list.parseRest {} rest
        match parsed.positionals with
        | [root] => pure (.list root parsed.config)
        | _ => throw .misuse
      else
        match argument.toList with
        | '-' :: flag :: flags => do
            readFlags topic? (flag :: flags)
            parse rest
        | _ => throw .misuse

/-- The command that a command line gives, if it is neither wrong nor asks for
a text. -/
def parse? (arguments : List String) : Option Command :=
  (parse arguments).toOption

def root : Command → String
  | .render root _ _ _ => root
  | .list root _ => root

def config : Command → Option String
  | .render _ _ _ config => config
  | .list _ config => config

structure Outcome where
  code : Nat
  output : String
  deriving DecidableEq, Repr

def load? (tree : FileTree) (command : Command) (order : Config.Order := .written) :
    Option (Engine Empty) := do
  let engine : Engine Empty ←
    match command.config with
    | none => pure {}
    | some path =>
        match Config.ofFile tree path with
        | .error _ => none
        | .ok config => pure (Engine.configure {} config order)
  let loaded := engine.loadTree tree command.root
  match loaded.result with
  | .error _ => none
  | .ok _ => pure loaded.engine

def printed (code : Nat) (value : Value Empty) : Outcome :=
  match Json.writeIndented value with
  | .error _ => ⟨1, ""⟩
  | .ok text => ⟨code, text ++ "\n"⟩

def failure (message : String) (statusCode : Nat) : Outcome :=
  printed 1 (.map [("error", .string message),
    ("statusCode", .int (Int64.ofNat statusCode))])

def runRender (engine : Engine Empty) (id : String)
    (assignments : List (String × String)) : Outcome :=
  let extra : Option (Document Empty) :=
    if assignments.isEmpty then none
    else some (.ofEntries (assignments.map fun (key, value) => (key, .string value)))
  match engine.render (.stored id) extra with
  | .ok (some document) => printed 0 document.toValue
  | .ok none => failure "The requested document was not found" 404
  | .error error => failure error.message error.statusCode

/-- One line for each identifier, with the name of its file. -/
def listing (store : Store Empty) : String :=
  String.join (store.ids.map fun id =>
    id ++ "\t" ++ ((store.get? id).bind Document.filename?).getD "-" ++ "\n")

def run (tree : FileTree) (command : Command) (order : Config.Order := .written) :
    Outcome :=
  match command.load? tree order with
  | none => ⟨1, ""⟩
  | some engine =>
      match command with
      | .render _ id assignments _ => runRender engine id assignments
      | .list _ _ => ⟨0, listing engine.store⟩

/-- Runs a command line; one that is wrong prints nothing here. -/
def runArguments (manual : Manual) (tree : FileTree) (arguments : List String)
    (order : Config.Order := .written) : Outcome :=
  match parse arguments with
  | .ok command => command.run tree order
  | .error .misuse => ⟨2, ""⟩
  | .error (.text topic) => ⟨0, manual topic⟩

end Command

end Compositor
