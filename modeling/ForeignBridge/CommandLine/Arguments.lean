/-! # Command-line arguments

The arguments are read from left to right, and the first that cannot be accepted decides. An option is given as
`--name value` or `--name=value`; the value of the first form must not begin with a hyphen, unless it is a hyphen alone.
After `--` every argument is positional. Options and switches may be given once, except those that may be repeated. -/

namespace ForeignBridge.CommandLine

/-- The shape of the foreign runtime that a command works on. -/
structure RuntimeOptions where
  /-- Families that the runtime does not provide. -/
  without : List String
  /-- The version of the library that the runtime reports. -/
  libraryVersion : Option String
deriving DecidableEq, Repr

/-- What the command line asks for. -/
inductive Request where
  | help
  | version
  /-- Lists the registered types. -/
  | types (runtime : RuntimeOptions) (family : Option String) (format : Option String)
  /-- Translates a type expression, or lists all spellings. -/
  | translate (expr : Option String) (reverse : Bool)
  /-- Checks settings, library version and registration. -/
  | doctor (runtime : RuntimeOptions)
  /-- The arguments cannot be accepted. -/
  | misuse
deriving DecidableEq, Repr

/-- How often an option may be given, and whether it takes a value. -/
inductive OptionKind where
  | switch
  | single
  | repeated
deriving DecidableEq, Repr

/-- The options and the number of positional arguments of a command. -/
structure CommandShape where
  options : List (String × OptionKind)
  positionals : Nat

/-- The arguments of a command as they were found: values by option, and positional arguments. -/
structure Found where
  values : List (String × String)
  positionals : List String

namespace Found

/-- The last value of an option. -/
def last? (f : Found) (name : String) : Option String := ((f.values.filter (·.1 == name)).map Prod.snd).getLast?

/-- All values of an option. -/
def all (f : Found) (name : String) : List String := (f.values.filter (·.1 == name)).map Prod.snd

/-- The option was given. -/
def has (f : Found) (name : String) : Bool := f.values.any (·.1 == name)

end Found

/-- How the arguments of a command end. -/
inductive Scan where
  | complete (found : Found)
  | help
  | misuse

/-- The name and the attached value of a long option. -/
def splitOption (text : List Char) : String × Option String :=
  match text.dropWhile (· ≠ '=') with
  | [] => (String.ofList text, none)
  | _ :: value => (String.ofList (text.takeWhile (· ≠ '=')), some (String.ofList value))

/-- An argument that can be the value of the option before it. -/
def isValue (arg : String) : Bool := arg = "-" || !arg.startsWith "-"

/-- Adds a positional argument, if there is room for one. -/
def addPositional (shape : CommandShape) (f : Found) (arg : String) : Option Found :=
  if f.positionals.length < shape.positionals then some { f with positionals := f.positionals ++ [arg] } else none

/-- Adds positional arguments to the end. -/
def addPositionals (shape : CommandShape) (f : Found) : List String → Scan
  | [] => .complete f
  | arg :: rest =>
    match addPositional shape f arg with
    | some f => addPositionals shape f rest
    | none => .misuse

/-- Goes through the arguments of a command. -/
def scan (shape : CommandShape) (f : Found) : List String → Scan
  | [] => .complete f
  | arg :: rest =>
    if arg = "--" then addPositionals shape f rest
    else if arg = "--help" || (arg.startsWith "-h" && !arg.startsWith "--") then .help
    else
      match arg.toList with
      | '-' :: '-' :: body =>
        let (name, attached) := splitOption body
        match shape.options.lookup name with
        | none => .misuse
        | some kind =>
          if kind ≠ .repeated && f.has name then .misuse
          else
            match kind, attached, rest with
            | .switch, some _, _ => .misuse
            | .switch, none, rest => scan shape { f with values := f.values ++ [(name, "")] } rest
            | _, some value, rest => scan shape { f with values := f.values ++ [(name, value)] } rest
            | _, none, value :: rest =>
              if isValue value then scan shape { f with values := f.values ++ [(name, value)] } rest else .misuse
            | _, none, [] => .misuse
      | '-' :: _ :: _ => .misuse
      | _ =>
        match addPositional shape f arg with
        | some f => scan shape f rest
        | none => .misuse

/-- The options that describe the foreign runtime. -/
def runtimeOptions : List (String × OptionKind) := [("without", .repeated), ("library-version", .single)]

/-- The runtime that the arguments describe. -/
def Found.runtime (f : Found) : RuntimeOptions := ⟨f.all "without", f.last? "library-version"⟩

/-- The commands by name: their shape, and the request for their arguments. -/
def commands : List (String × CommandShape × (Found → Request)) := [
  ("types", ⟨runtimeOptions ++ [("family", .single), ("format", .single)], 0⟩,
    fun f => .types f.runtime (f.last? "family") (f.last? "format")),
  ("translate", ⟨[("reverse", .switch)], 1⟩, fun f => .translate f.positionals.head? (f.has "reverse")),
  ("doctor", ⟨runtimeOptions, 0⟩, fun f => .doctor f.runtime)]

/-- What help can be asked for: the program, or one command by its name alone. -/
def isTopic : List String → Bool
  | [] => true
  | [name] => name = "help" || (commands.lookup name).isSome
  | _ => false

/-- The request of a command line. -/
def Request.ofArguments : List String → Request
  | [] => .misuse
  | "--help" :: _ => .help
  | "--version" :: _ => .version
  | "help" :: topic => if isTopic topic then .help else .misuse
  | name :: rest =>
    if name.startsWith "-V" then .version
    else if name.startsWith "-h" then .help
    else
      match commands.lookup name with
      | none => .misuse
      | some (shape, request) =>
        match scan shape ⟨[], []⟩ rest with
        | .complete found => request found
        | .help => .help
        | .misuse => .misuse

end ForeignBridge.CommandLine
