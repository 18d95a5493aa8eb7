/-!
# The command line

What the arguments of a call ask for.  Two options may stand in front of the action, each of them at
most once: a settings file and a preset.  The value of an option is the next argument, or stands in
the same argument.  Asking for help or for the version ends the reading at once, and so does the
first argument that is out of place.
-/

namespace FogDispatch.CommandLine

/-- What is to be done. -/
inductive Action where
  | run
  | showSettings
  | validate
  deriving DecidableEq, Repr

namespace Action
def ofName? : String → Option Action
  | "run" => some run
  | "config" => some showSettings
  | "validate" => some validate
  | _ => none
end Action

/-- An option that takes a value. -/
inductive Setting where
  | file
  | preset
  deriving DecidableEq, Repr

/-- A flag that ends the reading. -/
inductive Flag where
  | help
  | version
  deriving DecidableEq, Repr

/-- What an option argument names. -/
inductive Named where
  | setting (name : Setting)
  | flag (flag : Flag)
  deriving DecidableEq, Repr

namespace Named

def ofLong? : List Char → Option Named
  | cs =>
    if cs = "config".toList then some (.setting .file)
    else if cs = "preset".toList then some (.setting .preset)
    else if cs = "help".toList then some (.flag .help)
    else if cs = "version".toList then some (.flag .version)
    else none

def ofLetter? : Char → Option Named
  | 'c' => some (.setting .file)
  | 'p' => some (.setting .preset)
  | 'h' => some (.flag .help)
  | 'V' => some (.flag .version)
  | _ => none

end Named

/-- An option in the arguments, with its value if it got one. -/
structure Mention where
  name : Setting
  value : Option String
  deriving DecidableEq, Repr

/-- A complete call. -/
structure Invocation where
  file : Option String
  preset : Option String
  action : Action
  deriving DecidableEq, Repr

/-- What the arguments ask for. -/
inductive Reading where
  | invocation (call : Invocation)
  | help
  | version
  /-- The arguments are no call. -/
  | refused
  deriving DecidableEq, Repr

namespace Reading
def ofFlag : Flag → Reading
  | .help => help
  | .version => version
end Reading

/-- An option argument taken apart: its name, and the value that stands behind it in the same
argument. -/
structure OptionArgument where
  name : Named
  value : Option String
  deriving DecidableEq, Repr

/-- A value in the argument of its option, without the equals signs in front. -/
def attached (cs : List Char) : String := String.ofList (cs.dropWhile (· == '='))

/-- Whether an argument is an option rather than a value: a dash and something behind it. -/
def isOption (arg : String) : Bool :=
  match arg.toList with
  | '-' :: _ :: _ => true
  | _ => false

/-- Takes an option argument apart.  A long name stands behind two or more dashes and up to an
equals sign, a letter behind one dash. -/
def OptionArgument.read? (arg : String) : Option OptionArgument :=
  match arg.toList with
  | '-' :: '-' :: rest =>
    let cs := rest.dropWhile (· == '-')
    (Named.ofLong? (cs.takeWhile (· != '='))).map fun name =>
      match cs.dropWhile (· != '=') with
      | [] => ⟨name, none⟩
      | behind => ⟨name, some (attached behind)⟩
  | '-' :: letter :: rest =>
    (Named.ofLetter? letter).map fun name =>
      if rest.isEmpty then ⟨name, none⟩ else ⟨name, some (attached rest)⟩
  | _ => none

def mentionsOf (name : Setting) (mentions : List Mention) : List (Option String) :=
  (mentions.filter fun mention => mention.name == name).map Mention.value

/-- The value of an option that is mentioned at most once, and then with a value. -/
def single? (name : Setting) (mentions : List Mention) : Option (Option String) :=
  match mentionsOf name mentions with
  | [] => some none
  | [some value] => some (some value)
  | _ => none

/-- The call of an action with the options in front of it. -/
def complete (mentions : List Mention) (action : Action) : Reading :=
  match single? .file mentions, single? .preset mentions with
  | some file, some preset => .invocation ⟨file, preset, action⟩
  | _, _ => .refused

/-- What follows an action: nothing but a request for help, or the mark of the end of options. -/
def readTail (mentions : List Mention) (action : Action) : List String → Reading
  | [] => complete mentions action
  | ["--"] => complete mentions action
  | arg :: _ =>
    match OptionArgument.read? arg with
    | some ⟨.flag .help, _⟩ => .help
    | _ => .refused

/-- A request for help by name, about everything, an action or itself. -/
def readHelp : List String → Reading
  | [] => .help
  | [name] => if name = "help" ∨ (Action.ofName? name).isSome then .help else .refused
  | _ => .refused

/-- Reads arguments; `mentions` are the options read so far, and `expecting` is an option that still
waits for its value. -/
def readFrom (mentions : List Mention) (expecting : Option Setting) : List String → Reading
  | [] => .refused
  | arg :: rest =>
    match expecting, isOption arg with
    | some name, false => readFrom (mentions ++ [⟨name, some arg⟩]) none rest
    | none, false =>
      if arg = "help" then readHelp rest
      else match Action.ofName? arg with
        | some action => readTail mentions action rest
        | none => .refused
    | _, true =>
      let mentions := mentions ++ (expecting.map fun name => (⟨name, none⟩ : Mention)).toList
      match OptionArgument.read? arg with
      | none => .refused
      | some ⟨.flag flag, _⟩ => Reading.ofFlag flag
      | some ⟨.setting name, none⟩ => readFrom mentions (some name) rest
      | some ⟨.setting name, some value⟩ => readFrom (mentions ++ [⟨name, some value⟩]) none rest

def read (args : List String) : Reading := readFrom [] none args

def versionText : String := "fogsched 0.1.0\n"

def helpText : String :=
  String.join <| List.map (· ++ "\n") [
    "fogsched 0.1.0",
    "Gateway admission, task scheduling and placement simulator for fog and cloud nodes",
    "",
    "USAGE:",
    "    fogsched [OPTIONS] <ACTION>",
    "",
    "OPTIONS:",
    "    -c, --config <FILE>    Set a custom config file",
    "    -p, --preset <NAME>    Apply the named table under presets on top of the config",
    "    -h, --help             Print this text",
    "    -V, --version          Print the version",
    "",
    "ACTIONS:",
    "    config      Show the effective configuration",
    "    run         Run every episode of the sweep against the decision service",
    "    validate    Load every dataset and topology of the sweep without running anything"]

end FogDispatch.CommandLine
