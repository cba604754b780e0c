import TensorArena.Number.Reader

/-!
# The command line

The words after the program's name are read from left to right. Options that hold for every command
may stand before and after its name; the later place wins. The first word that is wrong stops the
reading, and so does the first one that asks for help.
-/

namespace TensorArena

/-- The commands. -/
inductive Verb where
  | inspect
  | plan
  | run
  deriving DecidableEq, Repr

def Verb.ofName? : String → Option Verb
  | "inspect" => some inspect
  | "plan" => some plan
  | "run" => some run
  | _ => none

/-- The options. -/
inductive Flag where
  | config
  | verbose
  | model
  | arenaSize
  | placement
  | json
  | input
  | iterations
  | help
  | version
  deriving DecidableEq, Repr

namespace Flag

/-- The name after two dashes. -/
def long : Flag → String
  | config => "config"
  | verbose => "verbose"
  | model => "model"
  | arenaSize => "arena-size"
  | placement => "placement"
  | json => "json"
  | input => "input"
  | iterations => "iterations"
  | help => "help"
  | version => "version"

/-- The letter after one dash. -/
def short? : Flag → Option Char
  | config => some 'c'
  | verbose => some 'v'
  | model => some 'm'
  | arenaSize => some 'a'
  | placement => some 'p'
  | input => some 'i'
  | help => some 'h'
  | version => some 'V'
  | json | iterations => none

/-- Whether a value belongs to the option. -/
def takesValue : Flag → Bool
  | config | model | arenaSize | placement | input | iterations => true
  | verbose | json | help | version => false

/-- The options before the name of the command, and those of each command. -/
def known : Option Verb → List Flag
  | none => [config, verbose, help, version]
  | some .inspect => [config, verbose, help, model]
  | some .plan => [config, verbose, help, model, arenaSize, placement, json]
  | some .run => [config, verbose, help, model, arenaSize, placement, input, iterations]

end Flag

/-- Why a command line cannot be followed. -/
inductive UsageError where
  | missingCommand
  | unknownCommand (word : String)
  | unknownOption (word : String)
  | unexpected (word : String)
  | missingValue (flag : Flag)
  | missingOption (flag : Flag)
  | repeated (flag : Flag)
  | invalidValue (flag : Flag) (value : String)
  deriving DecidableEq, Repr

/-- The error in words. -/
def UsageError.message : UsageError → String
  | missingCommand => "a command is required"
  | unknownCommand word => s!"unrecognized command '{word}'"
  | unknownOption word => s!"unexpected option '{word}'"
  | unexpected word => s!"unexpected argument '{word}'"
  | missingValue flag => s!"a value is required for '--{flag.long}'"
  | missingOption flag => s!"the option '--{flag.long}' is required"
  | repeated flag => s!"the option '--{flag.long}' cannot be used twice"
  | invalidValue flag value => s!"invalid value '{value}' for '--{flag.long}'"

/-- Why the reading of a command line stops. -/
inductive Stop where
  | help
  | version
  | misuse (error : UsageError)
  deriving DecidableEq, Repr

/-- What the options have set so far. -/
structure Settings where
  config : Option String := none
  verbosity : Nat := 0
  model : Option String := none
  arenaSize : Option String := none
  placement : Option String := none
  json : Bool := false
  inputs : List Binary := []
  iterations : Option Nat := none
  deriving DecidableEq, Repr

namespace Settings

/-- The value of an option that may be given once. -/
def once (flag : Flag) (old : Option α) (new : α) : Except UsageError (Option α) :=
  if old.isSome then .error (.repeated flag) else .ok (some new)

/-- A path, which is never empty. -/
def path (flag : Flag) (value : String) : Except UsageError String :=
  if value.isEmpty then .error (.invalidValue flag value) else .ok value

def numbers (value : String) : Except UsageError (List Binary) :=
  match (value.splitOn ",").mapM (Binary.ofText? .double) with
  | some numbers => .ok numbers
  | none => .error (.invalidValue .input value)

/-- Takes the value of an option. -/
def assign (s : Settings) (flag : Flag) (value : String) : Except UsageError Settings := do
  match flag with
  | .config => pure { s with config := ← once flag s.config (← path flag value) }
  | .model => pure { s with model := ← once flag s.model (← path flag value) }
  | .arenaSize => pure { s with arenaSize := ← once flag s.arenaSize value }
  | .placement => pure { s with placement := ← once flag s.placement value }
  | .input => pure { s with inputs := s.inputs ++ (← numbers value) }
  | .iterations =>
    match Text.plusWord? value.toList with
    | some n => pure { s with iterations := ← once flag s.iterations n }
    | none => throw (.invalidValue flag value)
  | .verbose | .json | .help | .version => throw (.invalidValue flag value)

/-- Takes an option that has no value. -/
def turnOn (s : Settings) (flag : Flag) : Except Stop Settings :=
  match flag with
  | .verbose => .ok { s with verbosity := s.verbosity + 1 }
  | .json => if s.json then .error (.misuse (.repeated flag)) else .ok { s with json := true }
  | .help => .error .help
  | .version => .error .version
  | _ => .error (.misuse (.missingValue flag))

end Settings

/-- What the next word is taken for. -/
inductive Expecting where
  | anything
  /-- The value of an option. -/
  | value (flag : Flag)
  /-- Nothing: two dashes have ended the options. -/
  | nothing
  /-- The name of the command that help is asked about. -/
  | topic
  /-- Nothing: help is asked about a command. -/
  | noTopic
  deriving DecidableEq, Repr

/-- How far the reading has come. The settings from before the name of the command are kept
apart. -/
structure Reading where
  verb : Option Verb := none
  before : Settings := {}
  settings : Settings := {}
  expecting : Expecting := .anything
  deriving DecidableEq, Repr

namespace Reading

/-- Whether a word that begins with a dash is a negative number: digits with at most one point, not
at the front, and at most one exponent mark after it, neither at the front nor at the end. -/
def isNegativeNumber (word : String) : Bool :=
  let body := word.toList.drop 1
  let mantissa := body.takeWhile fun c => c ≠ 'e' && c ≠ 'E'
  let mark := body.drop mantissa.length
  mantissa.all (fun c => Text.isDigit c || c == '.') && mantissa.count '.' ≤ 1 &&
    mantissa.head? ≠ some '.' && mantissa ≠ [] &&
    (mark.isEmpty || (decide (mark.length ≠ 1) && (mark.drop 1).all Text.isDigit))

/-- Whether a word is an option and not a value: it begins with a dash and has more characters, and
is not a number where numbers are wanted. -/
def isOption (flag : Flag) (word : String) : Bool :=
  word.startsWith "-" && word ≠ "-" && !(flag = .input && isNegativeNumber word)

def assign (r : Reading) (flag : Flag) (value : String) : Except Stop Reading :=
  match r.settings.assign flag value with
  | .ok settings => .ok { r with settings, expecting := .anything }
  | .error e => .error (.misuse e)

/-- Takes an option that has no value. -/
def turnOn (r : Reading) (flag : Flag) : Except Stop Reading :=
  (r.settings.turnOn flag).map fun settings => { r with settings }

/-- Takes a word that begins with two dashes; a value may follow an equals sign. -/
def longOption (r : Reading) (word : String) : Except Stop Reading :=
  let body := word.toList.drop 2
  let name := String.ofList (body.takeWhile (· ≠ '='))
  let value := body.dropWhile (· ≠ '=')
  match (Flag.known r.verb).find? fun flag => flag.long = name with
  | none => .error (.misuse (.unknownOption word))
  | some flag =>
    match flag.takesValue, value with
    | true, [] => .ok { r with expecting := .value flag }
    | true, _ :: value => r.assign flag (String.ofList value)
    | false, [] => r.turnOn flag
    | false, _ :: value => .error (.misuse (.invalidValue flag (String.ofList value)))

/-- Takes the letters after a dash: options without a value, up to one with a value, which is the
rest of the word, after an equals sign or without one, or else the next word. -/
def letters (r : Reading) : List Char → Except Stop Reading
  | [] => .ok r
  | c :: rest =>
    match (Flag.known r.verb).find? fun flag => flag.short? = some c with
    | none => .error (.misuse (.unknownOption s!"-{c}"))
    | some flag =>
      match flag.takesValue, rest with
      | false, _ =>
        match r.turnOn flag with
        | .ok r => r.letters rest
        | .error stop => .error stop
      | true, [] => .ok { r with expecting := .value flag }
      | true, '=' :: value => r.assign flag (String.ofList value)
      | true, value => r.assign flag (String.ofList value)

/-- Takes a word that is no option: the name of a command. -/
def plainWord (r : Reading) (word : String) : Except Stop Reading :=
  match r.verb with
  | some _ => .error (.misuse (.unexpected word))
  | none =>
    if word = "help" then .ok { r with expecting := .topic }
    else
      match Verb.ofName? word with
      -- What stands before the command may be given again behind it.
      | some verb => .ok { r with verb := some verb, before := r.settings, settings := {} }
      | none => .error (.misuse (.unknownCommand word))

/-- Takes one word. -/
def take (r : Reading) (word : String) : Except Stop Reading :=
  match r.expecting with
  | .anything =>
    if word = "--" then .ok { r with expecting := .nothing }
    else if word.startsWith "--" then r.longOption word
    else if word.startsWith "-" ∧ word ≠ "-" then r.letters (word.toList.drop 1)
    else r.plainWord word
  | .value flag =>
    if isOption flag word then .error (.misuse (.missingValue flag)) else r.assign flag word
  | .nothing => .error (.misuse (.unexpected word))
  | .topic =>
    if word = "help" ∨ (Verb.ofName? word).isSome then .ok { r with expecting := .noTopic }
    else .error (.misuse (.unknownCommand word))
  | .noTopic => .error (.misuse (.unknownCommand word))

end Reading

/-- A choice of arena and placement that goes before the configuration. -/
structure Overrides where
  arenaSize : Option String := none
  placement : Option String := none
  deriving DecidableEq, Repr

/-- What to do with a model. -/
inductive Action where
  | inspect
  | plan (overrides : Overrides) (json : Bool)
  | run (overrides : Overrides) (inputs : List Binary) (iterations : Nat)
  deriving DecidableEq, Repr

/-- A command line that can be followed. -/
structure Arguments where
  config : Option String
  verbosity : Nat
  model : String
  action : Action
  deriving DecidableEq, Repr

namespace Arguments

/-- The command line that has been read. -/
def ofReading (r : Reading) : Except Stop Arguments :=
  match r.expecting, r.verb, r.settings.model with
  | .value flag, _, _ => .error (.misuse (.missingValue flag))
  | .topic, _, _ | .noTopic, _, _ => .error .help
  | _, none, _ => .error (.misuse .missingCommand)
  | _, some _, none => .error (.misuse (.missingOption .model))
  | _, some verb, some model =>
    let s := r.settings
    let overrides : Overrides := { arenaSize := s.arenaSize, placement := s.placement }
    .ok {
      config := s.config <|> r.before.config
      verbosity := if s.verbosity = 0 then r.before.verbosity else s.verbosity
      model
      action := match verb with
        | .inspect => .inspect
        | .plan => .plan overrides s.json
        | .run => .run overrides s.inputs (s.iterations.getD 1) }

def read (words : List String) : Except Stop Arguments := do
  ofReading (← words.foldlM Reading.take {})

end Arguments

end TensorArena
