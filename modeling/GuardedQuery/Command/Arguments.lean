/-!
# Command lines

A command line is the name of a command and its options. An option takes one value, written after an equals
sign or as the next word, and is given at most once. The first fault from the left is reported; a value in
a word of its own is only looked at when the next option, or the end, is reached.

## Main definitions

* `Command`: a command with its settings.
* `Request.ofWords`: what a command line asks for, or what is wrong with it.
-/

namespace GuardedQuery

/-- A command with its settings. -/
inductive Command where
  /-- Shows what a policy permits, and checks it against data if there are any. -/
  | checkConfig (config : String) (data : Option String)
  /-- Checks a query. -/
  | validate (config : String)
  /-- Answers a query. -/
  | run (config data : String) (auditLog : Option String)
deriving DecidableEq, Repr

/-- The place of the policy if none is given. -/
def defaultConfigPath : String := "./aeroquery.json"

/-- The name of a command. -/
inductive CommandName where
  /-- Shows a policy. -/
  | checkConfig
  /-- Checks a query. -/
  | validate
  /-- Answers a query. -/
  | run
deriving DecidableEq, Repr

/-- An option of a command. -/
inductive CommandOption where
  /-- The place of the policy. -/
  | config
  /-- The place of the data. -/
  | data
  /-- The place of the audit trail. -/
  | auditLog
deriving DecidableEq, Repr

/-- The name of an option, as it is written after two hyphens. -/
def CommandOption.name : CommandOption → String
  | config => "config"
  | data => "data"
  | auditLog => "audit-log"

namespace CommandName

/-- All command names. -/
def all : List CommandName := [checkConfig, validate, run]

/-- The word for a command. -/
def word : CommandName → String
  | checkConfig => "check-config"
  | validate => "validate"
  | run => "run"

/-- The options of a command. -/
def options : CommandName → List CommandOption
  | checkConfig => [.config, .data]
  | validate => [.config]
  | run => [.config, .data, .auditLog]

/-- The command that a word names. -/
def ofWord? (word : String) : Option CommandName := all.find? fun c => c.word == word

/-- The option of a command that a name stands for. -/
def option? (c : CommandName) (name : String) : Option CommandOption := c.options.find? fun o => o.name == name

end CommandName

/-- What is wrong with a command line. -/
inductive UsageError where
  /-- It has no command. -/
  | missingCommand
  /-- It has a word that names no command. -/
  | unknownCommand (word : String)
  /-- It has a word that means nothing. -/
  | unknownWord (word : String)
  /-- An option has no value, or an empty one. -/
  | missingValue (option : CommandOption)
  /-- An option is given twice. -/
  | repeatedOption (option : CommandOption)
  /-- A switch has a value. -/
  | unwantedValue (word : String)
  /-- An option is not given that has to be. -/
  | missingOption (option : CommandOption)
deriving DecidableEq, Repr

namespace UsageError

/-- The message of an error. -/
def message : UsageError → String
  | missingCommand => "a command is required"
  | unknownCommand word => s!"unrecognized command '{word}'"
  | unknownWord word => s!"unexpected argument '{word}'"
  | missingValue option => s!"a value is required for '--{option.name}'"
  | repeatedOption option => s!"'--{option.name}' cannot be given more than once"
  | unwantedValue word => s!"'{word}' does not take a value"
  | missingOption option => s!"'--{option.name}' is required"

end UsageError

/-- What a command line asks for. -/
inductive Request where
  /-- That a command be carried out. -/
  | command (c : Command)
  /-- How to use the program. -/
  | help
  /-- Which version of the program it is. -/
  | version
deriving DecidableEq, Repr

/-! ## Words -/

/-- The kinds of words of a command line. -/
inductive Word where
  /-- Two hyphens alone: no more options follow. -/
  | divider
  /-- Two hyphens, a name, and maybe a value after an equals sign. -/
  | long (name : String) (value : Option String)
  /-- A hyphen and letters. -/
  | short (letters : List Char)
  /-- Any other word, also a single hyphen. -/
  | plain
deriving DecidableEq, Repr

/-- The kind of a word. -/
def Word.ofText (s : String) : Word :=
  match s.toList with
  | ['-', '-'] => .divider
  | '-' :: '-' :: rest =>
    match rest.span fun c => c != '=' with
    | (name, _ :: value) => .long (String.ofList name) (some (String.ofList value))
    | (name, []) => .long (String.ofList name) none
  | '-' :: c :: rest => .short (c :: rest)
  | _ => .plain

/-! ## Options of a command -/

/-- The options read so far. -/
structure Settings where
  /-- The values of options. -/
  given : List (CommandOption × String) := []
  /-- An option whose value has not been looked at: the value, if its word has been read. -/
  pending : Option (CommandOption × Option String) := none

namespace Settings

/-- The value of an option. -/
def get? (s : Settings) (o : CommandOption) : Option String := s.given.lookup o

/-- Gives an option a value. -/
def give (s : Settings) (o : CommandOption) (value : String) : Except UsageError Settings :=
  if (s.get? o).isSome then .error (.repeatedOption o)
  else if value.isEmpty then .error (.missingValue o)
  else .ok { given := s.given ++ [(o, value)] }

/-- Looks at the value of the pending option. -/
def settle (s : Settings) : Except UsageError Settings :=
  match s.pending with
  | none => .ok s
  | some (o, none) => .error (.missingValue o)
  | some (o, some value) => give { s with pending := none } o value

/-- The command that the settings of a command name make. -/
def command (s : Settings) (name : CommandName) : Except UsageError Command :=
  let config := (s.get? .config).getD defaultConfigPath
  match name with
  | .checkConfig => .ok (.checkConfig config (s.get? .data))
  | .validate => .ok (.validate config)
  | .run =>
    match s.get? .data with
    | some data => .ok (.run config data (s.get? .auditLog))
    | none => .error (.missingOption .data)

/-- Reads the words after the name of a command. -/
def readWords (name : CommandName) (s : Settings) : List String → Except UsageError Request
  | [] => do
    let s ← s.settle
    return .command (← s.command name)
  | word :: rest =>
    match Word.ofText word with
    | .divider =>
      match rest with
      | [] => readWords name s []
      | next :: _ => .error (.unknownWord next)
    | .long "help" none => (s.settle).map fun _ => .help
    | .long "help" (some _) => .error (.unwantedValue word)
    | .short ('h' :: _) => (s.settle).map fun _ => .help
    | .short _ => .error (.unknownWord word)
    | .long option value =>
      match name.option? option with
      | none => .error (.unknownWord word)
      | some o =>
        match s.settle with
        | .error e => .error e
        | .ok s =>
          match value with
          | none => readWords name { s with pending := some (o, none) } rest
          | some v =>
            match s.give o v with
            | .error e => .error e
            | .ok s => readWords name s rest
    | .plain =>
      match s.pending with
      | some (o, none) => readWords name { s with pending := some (o, some word) } rest
      | _ => .error (.unknownWord word)

end Settings

namespace Request

/-- The word that asks how to use the program. -/
def helpWord : String := "help"

/-- Whether a word can be asked about. -/
def isTopic (word : String) : Bool := (CommandName.ofWord? word).isSome || word == helpWord

/-- What the words after the word for help ask for. -/
def ofHelpWords : List String → Except UsageError Request
  | [] => .ok .help
  | [topic] => if isTopic topic then .ok .help else .error (.unknownCommand topic)
  | topic :: next :: _ => .error (.unknownCommand (if isTopic topic then next else topic))

/-- What a command line asks for. -/
def ofWords : List String → Except UsageError Request
  | [] => .error .missingCommand
  | word :: rest =>
    match Word.ofText word with
    | .divider =>
      match rest with
      | [] => .error .missingCommand
      | next :: _ => .error (if isTopic next then .unknownWord next else .unknownCommand next)
    | .long "help" none => .ok .help
    | .long "version" none => .ok .version
    | .long "help" (some _) => .error (.unwantedValue word)
    | .long "version" (some _) => .error (.unwantedValue word)
    | .long .. => .error (.unknownWord word)
    | .short ('h' :: _) => .ok .help
    | .short ('V' :: _) => .ok .version
    | .short _ => .error (.unknownWord word)
    | .plain =>
      if word == helpWord then ofHelpWords rest
      else
        match CommandName.ofWord? word with
        | some name => Settings.readWords name {} rest
        | none => .error (.unknownCommand word)

end Request

end GuardedQuery
