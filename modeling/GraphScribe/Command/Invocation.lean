import GraphScribe.Path
import GraphScribe.Settings

/-!
# Invocations

What the words of a command line ask for. Options may stand anywhere; a long one is `--name` and
takes its value from after an equals sign or from the next word, a short one is a letter after a
dash, alone or together with others, and takes its value from the rest of its word or from the next
one. A word that begins with a dash is never the value of an option before it. After `--` all words
are plain. No option may be given twice to one command. Words are judged one after the other, and
the first one that cannot be used decides; only what is missing at the end is noticed at the end.
-/

namespace GraphScribe

/-- The options. -/
inductive OptionName where
  | verbose
  | config
  | format
  | outputDir
  | glob
  | extension
  | decoder
  | jobs
  | diagnostics
  | progress
  | help
deriving DecidableEq, Repr

namespace OptionName

/-- The long name of an option. -/
def long : OptionName → String
  | verbose => "verbose"
  | config => "config"
  | format => "format"
  | outputDir => "output-dir"
  | glob => "glob"
  | extension => "extension"
  | decoder => "decoder"
  | jobs => "jobs"
  | diagnostics => "diagnostics"
  | progress => "progress"
  | help => "help"

/-- The letter of an option, if it has one. -/
def letter? : OptionName → Option Char
  | verbose => some 'v'
  | config => some 'c'
  | format => some 'f'
  | outputDir => some 'o'
  | glob => some 'g'
  | extension => some 'e'
  | jobs => some 'j'
  | help => some 'h'
  | decoder | diagnostics | progress => none

/-- The option takes a value. -/
def takesValue : OptionName → Bool
  | verbose | progress | help => false
  | _ => true

/-- The options of every command. -/
def common : List OptionName := [verbose, config, help]

end OptionName

/-! ## Commands -/

/-- The commands. -/
inductive CommandName where
  | convert
  | check
  | version
deriving DecidableEq, Repr

namespace CommandName

/-- The command of a name. -/
def ofName? (name : String) : Option CommandName :=
  match name with
  | "convert" => some convert
  | "check" => some check
  | "version" => some version
  | _ => none

/-- The options of a command. -/
def options : CommandName → List OptionName
  | convert =>
    OptionName.common ++
      [.format, .outputDir, .glob, .extension, .decoder, .jobs, .diagnostics, .progress]
  | check | version => OptionName.common

/-- A command has a use for a plain word after others: one that converts for any path, one that
checks for a single format. -/
def hasUseFor (command : CommandName) (before : List String) (word : String) : Bool :=
  match command with
  | convert => !word.isEmpty
  | check => before.isEmpty
  | version => false

end CommandName

/-! ## Faults -/

/-- Why the words of a command line are no invocation. -/
inductive UsageFault where
  /-- They ask how to use the program. -/
  | helpAsked
  | missingCommand
  | unknownCommand (word : String)
  | unknownOption (word : String)
  | missingValue (option : OptionName)
  | unexpectedValue (option : OptionName)
  | invalidValue (option : OptionName) (value : String)
  | repeatedOption (option : OptionName)
  | missingArgument
  | unexpectedArgument (word : String)
deriving DecidableEq, Repr

namespace UsageFault

/-- What is wrong. -/
def message : UsageFault → String
  | helpAsked => "help was asked for"
  | missingCommand => "a command is required"
  | unknownCommand word => s!"there is no command {Text.quoted word}"
  | unknownOption word => s!"there is no option {Text.quoted word} here"
  | missingValue option => s!"the option --{option.long} requires a value"
  | unexpectedValue option => s!"the option --{option.long} takes no value"
  | invalidValue option value => s!"the option --{option.long} cannot be {Text.quoted value}"
  | repeatedOption option => s!"the option --{option.long} can be given only once"
  | missingArgument => "an argument is required"
  | unexpectedArgument word => s!"the argument {Text.quoted word} is not expected"

end UsageFault

/-! ## Words -/

/-- The options and the plain words of a command. -/
structure Arguments where
  verbose : Bool := false
  config : Option String := none
  glob : Option String := none
  flags : Flags := {}
  words : List String := []
deriving DecidableEq, Repr

namespace Arguments

/-- The value of an option that is not yet there. -/
def once {α : Type} (option : OptionName) (old : Option α) (value : String)
    (read : String → Option α) : Except UsageFault (Option α) :=
  match old, read value with
  | some _, _ => .error (.repeatedOption option)
  | none, none => .error (.invalidValue option value)
  | none, some value => .ok (some value)

/-- An option without a value that is not yet there. -/
def onceSet (option : OptionName) (old : Bool) : Except UsageFault Bool :=
  if old then .error (.repeatedOption option) else .ok true

/-- A text. -/
def anyText (value : String) : Option String := some value

/-- A text for a path: it is not empty. -/
def pathText (value : String) : Option String :=
  if value.isEmpty then none else some value

/-- A count of 64 bits. -/
def count (value : String) : Option Nat :=
  (Integer.readNat 10 0xFFFFFFFFFFFFFFFF value.toList).toOption

/-- Notes an option with its value. -/
def set (a : Arguments) (option : OptionName) (value : String) : Except UsageFault Arguments := do
  let flags := a.flags
  match option with
  | .verbose => return { a with verbose := ← onceSet option a.verbose }
  | .config => return { a with config := ← once option a.config value pathText }
  | .glob => return { a with glob := ← once option a.glob value anyText }
  | .format =>
    return { a with flags := { flags with format := ← once option flags.format value anyText } }
  | .outputDir =>
    return { a with
      flags := { flags with outputDir := ← once option flags.outputDir value pathText } }
  | .extension =>
    return { a with
      flags := { flags with extension := ← once option flags.extension value anyText } }
  | .decoder =>
    return { a with
      flags := { flags with decoder := ← once option flags.decoder value DecoderKind.ofName? } }
  | .jobs => return { a with flags := { flags with jobs := ← once option flags.jobs value count } }
  | .diagnostics =>
    let address (value : String) := SocketAddress.read value.toList
    return { a with
      flags := { flags with diagnostics := ← once option flags.diagnostics value address } }
  | .progress =>
    return { a with flags := { flags with progress := ← onceSet option flags.progress } }
  | .help => .error .helpAsked

/-- Notes a plain word that a command has a use for. -/
def addWord (command : CommandName) (a : Arguments) (word : String) :
    Except UsageFault Arguments :=
  if command.hasUseFor a.words word then .ok { a with words := a.words ++ [word] }
  else .error (.unexpectedArgument word)

/-- Notes plain words. -/
def addWords (command : CommandName) (a : Arguments) : List String → Except UsageFault Arguments
  | [] => .ok a
  | word :: rest => (a.addWord command word).bind (addWords command · rest)

/-- The word gives options: it begins with a dash and is more than that. -/
def givesOptions (word : String) : Bool :=
  match word.toList with
  | '-' :: _ :: _ => true
  | _ => false

/-- Reads letters of options. The last one may be left waiting for its value. -/
def readLetters (known : List OptionName) (word : String) (a : Arguments) :
    List Char → Except UsageFault (Arguments × Option OptionName)
  | [] => .ok (a, none)
  | c :: rest =>
    match known.find? (·.letter? == some c) with
    | none => .error (.unknownOption word)
    | some option =>
      if option.takesValue then
        match rest with
        | [] => .ok (a, some option)
        | '=' :: value => (a.set option (String.ofList value)).map (·, none)
        | value => (a.set option (String.ofList value)).map (·, none)
      else
        match a.set option "" with
        | .error e => .error e
        | .ok a => readLetters known word a rest

/-- Reads a word that gives options. The last one may be left waiting for its value. -/
def readOptions (known : List OptionName) (a : Arguments) (word : String) :
    Except UsageFault (Arguments × Option OptionName) :=
  match word.toList with
  | '-' :: '-' :: text =>
    let name := String.ofList (text.takeWhile (· != '='))
    match known.find? (·.long == name), text.dropWhile (· != '=') with
    | none, _ => .error (.unknownOption word)
    | some option, [] =>
      if option.takesValue then .ok (a, some option) else (a.set option "").map (·, none)
    | some option, _ :: value =>
      if option.takesValue then (a.set option (String.ofList value)).map (·, none)
      else .error (.unexpectedValue option)
  | _ :: letters => readLetters known word a letters
  | [] => .ok (a, none)

/-- Reads the words of a command; `waiting` is the option before them that waits for its value. -/
def read (command : CommandName) (a : Arguments) (waiting : Option OptionName) :
    List String → Except UsageFault Arguments
  | [] =>
    match waiting with
    | none => .ok a
    | some option => .error (.missingValue option)
  | word :: rest =>
    match waiting with
    | some option =>
      if givesOptions word then .error (.missingValue option)
      else
        match a.set option word with
        | .error e => .error e
        | .ok a => read command a none rest
    | none =>
      if word = "--" then a.addWords command rest
      else if givesOptions word then
        match readOptions command.options a word with
        | .error e => .error e
        | .ok (a, waiting) => read command a waiting rest
      else
        match a.addWord command word with
        | .error e => .error e
        | .ok a => read command a none rest

/-- Reads the words before the name of a command, and gives that name with the words after it. -/
def readFront (a : Arguments) (waiting : Option OptionName) :
    List String → Except UsageFault (Arguments × String × List String)
  | [] =>
    match waiting with
    | none => .error .missingCommand
    | some option => .error (.missingValue option)
  | word :: rest =>
    match waiting with
    | some option =>
      if givesOptions word then .error (.missingValue option)
      else
        match a.set option word with
        | .error e => .error e
        | .ok a => readFront a none rest
    | none =>
      if word = "--" then .error .missingCommand
      else if givesOptions word then
        match readOptions OptionName.common a word with
        | .error e => .error e
        | .ok (a, waiting) => readFront a waiting rest
      else .ok (a, word, rest)

end Arguments

/-! ## Invocations -/

/-- What the program is asked to do. -/
inductive Request where
  /-- Convert files: those given, or those that a pattern stands for. -/
  | convert (files : List Path) (glob : Option String) (flags : Flags)
  /-- Compile a format and list its directives. -/
  | check (format : String)
  /-- Tell the version. -/
  | version
deriving DecidableEq, Repr

/-- A request with the options of every command. -/
structure Invocation where
  request : Request
  verbose : Bool
  config : Option Path
deriving DecidableEq, Repr

namespace Invocation

/-- The request that a command and its arguments make. -/
def requestOf (command : CommandName) (a : Arguments) : Except UsageFault Request :=
  match command with
  | .convert => .ok (.convert (a.words.map Path.ofString) a.glob a.flags)
  | .check =>
    match a.words.head? with
    | none => .error .missingArgument
    | some format => .ok (.check format)
  | .version => .ok .version

/-- What asking for help about commands amounts to. Help is a command too. -/
def helpOn : List String → UsageFault
  | [] => .helpAsked
  | command :: rest =>
    if command = "help" || (CommandName.ofName? command).isSome then
      match rest with
      | [] => .helpAsked
      | word :: _ => .unknownCommand word
    else .unknownCommand command

/-- The invocation of a command line. An option of every command counts before and after the name of
the command; of two settings files the later one is used. -/
def read (words : List String) : Except UsageFault Invocation := do
  let (front, command, rest) ← Arguments.readFront {} none words
  if command = "help" then .error (helpOn rest)
  else
    match CommandName.ofName? command with
    | none => .error (.unknownCommand command)
    | some command =>
      let back ← Arguments.read command {} none rest
      let request ← requestOf command back
      return {
        request
        verbose := front.verbose || back.verbose
        config := (back.config <|> front.config).map Path.ofString }

end Invocation
end GraphScribe
