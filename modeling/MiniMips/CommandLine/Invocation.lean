import MiniMips.Numeral

/-!
Contract: the arguments of the command line.

Owns:
- the commands, and an invocation of one of them on a file;
- the options, the spellings of their values, and where each may stand;
- reading an invocation from a list of arguments.

Options may stand before and after the file.  The configuration may also stand
before the command; where it stands in both places, the one after the command
counts.
-/

namespace MiniMips.CommandLine

/-- What is to be done with a source file. -/
inductive Command where
  /-- Run it, and report statistics if asked to. -/
  | run (showStatistics : Bool)
  | step (count : Nat)
  | dump
deriving DecidableEq, Repr

/-- A command on a source file, under a configuration if one is named. -/
structure Invocation where
  configurationPath? : Option String
  sourcePath : String
  command : Command
deriving DecidableEq, Repr

inductive OptionName where
  | configuration
  | statistics
  | count
deriving DecidableEq, Repr

inductive CommandName where
  | run
  | step
  | dump
deriving DecidableEq, Repr

def CommandName.ofText? (text : String) : Option CommandName :=
  if text = "run" then some .run
  else if text = "step" then some .step
  else if text = "dump" then some .dump
  else none

def CommandName.allows : CommandName → OptionName → Bool
  | _, .configuration => true
  | .run, .statistics => true
  | .step, .count => true
  | _, _ => false

def OptionName.long : OptionName → List Char
  | .configuration => "--config".toList
  | .statistics => "--stats".toList
  | .count => "--count".toList

/-- Short spelling of an option, for the options that have one. -/
def OptionName.short? : OptionName → Option (List Char)
  | .configuration => some "-c".toList
  | .statistics => none
  | .count => some "-n".toList

def OptionName.takesValue : OptionName → Bool
  | .configuration | .count => true
  | .statistics => false

/-- What follows a text at the start of another. -/
def afterStart? (start text : List Char) : Option (List Char) :=
  if start.isPrefixOf text then some (text.drop start.length) else none

/-- An option as it stands in one argument. -/
structure WrittenOption where
  name : OptionName
  /-- The value, if it stands in the same argument. -/
  value? : Option String
deriving DecidableEq, Repr

/-- Read an argument as a given option.  A value may follow the long spelling
after an equals sign, and the short spelling directly or after an equals
sign. -/
def WrittenOption.ofArgumentAs? (argument : List Char) (name : OptionName) :
    Option WrittenOption :=
  match afterStart? name.long argument with
  | some [] => some ⟨name, none⟩
  | some ('=' :: value) => some ⟨name, some (String.ofList value)⟩
  | _ =>
      match name.short?.bind (afterStart? · argument) with
      | none => none
      | some [] => some ⟨name, none⟩
      | some ('=' :: value) => some ⟨name, some (String.ofList value)⟩
      | some value => some ⟨name, some (String.ofList value)⟩

def WrittenOption.ofArgument? (argument : String) : Option WrittenOption :=
  [OptionName.configuration, .statistics, .count].findSome?
    (ofArgumentAs? argument.toList)

/-- Whether an argument looks like an option.  A single minus sign does not. -/
def looksLikeOption (argument : String) : Bool :=
  match argument.toList with
  | '-' :: _ :: _ => true
  | _ => false

/-- Read a number of steps: decimal digits, which a plus sign may precede, for
a number of at most sixty-four bits. -/
def count? (text : String) : Option Nat :=
  let digits :=
    match text.toList with
    | '+' :: rest => rest
    | characters => characters
  (Numeral.value? 10 digits).filter (fun count => decide (count < 0x10000000000000000))

/-- What has been read of the arguments after a command. -/
structure Collected where
  configurationPath? : Option String
  sourcePath? : Option String
  showStatistics : Bool
  count? : Option Nat
deriving DecidableEq, Repr

namespace Collected

def nothing : Collected where
  configurationPath? := none
  sourcePath? := none
  showStatistics := false
  count? := none

def flag? (collected : Collected) : OptionName → Option Collected
  | .statistics =>
      if collected.showStatistics then
        none
      else
        some { collected with showStatistics := true }
  | .configuration | .count => none

def option? (collected : Collected) (value : String) :
    OptionName → Option Collected
  | .configuration =>
      if collected.configurationPath?.isSome || value.isEmpty then
        none
      else
        some { collected with configurationPath? := some value }
  | .count =>
      if collected.count?.isSome then
        none
      else
        (CommandLine.count? value).map
          (fun count => { collected with count? := some count })
  | .statistics => none

def source? (collected : Collected) (path : String) : Option Collected :=
  if collected.sourcePath?.isSome || path.isEmpty then
    none
  else
    some { collected with sourcePath? := some path }

/-- Take all arguments after a command.  After `--` no argument is an
option. -/
def all? (commandName : CommandName) (collected : Collected) :
    List String → Option Collected
  | [] => some collected
  | argument :: rest =>
      if argument = "--" then
        rest.foldlM source? collected
      else
        match WrittenOption.ofArgument? argument with
        | some ⟨name, some value⟩ =>
            if commandName.allows name then
              (collected.option? value name).bind (all? commandName · rest)
            else
              none
        | some ⟨name, none⟩ =>
            if commandName.allows name then
              if name.takesValue then
                match rest with
                | [] => none
                | value :: more =>
                    if looksLikeOption value then
                      none
                    else
                      (collected.option? value name).bind
                        (all? commandName · more)
              else
                (collected.flag? name).bind (all? commandName · rest)
            else
              none
        | none =>
            if looksLikeOption argument then
              none
            else
              (collected.source? argument).bind (all? commandName · rest)

/-- The command that was asked for.  One step is taken if no number is
given. -/
def command (collected : Collected) : CommandName → Command
  | .run => .run collected.showStatistics
  | .step => .step (collected.count?.getD 1)
  | .dump => .dump

end Collected

namespace Invocation

/-- Read the command and what follows it. -/
def ofCommand? (outerConfiguration? : Option String) (commandText : String)
    (arguments : List String) : Option Invocation :=
  match CommandName.ofText? commandText with
  | none => none
  | some commandName =>
      match Collected.nothing.all? commandName arguments with
      | none => none
      | some collected =>
          collected.sourcePath?.map (fun sourcePath =>
            { configurationPath? :=
                collected.configurationPath?.or outerConfiguration?
              sourcePath := sourcePath
              command := collected.command commandName })

/-- Read the configuration before the command and then the command. -/
def ofArguments? : List String → Option Invocation
  | [] => none
  | argument :: rest =>
      match WrittenOption.ofArgument? argument with
      | some ⟨.configuration, some value⟩ =>
          match rest with
          | [] => none
          | commandText :: arguments =>
              ofCommand? (some value) commandText arguments
      | some ⟨.configuration, none⟩ =>
          match rest with
          | value :: commandText :: arguments =>
              if looksLikeOption value then
                none
              else
                ofCommand? (some value) commandText arguments
          | _ => none
      | _ => ofCommand? none argument rest

/-- The files that an invocation reads, in the order in which it does. -/
def paths (invocation : Invocation) : List String :=
  invocation.configurationPath?.toList ++ [invocation.sourcePath]

end Invocation

end MiniMips.CommandLine
