import Sharpen.Convert.Monad

/-!
# Command line arguments

An argument is an input, a flag, or an option with its values. Values are held until it is known
that no more follow and are stored then, so a mistake in a value is reported when the next flag or
option, or the end, is met. A word that cannot be understood is reported at once, before any value
that is held.
-/

namespace Sharpen

/-- What the command is asked to do. -/
structure Arguments where
  /-- files and directories, in the order given -/
  inputs : List String := []
  /-- the directory below which code is written -/
  outDir : Option String := none
  /-- the values of every path replacement -/
  replacePath : List String := []
  /-- print the code and write no file -/
  stdout : Bool := false
  /-- the number of workers asked for -/
  jobs : Option Nat := none
  /-- the width of one level of indentation, if given -/
  indentWidth : Option Nat := none
  noTodoComments : Bool := false
  noColor : Bool := false
  deriving DecidableEq, Inhabited, Repr

namespace Arguments

/-- The options for the conversion. -/
def options (arguments : Arguments) : Options where
  indentWidth := arguments.indentWidth.getD defaultIndentWidth
  emitTodoComments := !arguments.noTodoComments

/-- The one replacement in recorded paths. Several replacements count as none. -/
def pathReplacement (arguments : Arguments) : Option (String × String) :=
  match arguments.replacePath with
  | [old, new] => some (old, new)
  | _ => none

end Arguments

/-- Why the arguments lead to no run. -/
inductive ArgumentsError where
  | missingInput
  | unknownArgument
  /-- a number that cannot be read -/
  | malformedNumber
  /-- no value, or an empty path -/
  | missingValue
  | wrongNumberOfValues
  /-- a value for a flag -/
  | unexpectedValue
  /-- given twice -/
  | repeated
  | helpRequested
  | versionRequested
  deriving DecidableEq, Inhabited, Repr

/-- A word without values. -/
inductive Flag where
  | stdout | noTodoComments | noColor | help | version
  deriving DecidableEq, Inhabited

/-- A word with values. -/
inductive ValueOption where
  | outDir | replacePath | jobs | indentWidth
  deriving DecidableEq, Inhabited

/-- The number of values that an option takes at a time. -/
def ValueOption.arity : ValueOption → Nat
  | replacePath => 2
  | _ => 1

/-- What a word that starts with a dash names. -/
inductive Switch where
  | flag (flag : Flag)
  | option (option : ValueOption)
  deriving DecidableEq, Inhabited

namespace Switch

/-- The words after two dashes. -/
def ofWord? : String → Option Switch
  | "out-dir" => some (option .outDir)
  | "replace-path" => some (option .replacePath)
  | "jobs" => some (option .jobs)
  | "indent-width" => some (option .indentWidth)
  | "stdout" => some (flag .stdout)
  | "no-todo-comments" => some (flag .noTodoComments)
  | "no-color" => some (flag .noColor)
  | "help" => some (flag .help)
  | "version" => some (flag .version)
  | _ => none

/-- The letters after one dash. -/
def ofLetter? : Char → Option Switch
  | 'o' => some (option .outDir)
  | 'j' => some (option .jobs)
  | 'h' => some (flag .help)
  | 'V' => some (flag .version)
  | _ => none

end Switch

/-- An unsigned integer of sixty-four bits in decimal digits. It may have a plus sign and leading
zeros. -/
def readCount? (text : String) : Option Nat :=
  let digits := match text.toList with
    | '+' :: rest => rest
    | all => all
  let count := digits.foldl (fun sum digit => 10 * sum + (digit.toNat - '0'.toNat)) 0
  if !digits.isEmpty && digits.all Char.isDigit && count < UInt64.size then some count else none

namespace Arguments

/-- Stores inputs. -/
def addInputs (arguments : Arguments) (values : List String) : Except ArgumentsError Arguments :=
  if values.contains "" then .error .missingValue
  else .ok { arguments with inputs := arguments.inputs ++ values }

def setFlag (arguments : Arguments) : Flag → Except ArgumentsError Arguments
  | .stdout =>
    if arguments.stdout then .error .repeated else .ok { arguments with stdout := true }
  | .noTodoComments =>
    if arguments.noTodoComments then .error .repeated
    else .ok { arguments with noTodoComments := true }
  | .noColor =>
    if arguments.noColor then .error .repeated else .ok { arguments with noColor := true }
  | .help => .error .helpRequested
  | .version => .error .versionRequested

/-- Stores the one value of an option. -/
def setValue (arguments : Arguments) (option : ValueOption) (value : String) :
    Except ArgumentsError Arguments :=
  match option with
  | .outDir =>
    if arguments.outDir.isSome then .error .repeated
    else if value.isEmpty then .error .missingValue
    else .ok { arguments with outDir := some value }
  | .jobs =>
    if arguments.jobs.isSome then .error .repeated
    else match readCount? value with
      | some count => .ok { arguments with jobs := some count }
      | none => .error .malformedNumber
  | .indentWidth =>
    if arguments.indentWidth.isSome then .error .repeated
    else match readCount? value with
      | some count => .ok { arguments with indentWidth := some count }
      | none => .error .malformedNumber
  | .replacePath => .error .wrongNumberOfValues

/-- Stores the values of an option. -/
def setValues (arguments : Arguments) (option : ValueOption) :
    List String → Except ArgumentsError Arguments
  | [] => .error .missingValue
  | [value] => arguments.setValue option value
  | values =>
    if option = .replacePath ∧ values.length = 2 then
      .ok { arguments with replacePath := arguments.replacePath ++ values }
    else .error .wrongNumberOfValues

end Arguments

/-- Values that are not stored yet. -/
inductive Held where
  | nothing
  | inputs (values : List String)
  | values (option : ValueOption) (values : List String)
  deriving DecidableEq, Inhabited

/-- The arguments as far as they have been read. -/
structure Reading where
  arguments : Arguments := {}
  held : Held := .nothing
  /-- after a `--` every word is an input -/
  onlyInputs : Bool := false
  deriving DecidableEq, Inhabited

namespace Reading

/-- Stores what is held. -/
def settle (reading : Reading) : Except ArgumentsError Reading :=
  match reading.held with
  | .nothing => .ok reading
  | .inputs values => do
    return { reading with arguments := ← reading.arguments.addInputs values, held := .nothing }
  | .values option values => do
    return { reading with
      arguments := ← reading.arguments.setValues option values, held := .nothing }

def readFlag (reading : Reading) (flag : Flag) : Except ArgumentsError Reading := do
  let reading ← reading.settle
  return { reading with arguments := ← reading.arguments.setFlag flag }

/-- Reads an option. A value written in the same word is its only one. -/
def readOption (reading : Reading) (option : ValueOption) (attached : Option String) :
    Except ArgumentsError Reading := do
  let reading ← reading.settle
  match attached with
  | some value => return { reading with arguments := ← reading.arguments.setValues option [value] }
  | none => return { reading with held := .values option [] }

/-- Reads a word after two dashes, which may carry a value after an equals sign. -/
def readWord (reading : Reading) (word : List Char) : Except ArgumentsError Reading :=
  let attached : Option String := match word.dropWhile (· ≠ '=') with
    | [] => none
    | _ :: value => some (String.ofList value)
  match Switch.ofWord? (String.ofList (word.takeWhile (· ≠ '='))), attached with
  | none, _ => .error .unknownArgument
  | some (.flag flag), none => reading.readFlag flag
  | some (.flag _), some _ => .error .unexpectedValue
  | some (.option option), _ => reading.readOption option attached

/-- Reads letters after one dash. What follows the letter of an option is its value, and an equals
sign between the two is left out. -/
def readLetters (reading : Reading) : List Char → Except ArgumentsError Reading
  | [] => .ok reading
  | letter :: rest =>
    match Switch.ofLetter? letter with
    | none => .error .unknownArgument
    | some (.flag flag) => do readLetters (← reading.readFlag flag) rest
    | some (.option option) =>
      match rest with
      | [] => reading.readOption option none
      | '=' :: value => reading.readOption option (some (String.ofList value))
      | value => reading.readOption option (some (String.ofList value))

def readInput (reading : Reading) (input : String) : Except ArgumentsError Reading :=
  match reading.held with
  | .inputs values => .ok { reading with held := .inputs (values ++ [input]) }
  | _ => do return { ← reading.settle with held := .inputs [input] }

/-- Reads a word that is neither a flag nor an option: a value, if an option still wants one, or an
input. -/
def readPlain (reading : Reading) (word : String) : Except ArgumentsError Reading :=
  match reading.held with
  | .values option values =>
    if values.length < option.arity then
      .ok { reading with held := .values option (values ++ [word]) }
    else reading.readInput word
  | _ => reading.readInput word

/-- Reads one word of the command line. -/
def read (reading : Reading) (word : String) : Except ArgumentsError Reading :=
  if reading.onlyInputs then reading.readInput word
  else match word.toList with
    | ['-', '-'] => .ok { reading with onlyInputs := true }
    | '-' :: '-' :: rest => reading.readWord rest
    | '-' :: letter :: rest => reading.readLetters (letter :: rest)
    | _ => reading.readPlain word

end Reading

/-- Reads a command line, without the name of the program. At least one input is needed. -/
def Arguments.parse (words : List String) : Except ArgumentsError Arguments := do
  let reading ← words.foldlM Reading.read {}
  let arguments := (← reading.settle).arguments
  if arguments.inputs.isEmpty then .error .missingInput else .ok arguments

end Sharpen
