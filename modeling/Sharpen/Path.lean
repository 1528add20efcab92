import Sharpen.Text.Replace

/-!
# Paths

A path is a text whose names are divided by slashes. Its components leave out what says nothing:
repeated slashes, a slash at the end, and a `.` anywhere but at the start of a relative path. A
component is found together with the text before it, so that a path can be cut at a component
without changing how the rest is written.

The main definitions are `Path.components`, `Path.parent?`, `Path.fileName?`, `Path.join` and
`Path.withExtension`; `outputPath` says where a converted file goes.
-/

namespace Sharpen

/-- A part of a path. -/
inductive Component where
  /-- the slash at the start of an absolute path -/
  | root
  /-- a `.` at the start of a relative path -/
  | current
  /-- a `..` -/
  | parent
  | normal (name : String)
  deriving DecidableEq, Inhabited, Repr

/-- How a component is written. -/
def Component.text : Component → String
  | root => "/"
  | current => "."
  | parent => ".."
  | normal name => name

/-- The name that a component carries. -/
def Component.name? : Component → Option String
  | normal name => some name
  | _ => none

namespace Path

/-- The texts between the slashes. -/
def splitSlashes : List Char → List (List Char)
  | [] => [[]]
  | c :: rest =>
    if c = '/' then [] :: splitSlashes rest
    else match splitSlashes rest with
      | [] => [[c]]
      | segment :: segments => (c :: segment) :: segments

/-- The texts between the slashes of a path. -/
def segments (path : String) : List String :=
  (splitSlashes path.toList).map String.ofList

/-- A component with the text of the path before it. -/
structure Step where
  before : String
  component : Component
  deriving DecidableEq, Inhabited

/-- The text of the path up to the end of the component. -/
def Step.upTo (step : Step) : String :=
  step.before ++ step.component.text

/-- The component that a segment stands for, if it is not the first one. -/
def innerComponent? (segment : String) : Option Component :=
  if segment = "" ∨ segment = "." then none
  else if segment = ".." then some .parent
  else some (.normal segment)

/-- The steps of the segments that follow the text `before`. -/
def innerSteps (before : String) : List String → List Step
  | [] => []
  | segment :: rest =>
    let later := innerSteps (before ++ segment ++ "/") rest
    match innerComponent? segment with
    | some component => ⟨before, component⟩ :: later
    | none => later

def steps (path : String) : List Step :=
  match segments path with
  | [] | [""] => []
  | "" :: rest => ⟨"", .root⟩ :: innerSteps "/" rest
  | "." :: rest => ⟨"", .current⟩ :: innerSteps "./" rest
  | all => innerSteps "" all

def components (path : String) : List Component :=
  (steps path).map (·.component)

/-- The last component, if it is a name. -/
def fileName? (path : String) : Option String :=
  (components path).getLast?.bind Component.name?

/-- The path without its last component. The root and the empty path have no parent. -/
def parent? (path : String) : Option String :=
  match (steps path).reverse with
  | [] => none
  | last :: earlier =>
    if last.component = .root then none
    else some ((earlier.head?.map Step.upTo).getD "")

/-- A path that starts at the root. -/
def isAbsolute (path : String) : Bool :=
  path.toList.head? == some '/'

/-- A path below another. An absolute path stays as it is, and one slash divides the two. -/
def join (directory path : String) : String :=
  if isAbsolute path then path
  else if directory.isEmpty || directory.toList.getLast? == some '/' then directory ++ path
  else directory ++ "/" ++ path

/-- A name divided at its last dot. A name that starts with its only dot has no extension. -/
def splitExtension (name : String) : String × Option String :=
  let backwards := name.toList.reverse
  match backwards.dropWhile (· ≠ '.') with
  | [] | [_] => (name, none)
  | _ :: stem =>
    (String.ofList stem.reverse, some (String.ofList (backwards.takeWhile (· ≠ '.')).reverse))

/-- The extension of the last component, without its dot. -/
def extension? (path : String) : Option String :=
  (fileName? path).bind fun name => (splitExtension name).2

/-- The path without the extension of its last component, whose dot stays. A path that goes on
behind that component, with a slash for instance, stays as it is. -/
def cutExtension (path : String) : String :=
  match (steps path).getLast? with
  | some ⟨before, .normal name⟩ =>
    match splitExtension name with
    | (stem, some _) => if before ++ name = path then before ++ stem ++ "." else path
    | (_, none) => path
  | _ => path

/-- Gives the last component another extension, once the one it has is cut: `..a` is no name any
more then. What follows that component, such as a slash, is cut as well. A path that does not end in
a name stays as it is. -/
def withExtension (path extension : String) : String :=
  let path := cutExtension path
  match (steps path).getLast? with
  | some ⟨before, .normal name⟩ => before ++ (splitExtension name).1 ++ "." ++ extension
  | _ => path

end Path

/-- The extension of the files that are read. -/
def unitExtension : String := "vbjson"

/-- The extension of the files that are written. -/
def codeExtension : String := "cs"

/-- The recorded path of a unit after a replacement, which is a pair of an old and a new text. -/
def replacedPath (path : String) : (replacement : Option (String × String)) → String
  | some (old, new) => Text.replaceAll old new path
  | none => path

/-- The names in a path, one below the other. -/
def relativePath (path : String) : String :=
  ((Path.components path).filterMap Component.name?).foldl Path.join ""

/-- Where the code of a unit goes. Below an output directory the names of its recorded path are
kept; without one the code stands beside the file the unit came from. -/
def outputPath (recorded source : String) (outDir : Option String) : String :=
  let target :=
    match outDir with
    | some directory => Path.join directory (relativePath recorded)
    | none =>
      match Path.fileName? recorded with
      | some name => Path.join ((Path.parent? source).getD "") name
      | none => source
  Path.withExtension target codeExtension

end Sharpen
