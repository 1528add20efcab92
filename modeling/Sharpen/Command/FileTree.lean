import Sharpen.Path

/-!
# Files

`FileSystem` is what a run asks of the files around it, over any monad. `Disk` is a file system held
as a value: a tree of directories and the place in it from which relative paths start. Names and
paths have a greatest length in bytes. A path that is longer leads nowhere, whatever stands in the
tree.
-/

namespace Sharpen

/-- The operations on files that a run needs. -/
structure FileSystem (m : Type → Type) where
  isFile : String → m Bool
  isDirectory : String → m Bool
  /-- the files in a directory and below, by name, those of a directory at its place -/
  filesBelow : String → m (List String)
  /-- the text of a file, if it can be read and is text -/
  read : String → m (Option String)
  /-- makes a directory and those above it, and tells whether that succeeded -/
  makeDirectories : String → m Bool
  /-- writes a file and tells whether that succeeded -/
  write : String → String → m Bool

/-- A text that can name a file: at most 255 bytes, and no zero character. -/
def isFileName (name : String) : Bool :=
  name.utf8ByteSize ≤ 255 && !name.toList.contains (Char.ofNat 0)

/-- A text that can be followed as a path: at most 4095 bytes as it is written. -/
def isFollowable (path : String) : Bool :=
  path.utf8ByteSize ≤ 4095

/-- A file, or a directory with its entries in the order of their names. -/
inductive FileTree where
  | file (content : ByteArray)
  | directory (entries : List (String × FileTree))
  deriving Inhabited

namespace FileTree

def isDirectory : FileTree → Bool
  | directory _ => true
  | file _ => false

/-- Puts an entry at its place in the order of names. -/
def insertEntry (name : String) (tree : FileTree) :
    List (String × FileTree) → List (String × FileTree)
  | [] => [(name, tree)]
  | entry :: rest =>
    if name = entry.1 then (name, tree) :: rest
    else if name < entry.1 then (name, tree) :: entry :: rest
    else entry :: insertEntry name tree rest

/-- What stands below the given names. -/
def get? (tree : FileTree) : List String → Option FileTree
  | [] => some tree
  | name :: rest =>
    match tree with
    | file _ => none
    | directory entries => (entries.lookup name).bind (get? · rest)

/-- Puts a tree below the given names. Directories on the way are made, and nothing is put below a
file. -/
def put? (leaf : FileTree) (tree : FileTree) : List String → Option FileTree
  | [] => some leaf
  | name :: rest =>
    match tree with
    | file _ => none
    | directory entries => do
      let child ← put? leaf ((entries.lookup name).getD (directory [])) rest
      return directory (insertEntry name child entries)

mutual

/-- The files of a tree with their paths. What stands in a directory is found only if the path of
the directory can be followed. -/
def filesBelow (path : String) : FileTree → List (String × ByteArray)
  | file content => [(path, content)]
  | directory entries => if isFollowable path then entriesBelow path entries else []

def entriesBelow (path : String) : List (String × FileTree) → List (String × ByteArray)
  | [] => []
  | (name, tree) :: rest => filesBelow (Path.join path name) tree ++ entriesBelow path rest

end

end FileTree

/-- A file system as a value. -/
structure Disk where
  root : FileTree := .directory []
  /-- the names that lead to the place where relative paths start -/
  here : List String := []
  deriving Inhabited

namespace Disk

/-- Follows the segments of a path. Each must start from a directory. -/
def follow (disk : Disk) (place : List String) : List String → Option (List String)
  | [] => some place
  | segment :: rest =>
    if !((disk.root.get? place).any FileTree.isDirectory) then none
    else if segment = "" ∨ segment = "." then disk.follow place rest
    else if segment = ".." then disk.follow place.dropLast rest
    else if isFileName segment then disk.follow (place ++ [segment]) rest
    else none

/-- The place from which a path starts. -/
def start (disk : Disk) (path : String) : List String :=
  if Path.isAbsolute path then [] else disk.here

/-- The names to which a path leads, whether something stands there or not. -/
def resolve? (disk : Disk) (path : String) : Option (List String) :=
  if path.isEmpty || !isFollowable path then none
  else disk.follow (disk.start path) (Path.segments path)

/-- What stands at a path. -/
def get? (disk : Disk) (path : String) : Option FileTree :=
  (disk.resolve? path).bind disk.root.get?

def isFile (disk : Disk) (path : String) : Bool :=
  (disk.get? path).any (!·.isDirectory)

def isDirectory (disk : Disk) (path : String) : Bool :=
  (disk.get? path).any (·.isDirectory)

def filesBelow (disk : Disk) (path : String) : List (String × ByteArray) :=
  ((disk.get? path).map (FileTree.filesBelow path)).getD []

def readText? (disk : Disk) (path : String) : Option String :=
  match disk.get? path with
  | some (.file content) => String.fromUTF8? content
  | _ => none

/-- Writes a file into a directory that exists. -/
def write? (disk : Disk) (path : String) (content : ByteArray) : Option Disk :=
  match (Path.segments path).getLast? with
  | none | some "" | some "." | some ".." => none
  | some _ => do
    let place ← disk.resolve? path
    if (disk.root.get? place).any FileTree.isDirectory then none
    else
      let root ← FileTree.put? (.file content) disk.root place
      return { disk with root }

/-- Follows the segments of a path and makes the directories that are missing. -/
def makeFrom (disk : Disk) (place : List String) : List String → Option Disk
  | [] => some disk
  | segment :: rest =>
    if segment = "" ∨ segment = "." then disk.makeFrom place rest
    else if segment = ".." then disk.makeFrom place.dropLast rest
    else if !isFileName segment then none
    else
      let next := place ++ [segment]
      match disk.root.get? next with
      | some (.directory _) => disk.makeFrom next rest
      | some (.file _) => none
      | none => do
        let root ← FileTree.put? (.directory []) disk.root next
        makeFrom { disk with root } next rest

def makeDirectories? (disk : Disk) (path : String) : Option Disk :=
  if isFollowable path then disk.makeFrom (disk.start path) (Path.segments path) else none

/-- A change that may fail; when it does nothing is changed. -/
def attempt (change : Disk → Option Disk) : StateM Disk Bool := fun disk =>
  match change disk with
  | some changed => (true, changed)
  | none => (false, disk)

/-- The operations on a disk as a state. -/
def fileSystem : FileSystem (StateM Disk) where
  isFile path := return (← get).isFile path
  isDirectory path := return (← get).isDirectory path
  filesBelow path := return ((← get).filesBelow path).map (·.1)
  read path := return (← get).readText? path
  makeDirectories path := attempt (·.makeDirectories? path)
  write path text := attempt (·.write? path text.toUTF8)

end Disk

end Sharpen
