import MeshControl.Archive.Path
import MeshControl.Bytes
import MeshControl.Ordered.Map

/-!
# A tree of files as a value

A `FileTree` is what lies on the disk of a host: every directory and file by its path from the
top. Operations walk a path name by name as the host does: each name but the last must lead to
a directory, and `..` leads back to the directory above.
-/

namespace MeshControl

/-- Why an operation on files fails. -/
inductive DiskFault where
  | notFound
  | alreadyExists
  | notDirectory
  | isDirectory
  | nameTooLong
  /-- A name with a character that no file can have in its name. -/
  | invalidName
  deriving DecidableEq, Repr

/-- Wording of a fault of the disk. -/
def DiskFault.message : DiskFault → String
  | .notFound => "No such file or directory (os error 2)"
  | .alreadyExists => "File exists (os error 17)"
  | .notDirectory => "Not a directory (os error 20)"
  | .isDirectory => "Is a directory (os error 21)"
  | .nameTooLong => "File name too long (os error 36)"
  | .invalidName => "file name contained an unexpected NUL byte"

/-- An entry of a tree. -/
inductive FileNode where
  | directory
  | file (data : Bytes)
  deriving DecidableEq, Repr

/-- Directories and files by their path; the top of the tree is a directory and not listed. -/
structure FileTree where
  entries : OrderedMap Path FileNode
  deriving DecidableEq

namespace FileTree

/-- The disk of a host on which nothing was written yet. What is known of it is where paths begin
and the null device, which holds nothing. -/
def host : FileTree :=
  ⟨OrderedMap.ofList [(["dev"], .directory), (["dev", "null"], .file []),
    (Path.workplace, .directory)]⟩

/-- The entry at a path without detours. -/
def node? (tree : FileTree) (path : Path) : Option FileNode :=
  match path with
  | [] => some .directory
  | _ :: _ => tree.entries.get? path

/-- Follow one name from a place. -/
def follow (tree : FileTree) (place : Path) (name : String) : Except DiskFault Path :=
  match tree.node? place with
  | none => .error .notFound
  | some (.file _) => .error .notDirectory
  | some .directory =>
    if name = "." then .ok place
    else if name = ".." then .ok place.dropLast
    else if Path.nameLimit < name.utf8ByteSize then .error .nameTooLong
    else if (tree.node? (place ++ [name])).isSome then .ok (place ++ [name])
    else .error .notFound

/-- Follow the names of a path from the top to an entry that exists. -/
def resolve (tree : FileTree) (path : Path) : Except DiskFault Path := path.foldlM tree.follow []

/-- The names of a path that is given as text, if a path can have this text. -/
def pathOf (text : String) : Except DiskFault Path :=
  if text.toList.any fun c => c.val = 0 then .error .invalidName
  else if Path.textLimit < text.utf8ByteSize then .error .nameTooLong
  else .ok (.ofText text)

/-- The place that a path leads to. A slash at the end asks for a directory, as a dot after it
does. -/
def locate (tree : FileTree) (text : String) : Except DiskFault Path := do
  let path ← pathOf text
  tree.resolve (if Path.endsInSlash text then path ++ ["."] else path)

/-- True if a path leads to an entry. -/
def pathExists (tree : FileTree) (text : String) : Bool := (tree.locate text).isOk

/-- The directory that a path leads into and, unless the path ends in dots, the name there, whether
or not there is an entry of that name. -/
def target (tree : FileTree) (path : Path) : Except DiskFault (Path × Option String) := do
  match path.getLast? with
  | none => return ([], none)
  | some name =>
    let parent ← tree.resolve path.dropLast
    if tree.node? parent ≠ some .directory then throw .notDirectory
    if name = "." then return (parent, none)
    if name = ".." then return (parent.dropLast, none)
    if Path.nameLimit < name.utf8ByteSize then throw .nameTooLong
    return (parent, some name)

/-- Make a directory. -/
def makeDirectory (tree : FileTree) (path : Path) : Except DiskFault FileTree := do
  match ← tree.target path with
  | (_, none) => throw .alreadyExists
  | (parent, some name) =>
    let place := parent ++ [name]
    if (tree.node? place).isSome then throw .alreadyExists
    return ⟨tree.entries.insert place .directory⟩

/-- True if a path leads to a directory. -/
def isDirectory (tree : FileTree) (path : Path) : Bool :=
  match tree.resolve path with
  | .ok place => tree.node? place = some .directory
  | .error _ => false

/-- Make a directory, unless it is there already. -/
def ensureDirectory (tree : FileTree) (path : Path) : Except DiskFault FileTree :=
  match tree.makeDirectory path with
  | .ok made => .ok made
  | .error fault => if tree.isDirectory path then .ok tree else .error fault

/-- Make the first of some directories, each of which is above the one ahead of it, and those of
the others that are missing. -/
def makeThrough (tree : FileTree) : List Path → Except DiskFault Unit × FileTree
  | [] => (.ok (), tree)
  | path :: above =>
    match tree.ensureDirectory path with
    | .ok made => (.ok (), made)
    | .error .notFound =>
      match tree.makeThrough above with
      | (.error fault, tree) => (.error fault, tree)
      | (.ok (), tree) =>
        match tree.ensureDirectory path with
        | .ok made => (.ok (), made)
        | .error fault => (.error fault, tree)
    | .error fault => (.error fault, tree)

/-- Make a directory and those above it that are missing. Those that were made stay, also if a
later one cannot be made. -/
def makeDirectories (tree : FileTree) (text : String) : Except DiskFault Unit × FileTree :=
  match pathOf text with
  | .ok path => tree.makeThrough path.ancestors
  | .error fault => (.error fault, tree)

/-- Write a file, in place of an earlier one. -/
def writeFile (tree : FileTree) (text : String) (data : Bytes) : Except DiskFault FileTree := do
  match ← tree.target (← pathOf text) with
  | (_, none) => throw .isDirectory
  | (parent, some name) =>
    let place := parent ++ [name]
    if tree.node? place = some .directory || Path.endsInSlash text then throw .isDirectory
    return ⟨tree.entries.insert place (.file data)⟩

/-- The tree with a file put at a path, and the directories above it that are missing. Where this
cannot be done, what could be made stays. -/
def plant (tree : FileTree) (text : String) (data : Bytes) : FileTree :=
  let made := (tree.makeThrough (Path.ofText text).ancestors.tail).2
  match made.writeFile text data with
  | .ok planted => planted
  | .error _ => made

/-- The contents of a file. -/
def contents (tree : FileTree) (text : String) : Except DiskFault Bytes := do
  match tree.node? (← tree.locate text) with
  | some (.file data) => return data
  | some .directory => throw .isDirectory
  | none => throw .notFound

/-- The entries below a directory, by their path from there. -/
def below (tree : FileTree) (directory : Path) : List (Path × FileNode) :=
  tree.entries.entries.filterMap fun (path, node) =>
    if directory.isPrefixOf path ∧ path ≠ directory then
      some (path.drop directory.length, node)
    else none

end FileTree

end MeshControl
