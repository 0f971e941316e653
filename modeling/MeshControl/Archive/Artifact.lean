import MeshControl.Archive.FileTree
import MeshControl.Fault
import MeshControl.Region.Basic

/-!
# Folders and names of what a pass leaves behind

Each reload pass keeps copies of what it wrote in folders of its own. A folder takes the plain
name if that is free and otherwise the least number that makes it free, so passes never share
one. The files in it are named after the machine, the core and the region.
-/

namespace MeshControl.Archive

/-- The name of the folders of a reload pass. -/
def reloadFolder : String := "reloaded_data_regions"

/-- The name to try when the first `taken` names were taken. -/
def candidate (name : String) (taken : Nat) : String :=
  if taken = 0 then name else s!"{name}_{taken}"

/-- The number of names that are taken, up to `limit` of them from `taken` on. -/
def countTaken (tree : FileTree) (parent name : String) (taken : Nat) : Nat → Nat
  | 0 => taken
  | limit + 1 =>
    if tree.pathExists (Path.join parent (candidate name taken)) then
      countTaken tree parent name (taken + 1) limit
    else taken

/-- The first free name for a folder below `parent`. Fewer names are taken than there are
entries in the tree, counting its top. -/
def freeName (tree : FileTree) (parent name : String) : String :=
  candidate name (countTaken tree parent name 0 (tree.entries.size + 2))

/-- Make a folder of a free name below `parent`; the answer is its path. -/
def uniqueFolder (parent name : String) (tree : FileTree) : Except Fault String × FileTree :=
  let path := Path.join parent (freeName tree parent name)
  match tree.makeDirectories path with
  | (.ok (), tree) => (.ok path, tree)
  | (.error fault, tree) => (.error (.operation (.reportDirectory path fault.message)), tree)

/-- The name, up to its ending, of the files of one region. -/
def artifactStem (hostname : String) (core : Core) (region : RegionId) : String :=
  s!"{hostname}_dataSpec_{core.x}_{core.y}_{core.p}_{region}"

end MeshControl.Archive
