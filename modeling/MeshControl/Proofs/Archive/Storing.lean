import MeshControl.Proofs.Archive.Keeping

/-!
# Files that were written

A file that is written reads back (`Stored.contents`), and writing a file of another name leaves it
alone (`Stored.writeFile`): a write makes no directory and removes none, so a path that leads
somewhere still leads there.
-/

namespace MeshControl.FileTree

variable {tree next : FileTree} {path parent : Path} {text name : String} {data : Bytes}

/-- The tree with a file at a place. -/
def put (tree : FileTree) (place : Path) (data : Bytes) : FileTree :=
  ⟨tree.entries.insert place (.file data)⟩

theorem node?_put (tree : FileTree) {place : Path} (below : place ≠ []) (data : Bytes)
    (other : Path) : (tree.put place data).node? other =
      if place = other then some (.file data) else tree.node? other :=
  node?_insert tree below (.file data) other

theorem keeps_put (directory : tree.node? parent = some .directory)
    (free : tree.node? (parent ++ [name]) ≠ some .directory) :
    tree.Keeps (tree.put (parent ++ [name]) data) where
  there other found := by
    rw [node?_put tree (List.concat_ne_nil name parent)]
    split
    · rfl
    · exact found
  directories other found := by
    rw [node?_put tree (List.concat_ne_nil name parent), if_neg]
    · exact found
    · rintro rfl
      exact free found
  grounded lies := lies.insert directory fun taken => absurd taken free

/-! ## Where a file goes -/

/-- What it takes for a path to lead to a name in a directory. -/
structure Leads (tree : FileTree) (path parent : Path) (name : String) : Prop where
  last : path.getLast? = some name
  resolves : tree.resolve path.dropLast = .ok parent
  directory : tree.node? parent = some .directory
  plain : name ≠ "." ∧ name ≠ ".."
  short : name.utf8ByteSize ≤ Path.nameLimit

theorem leads_of_target (found : tree.target path = .ok (parent, some name)) :
    tree.Leads path parent name := by
  unfold target at found
  cases last : path.getLast? with
  | none =>
    rw [last] at found
    cases found
  | some final =>
    rw [last] at found
    obtain ⟨above, resolves, found⟩ := exists_of_bind_eq_ok found
    obtain ⟨directory, found⟩ := not_of_guard_eq_ok found
    by_cases dot : final = "."
    · rw [if_pos dot] at found
      cases found
    rw [if_neg dot] at found
    by_cases dots : final = ".."
    · rw [if_pos dots] at found
      cases found
    rw [if_neg dots] at found
    obtain ⟨short, found⟩ := not_of_guard_eq_ok found
    cases found
    exact ⟨last, resolves, Decidable.not_not.1 directory, ⟨dot, dots⟩, Nat.not_lt.1 short⟩

theorem Leads.of_keeps (leads : tree.Leads path parent name) (keeps : tree.Keeps next) :
    next.Leads path parent name :=
  { leads with
    resolves := keeps.resolve leads.resolves
    directory := keeps.directories parent leads.directory }

/-- The path of a file that is there resolves to its place. -/
theorem Leads.resolve (leads : tree.Leads path parent name)
    (there : (tree.node? (parent ++ [name])).isSome = true) :
    tree.resolve path = .ok (parent ++ [name]) := by
  obtain ⟨above, rfl⟩ := List.getLast?_eq_some_iff.1 leads.last
  have resolves := leads.resolves
  rw [List.dropLast_concat] at resolves
  rw [resolve_append resolves]
  show (tree.follow parent name >>= pure) = Except.ok (parent ++ [name])
  rw [follow_eq_ok_iff.2 (.down leads.directory leads.plain leads.short there)]
  rfl

/-! ## Files -/

/-- A path that is given as text leads to a file. -/
structure Stored (tree : FileTree) (text : String) (data : Bytes) : Prop where
  plain : Path.endsInSlash text = false
  leads : ∃ parent name, pathOf text = .ok (.ofText text) ∧
    tree.Leads (.ofText text) parent name ∧ tree.node? (parent ++ [name]) = some (.file data)

theorem pathOf_eq_ok (ok : pathOf text = .ok path) : path = .ofText text := by
  unfold pathOf at ok
  split at ok
  · cases ok
  · split at ok
    · cases ok
    · cases ok
      rfl

/-- A write puts the file where its path leads. -/
theorem writeFile_eq_ok (wrote : tree.writeFile text data = .ok next) :
    Path.endsInSlash text = false ∧ ∃ parent name, pathOf text = .ok (.ofText text) ∧
      tree.Leads (.ofText text) parent name ∧
      tree.node? (parent ++ [name]) ≠ some .directory ∧ next = tree.put (parent ++ [name]) data := by
  obtain ⟨path, read, wrote⟩ := exists_of_bind_eq_ok wrote
  obtain rfl := pathOf_eq_ok read
  obtain ⟨⟨parent, last⟩, found, wrote⟩ := exists_of_bind_eq_ok wrote
  cases last with
  | none => cases wrote
  | some name =>
    dsimp only at wrote
    obtain ⟨free, wrote⟩ := not_of_guard_eq_ok wrote
    cases wrote
    rw [Bool.or_eq_true, not_or, decide_eq_true_iff, Bool.not_eq_true] at free
    exact ⟨free.2, parent, name, read, leads_of_target found, free.1, rfl⟩

/-- **A file that is written is there**, -/
theorem stored_of_writeFile (wrote : tree.writeFile text data = .ok next) :
    next.Stored text data := by
  obtain ⟨plain, parent, name, read, leads, free, rfl⟩ := writeFile_eq_ok wrote
  refine ⟨plain, parent, name, read, leads.of_keeps (keeps_put leads.directory free), ?_⟩
  rw [node?_put tree (List.concat_ne_nil name parent), if_pos rfl]

/-- ... and stays there when a file of another name is written. -/
theorem Stored.writeFile (stored : tree.Stored text data) {other : String} {more : Bytes}
    (wrote : tree.writeFile other more = .ok next)
    (apart : (Path.ofText text).getLast? ≠ (Path.ofText other).getLast?) :
    next.Stored text data := by
  obtain ⟨-, into, called, -, goes, free, rfl⟩ := writeFile_eq_ok wrote
  obtain ⟨plain, parent, name, read, leads, there⟩ := stored
  refine ⟨plain, parent, name, read, leads.of_keeps (keeps_put goes.directory free), ?_⟩
  rw [node?_put tree (List.concat_ne_nil called into), if_neg]
  · exact there
  · intro same
    obtain ⟨-, sameName⟩ := List.append_inj' same rfl
    cases sameName
    exact apart (leads.last.trans goes.last.symm)

/-- The path of a file leads to an entry of its last name, -/
theorem Stored.exists_locate (stored : tree.Stored text data) :
    ∃ place, tree.locate text = .ok place ∧ tree.node? place = some (.file data) ∧
      place.getLast? = (Path.ofText text).getLast? := by
  obtain ⟨plain, parent, name, read, leads, there⟩ := stored
  refine ⟨parent ++ [name], ?_, there, ?_⟩
  · rw [locate_eq_resolve read plain]
    exact leads.resolve (by rw [there]; rfl)
  · rw [leads.last, List.getLast?_concat]

/-- ... which is what is read there. -/
theorem Stored.contents (stored : tree.Stored text data) : tree.contents text = .ok data := by
  obtain ⟨place, located, there, -⟩ := stored.exists_locate
  rw [FileTree.contents, located]
  dsimp only [bind, Except.bind]
  rw [there]
  rfl

end MeshControl.FileTree
