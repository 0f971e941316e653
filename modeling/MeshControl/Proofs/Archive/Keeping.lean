import MeshControl.Archive.FileTree
import MeshControl.Proofs.Outcome

/-!
# What stays on a disk

Nothing here removes anything from a tree. Writing a file keeps every entry (`Keeps`) and making a
directory keeps every entry as it is (`Grows`), so a path that leads somewhere still leads there
(`Keeps.locate`). The converse needs a path that does not go up: if the entry it leads to was there
before, then so was the way to it (`Grows.walk_of_there`).
-/

namespace MeshControl.FileTree

variable {tree before after : FileTree} {path place start reached parent : Path}
  {text name : String}

/-- Every entry lies in a directory. -/
def Grounded (tree : FileTree) : Prop :=
  ∀ place name, (tree.node? (place ++ [name])).isSome = true → tree.node? place = some .directory

/-- What is in the one tree is in the other, and directories stay directories. -/
structure Keeps (before after : FileTree) : Prop where
  there : ∀ place, (before.node? place).isSome = true → (after.node? place).isSome = true
  directories : ∀ place, before.node? place = some .directory →
    after.node? place = some .directory
  grounded : before.Grounded → after.Grounded

/-- What is in the one tree is in the other as it was. -/
structure Grows (before after : FileTree) : Prop where
  same : ∀ place node, before.node? place = some node → after.node? place = some node
  grounded : before.Grounded → after.Grounded

theorem Keeps.refl (tree : FileTree) : tree.Keeps tree := ⟨fun _ => id, fun _ => id, id⟩

theorem Keeps.trans {middle : FileTree} (early : before.Keeps middle)
    (late : middle.Keeps after) : before.Keeps after where
  there place found := late.there place (early.there place found)
  directories place found := late.directories place (early.directories place found)
  grounded lies := late.grounded (early.grounded lies)

theorem Grows.refl (tree : FileTree) : tree.Grows tree := ⟨fun _ _ => id, id⟩

theorem Grows.trans {middle : FileTree} (early : before.Grows middle)
    (late : middle.Grows after) : before.Grows after where
  same place node found := late.same place node (early.same place node found)
  grounded lies := late.grounded (early.grounded lies)

theorem Grows.keeps (grows : before.Grows after) : before.Keeps after where
  there place found := by
    obtain ⟨node, found⟩ := Option.isSome_iff_exists.1 found
    exact Option.isSome_iff_exists.2 ⟨node, grows.same place node found⟩
  directories place := grows.same place .directory
  grounded := grows.grounded

/-! ## New entries -/

theorem node?_insert (tree : FileTree) (below : place ≠ []) (node : FileNode) (other : Path) :
    node? ⟨tree.entries.insert place node⟩ other =
      if place = other then some node else tree.node? other := by
  cases other with
  | nil => rw [if_neg below, node?, node?]
  | cons first rest => exact OrderedMap.get?_insert ..

/-- A directory may take a new entry, and a file may be replaced. -/
theorem Grounded.insert (grounded : tree.Grounded) {node : FileNode}
    (directory : tree.node? parent = some .directory)
    (fits : tree.node? (parent ++ [name]) = some .directory → node = .directory) :
    Grounded ⟨tree.entries.insert (parent ++ [name]) node⟩ := by
  intro above inner there
  have below : parent ++ [name] ≠ [] := List.concat_ne_nil name parent
  rw [node?_insert tree below] at there ⊢
  by_cases deeper : parent ++ [name] = above
  · -- What lies in the new entry was there, so the entry was a directory and is one.
    subst deeper
    rw [if_neg (by simp)] at there
    rw [if_pos rfl, fits (grounded _ _ there)]
  · rw [if_neg deeper]
    by_cases same : parent ++ [name] = above ++ [inner]
    · obtain rfl := (List.append_inj' same rfl).1
      exact directory
    · rw [if_neg same] at there
      exact grounded above inner there

theorem grounded_of_entries
    (lies : ∀ entry ∈ tree.entries.entries, tree.node? entry.1.dropLast = some .directory) :
    tree.Grounded := by
  intro place name there
  obtain ⟨node, found⟩ := Option.isSome_iff_exists.1 there
  have listed : tree.entries.get? (place ++ [name]) = some node := by
    cases place with
    | nil => exact found
    | cons => exact found
  have inside := lies _ ((tree.entries.mem_entries_iff _ node).2 listed)
  rwa [List.dropLast_concat] at inside

theorem grounded_host : host.Grounded := grounded_of_entries (by decide)

/-! ## The way to an entry -/

/-- How a name leads from a directory to an entry. -/
inductive Follows (tree : FileTree) (start : Path) : String → Path → Prop where
  | here (directory : tree.node? start = some .directory) : Follows tree start "." start
  | up (directory : tree.node? start = some .directory) : Follows tree start ".." start.dropLast
  | down {name : String} (directory : tree.node? start = some .directory)
    (plain : name ≠ "." ∧ name ≠ "..") (short : name.utf8ByteSize ≤ Path.nameLimit)
    (there : (tree.node? (start ++ [name])).isSome = true) :
    Follows tree start name (start ++ [name])

theorem follow_eq_ok_iff :
    tree.follow start name = .ok reached ↔ tree.Follows start name reached := by
  unfold follow
  constructor
  · intro followed
    split at followed
    · cases followed
    · cases followed
    · rename_i directory
      split at followed
      · subst name
        cases followed
        exact .here directory
      split at followed
      · subst name
        cases followed
        exact .up directory
      split at followed
      · cases followed
      split at followed
      · rename_i dot dots long there
        cases followed
        exact .down directory ⟨dot, dots⟩ (Nat.not_lt.1 long) there
      · cases followed
  · intro follows
    cases follows with
    | here directory => rw [directory]; rfl
    | up directory => rw [directory]; rfl
    | down directory plain short there =>
      rw [directory]
      dsimp only
      rw [if_neg plain.1, if_neg plain.2, if_neg (Nat.not_lt.2 short), if_pos there]

/-- A path goes on from where its beginning leads. -/
theorem resolve_append {above : Path} (resolved : tree.resolve above = .ok place) (below : Path) :
    tree.resolve (above ++ below) = below.foldlM tree.follow place := by
  rw [resolve] at resolved ⊢
  rw [List.foldlM_append, resolved]
  rfl

theorem locate_eq_resolve (read : pathOf text = .ok path)
    (plain : Path.endsInSlash text = false) : tree.locate text = tree.resolve path := by
  rw [locate, read, plain]
  rfl

theorem Follows.of_keeps (follows : before.Follows start name reached)
    (keeps : before.Keeps after) : after.Follows start name reached := by
  cases follows with
  | here directory => exact .here (keeps.directories _ directory)
  | up directory => exact .up (keeps.directories _ directory)
  | down directory plain short there =>
    exact .down (keeps.directories _ directory) plain short (keeps.there _ there)

/-- **Paths lead where they led.** -/
theorem Keeps.walk (keeps : before.Keeps after) {names : List String}
    (walked : names.foldlM before.follow start = .ok reached) :
    names.foldlM after.follow start = .ok reached := by
  induction names generalizing start with
  | nil => exact walked
  | cons name rest ih =>
    rw [List.foldlM_cons] at walked ⊢
    obtain ⟨middle, followed, later⟩ := exists_of_bind_eq_ok walked
    rw [follow_eq_ok_iff.2 ((follow_eq_ok_iff.1 followed).of_keeps keeps)]
    exact ih later

theorem Keeps.resolve (keeps : before.Keeps after) (resolved : before.resolve path = .ok place) :
    after.resolve path = .ok place :=
  keeps.walk resolved

theorem Keeps.locate (keeps : before.Keeps after) (located : before.locate text = .ok place) :
    after.locate text = .ok place := by
  obtain ⟨path, read, resolved⟩ := exists_of_bind_eq_ok located
  rw [FileTree.locate, read]
  exact keeps.resolve resolved

/-- **A way that does not go up** was there if what it leads to was. -/
theorem Grows.walk_of_there (grows : before.Grows after) (grounded : before.Grounded)
    {names : List String} (down : ".." ∉ names)
    (walked : names.foldlM after.follow start = .ok reached)
    (there : (before.node? reached).isSome = true) :
    names.foldlM before.follow start = .ok reached ∧ (before.node? start).isSome = true := by
  induction names generalizing start with
  | nil =>
    cases walked
    exact ⟨rfl, there⟩
  | cons name rest ih =>
    rw [List.mem_cons, not_or] at down
    rw [List.foldlM_cons] at walked ⊢
    obtain ⟨middle, followed, later⟩ := exists_of_bind_eq_ok walked
    obtain ⟨rest, held⟩ := ih down.2 later
    have step : before.Follows start name middle := by
      cases follow_eq_ok_iff.1 followed with
      | here directory =>
        obtain ⟨node, found⟩ := Option.isSome_iff_exists.1 held
        have same := grows.same start node found
        rw [directory] at same
        cases same
        exact .here found
      | up => exact absurd rfl down.1
      | down directory plain short => exact .down (grounded _ _ held) plain short held
    rw [follow_eq_ok_iff.2 step]
    refine ⟨rest, ?_⟩
    cases step with
    | here directory => rw [directory]; rfl
    | up directory => rw [directory]; rfl
    | down directory => rw [directory]; rfl

end MeshControl.FileTree
