import Mathlib.Data.List.Perm.Subperm
import MeshControl.Proofs.Archive.Making
import MeshControl.Proofs.Archive.Naming
import MeshControl.Proofs.Ordered.Insertion

/-!
# The search for a free name

Names with different numbers lead to different entries, and a tree has only so many. So the search
for a free name ends by itself after no more names than there are entries
(`exists_firstFree`), and how far it may go does not matter (`FirstFree.countTaken_eq`). The folder
that is then made has the plain name or the least number that is free, and everything else stays as
it was (`uniqueFolder_effect`).
-/

namespace MeshControl

namespace FileTree

variable {tree : FileTree} {path place : Path} {text name : String}

/-- The paths of all entries, and of the top. -/
def places (tree : FileTree) : List Path := [] :: tree.entries.keys

theorem mem_places_iff : place ∈ tree.places ↔ (tree.node? place).isSome = true := by
  rw [places, List.mem_cons, OrderedMap.mem_keys_iff, Option.isSome_iff_exists]
  cases place with
  | nil => simp [node?]
  | cons first rest => simp [node?]

/-- A path leads to an entry of its last name. -/
theorem getLast?_of_resolve (resolved : tree.resolve path = .ok place)
    (last : path.getLast? = some name) (plain : name ≠ "." ∧ name ≠ "..") :
    place.getLast? = some name ∧ place ∈ tree.places := by
  obtain ⟨above, rfl⟩ := List.getLast?_eq_some_iff.1 last
  rw [resolve, List.foldlM_append] at resolved
  obtain ⟨middle, -, resolved⟩ := exists_of_bind_eq_ok resolved
  rw [List.foldlM_cons] at resolved
  obtain ⟨reached, followed, ended⟩ := exists_of_bind_eq_ok resolved
  cases ended
  cases follow_eq_ok_iff.1 followed with
  | here => exact absurd rfl plain.1
  | up => exact absurd rfl plain.2
  | down directory plain short there =>
    exact ⟨List.getLast?_concat, mem_places_iff.2 there⟩

/-- Every step up in a path leads out of a directory that is there. -/
def Traces (tree : FileTree) (text : String) : Prop :=
  ∃ above below, Path.ofText text = above ++ below ∧ (tree.resolve above).isOk = true ∧ ".." ∉ below

theorem traces_of_not_mem (tree : FileTree) (down : ".." ∉ Path.ofText text) : tree.Traces text :=
  ⟨[], Path.ofText text, rfl, rfl, down⟩

/-- **A path that is new leads to an entry that is new**, unless it goes up out of a directory that
was missing. -/
theorem locate_of_there {next : FileTree} {parent : String} (grows : tree.Grows next)
    (grounded : tree.Grounded) (traces : tree.Traces parent) (filled : name ≠ "")
    (flat : '/' ∉ name.toList) (notUp : name ≠ "..")
    (located : next.locate (Path.join parent name) = .ok place)
    (there : (tree.node? place).isSome = true) :
    tree.locate (Path.join parent name) = .ok place := by
  obtain ⟨above, below, parted, reached, down⟩ := traces
  obtain ⟨path, read, -⟩ := exists_of_bind_eq_ok located
  obtain rfl := pathOf_eq_ok read
  have plain := Path.endsInSlash_join parent filled flat
  rw [locate_eq_resolve read plain, Path.ofText_join parent filled flat, parted,
    List.append_assoc] at located ⊢
  cases start : tree.resolve above with
  | error fault =>
    rw [start] at reached
    cases reached
  | ok middle =>
    rw [resolve_append (grows.keeps.resolve start)] at located
    rw [resolve_append start]
    have steps : ".." ∉ below ++ [name] := by simp [down, Ne.symm notUp]
    exact (grows.walk_of_there grounded steps located there).1

end FileTree

namespace Archive

variable {tree : FileTree} {parent name : String} {taken : Nat}

/-! ## Names with numbers -/

/-- What the number of a name adds to it. -/
def mark (count : Nat) : String := "_" ++ toString count

theorem candidate_succ (name : String) (count : Nat) :
    candidate name (count + 1) = name ++ mark (count + 1) := by
  rw [candidate, if_neg (Nat.succ_ne_zero count), mark, ← String.append_assoc]
  rfl

theorem toList_mark (count : Nat) : (mark count).toList = '_' :: (toString count).toList := by
  rw [mark, String.toList_append]
  rfl

theorem mark_inj {count count' : Nat} (same : mark count = mark count') : count = count' := by
  have read := congrArg String.toList same
  rw [toList_mark, toList_mark, List.cons_inj_right] at read
  exact numeral_inj read

theorem mark_ne_empty (count : Nat) : mark count ≠ "" := by
  intro nothing
  have read := congrArg String.toList nothing
  rw [toList_mark] at read
  cases read

theorem slash_not_mem_mark (count : Nat) : '/' ∉ (mark count).toList := by
  rw [toList_mark, List.mem_cons, not_or]
  exact ⟨by decide, not_mem_numeral count (by decide)⟩

/-- A name that ends in a number is not made of dots. -/
theorem append_mark_plain (text : String) (count : Nat) :
    text ++ mark count ≠ "." ∧ text ++ mark count ≠ ".." := by
  have member : '_' ∈ (text ++ mark count).toList := by
    rw [String.toList_append, toList_mark]
    exact List.mem_append_right _ (List.mem_cons_self ..)
  constructor
  · intro same
    rw [same] at member
    revert member
    decide
  · intro same
    rw [same] at member
    revert member
    decide

/-- A name that is taken is the last name of an entry, with its number at the end. -/
theorem exists_lastName_taken (tree : FileTree) (parent name : String) :
    ∃ last, ∀ count, tree.pathExists (Path.join parent (candidate name (count + 1))) = true →
      some (last ++ mark (count + 1)) ∈ tree.places.map List.getLast? := by
  obtain ⟨before, joined⟩ := Path.exists_join_append parent name
  obtain ⟨last, named⟩ := Path.exists_getLast?_ofText before
  refine ⟨last, fun count found => ?_⟩
  have below : Path.isAbsolute (mark (count + 1)) = false := by
    rw [Path.isAbsolute, toList_mark]
    rfl
  have flat := slash_not_mem_mark (count + 1)
  have filled := mark_ne_empty (count + 1)
  rw [candidate_succ, joined _ below, FileTree.pathExists] at found
  cases located : tree.locate (before ++ mark (count + 1)) with
  | error fault =>
    rw [located] at found
    cases found
  | ok place =>
    obtain ⟨path, read, -⟩ := exists_of_bind_eq_ok located
    obtain rfl := FileTree.pathOf_eq_ok read
    rw [FileTree.locate_eq_resolve read (Path.endsInSlash_append before filled flat)] at located
    obtain ⟨ends, there⟩ := FileTree.getLast?_of_resolve located (named _ filled flat)
      (append_mark_plain last (count + 1))
    exact List.mem_map.2 ⟨place, there, ends⟩

/-- **There are more entries than numbers taken in a row**: each number has an entry of its own, and
the top has none. -/
theorem lt_length_places {count : Nat} (all : ∀ fewer < count,
    tree.pathExists (Path.join parent (candidate name (fewer + 1))) = true) :
    count < tree.places.length := by
  obtain ⟨last, named⟩ := exists_lastName_taken tree parent name
  let names : List (Option String) :=
    none :: (List.range count).map fun fewer => some (last ++ mark (fewer + 1))
  have distinct : names.Nodup := by
    refine List.nodup_cons.2 ⟨by simp, ?_⟩
    refine List.pairwise_map.2 (List.nodup_range.imp fun different same => ?_)
    have numbers := mark_inj ((String.append_right_inj last).1 (Option.some.inj same))
    omega
  have listed : names ⊆ tree.places.map List.getLast? := by
    intro ends member
    rcases List.mem_cons.1 member with rfl | member
    · exact List.mem_map.2 ⟨[], FileTree.mem_places_iff.2 rfl, rfl⟩
    · obtain ⟨fewer, below, rfl⟩ := List.mem_map.1 member
      exact named fewer (all fewer (List.mem_range.1 below))
  have shorter := (distinct.subperm listed).length_le
  simp only [names, List.length_cons, List.length_map, List.length_range] at shorter
  omega

/-! ## The search -/

/-- The first names are taken, and the next one is free. -/
structure FirstFree (tree : FileTree) (parent name : String) (taken : Nat) : Prop where
  earlier : ∀ fewer < taken, tree.pathExists (Path.join parent (candidate name fewer)) = true
  free : tree.pathExists (Path.join parent (candidate name taken)) = false

/-- **The search** passes over names that are taken, and stops at one that is free unless it has
come to its limit. -/
theorem countTaken_spec (tree : FileTree) (parent name : String) (start limit : Nat) :
    let found := countTaken tree parent name start limit
    (start ≤ found ∧ found ≤ start + limit) ∧
      (∀ count, start ≤ count → count < found →
        tree.pathExists (Path.join parent (candidate name count)) = true) ∧
      (found < start + limit →
        tree.pathExists (Path.join parent (candidate name found)) = false) := by
  induction limit generalizing start with
  | zero =>
    rw [countTaken]
    exact ⟨by omega, by omega, by omega⟩
  | succ limit ih =>
    rw [countTaken]
    split
    · rename_i here
      obtain ⟨⟨low, high⟩, passed, stopped⟩ := ih (start + 1)
      refine ⟨by omega, fun count from_ below => ?_, fun early => stopped (by omega)⟩
      rcases Nat.eq_or_lt_of_le from_ with rfl | later
      · exact here
      · exact passed count later below
    · rename_i free
      exact ⟨by omega, by omega, fun _ => Bool.not_eq_true _ ▸ free⟩

/-- A search ends by itself. Where its limit lies does not matter. -/
theorem FirstFree.countTaken_eq (first : FirstFree tree parent name taken) {limit : Nat}
    (enough : taken ≤ limit) : countTaken tree parent name 0 limit = taken := by
  obtain ⟨⟨-, high⟩, passed, stopped⟩ := countTaken_spec tree parent name 0 limit
  rcases Nat.lt_trichotomy (countTaken tree parent name 0 limit) taken with less | same | more
  · have free := stopped (by omega)
    rw [first.earlier _ less] at free
    cases free
  · exact same
  · have found := passed taken (Nat.zero_le _) more
    rw [first.free] at found
    cases found

/-- **There is a first free name**, and the numbers up to it are no more than there are entries. -/
theorem exists_firstFree (tree : FileTree) (parent name : String) :
    ∃ taken, FirstFree tree parent name taken ∧ taken ≤ tree.places.length ∧
      freeName tree parent name = candidate name taken := by
  have size : tree.places.length = tree.entries.size + 1 := by
    rw [FileTree.places, List.length_cons, OrderedMap.keys, List.length_map]
    rfl
  obtain ⟨⟨-, high⟩, passed, stopped⟩ :=
    countTaken_spec tree parent name 0 (tree.entries.size + 2)
  rw [freeName]
  generalize countTaken tree parent name 0 (tree.entries.size + 2) = taken at high passed stopped ⊢
  have bound : taken - 1 < tree.places.length :=
    lt_length_places fun fewer below => passed (fewer + 1) (Nat.zero_le _) (by omega)
  have first : FirstFree tree parent name taken :=
    ⟨fun fewer below => passed fewer (Nat.zero_le _) below, stopped (by omega)⟩
  exact ⟨taken, first, by omega, rfl⟩

/-! ## The folder -/

/-- **Making a folder** leaves every entry as it was. Either the path of the first free name leads to
the folder now, or the disk failed. -/
theorem uniqueFolder_effect (tree : FileTree) (parent name : String) :
    let path := Path.join parent (freeName tree parent name)
    let made := uniqueFolder parent name tree
    tree.Grows made.2 ∧
      ((made.1 = .ok path ∧
          ∃ place, made.2.locate path = .ok place ∧ made.2.node? place = some .directory) ∨
        ∃ fault, (tree.makeDirectories path).1 = .error fault ∧
          made.1 = .error (.operation (.reportDirectory path fault.message))) := by
  intro path made
  obtain ⟨grows, leads⟩ := tree.makeDirectories_effect path
  have same : made = uniqueFolder parent name tree := rfl
  rw [uniqueFolder] at same
  rcases making : tree.makeDirectories path with ⟨result, after⟩
  rw [making] at grows leads
  rw [show tree.makeDirectories (Path.join parent (freeName tree parent name)) = _ from making]
    at same
  rw [same]
  cases result with
  | error fault => exact ⟨grows, .inr ⟨fault, rfl, rfl⟩⟩
  | ok _ => exact ⟨grows, .inl ⟨rfl, leads rfl⟩⟩

end Archive

end MeshControl
