import MeshControl.Ordered.SortKey

/-!
# Finite maps in ascending key order

`OrderedMap κ ν` is a list of entries whose keys strictly ascend. The order is part of the
type, so two maps with the same look-ups are equal (`OrderedMap.ext_get?`), and what a map
lists does not depend on the order in which it was built.
-/

namespace MeshControl

/-- A finite map whose entries are listed by ascending key. -/
structure OrderedMap (κ ν : Type) [SortKey κ] where
  entries : List (κ × ν)
  ascending : entries.Pairwise fun a b => SortKey.before a.1 b.1

namespace OrderedMap

variable {κ ν : Type} [SortKey κ]

instance [DecidableEq κ] [DecidableEq ν] : DecidableEq (OrderedMap κ ν) := fun a b =>
  if h : a.entries = b.entries then .isTrue (by cases a; cases b; cases h; rfl)
  else .isFalse fun e => h (e ▸ rfl)

/-- The map with no entries. -/
def empty : OrderedMap κ ν := ⟨[], .nil⟩

instance : Inhabited (OrderedMap κ ν) := ⟨empty⟩

instance : EmptyCollection (OrderedMap κ ν) := ⟨empty⟩

/-- Entry list after setting `key` to `value`. -/
def insertEntry (key : κ) (value : ν) : List (κ × ν) → List (κ × ν)
  | [] => [(key, value)]
  | entry :: rest =>
    if SortKey.before key entry.1 then (key, value) :: entry :: rest
    else if SortKey.before entry.1 key then entry :: insertEntry key value rest
    else (key, value) :: rest

theorem mem_insertEntry {key : κ} {value : ν} {entry : κ × ν} :
    ∀ {entries : List (κ × ν)}, entry ∈ insertEntry key value entries →
      entry = (key, value) ∨ entry ∈ entries
  | [], h => .inl (by simpa [insertEntry] using h)
  | head :: rest, h => by
    unfold insertEntry at h
    split at h
    · simpa using h
    · split at h
      · rcases List.mem_cons.1 h with h | h
        · exact .inr (by simp [h])
        · rcases mem_insertEntry h with h | h
          · exact .inl h
          · exact .inr (by simp [h])
      · rcases List.mem_cons.1 h with h | h
        · exact .inl h
        · exact .inr (by simp [h])

theorem insertEntry_ascending (key : κ) (value : ν) :
    ∀ {entries : List (κ × ν)}, entries.Pairwise (fun a b => SortKey.before a.1 b.1) →
      (insertEntry key value entries).Pairwise fun a b => SortKey.before a.1 b.1
  | [], _ => by simp [insertEntry]
  | head :: rest, h => by
    obtain ⟨below, tail⟩ := List.pairwise_cons.1 h
    unfold insertEntry
    split
    · rename_i first
      refine List.pairwise_cons.2 ⟨fun e he => ?_, h⟩
      rcases List.mem_cons.1 he with rfl | he
      · exact first
      · exact SortKey.trans first (below e he)
    · split
      · rename_i later
        refine List.pairwise_cons.2 ⟨fun e he => ?_, insertEntry_ascending key value tail⟩
        rcases mem_insertEntry he with rfl | he
        · exact later
        · exact below e he
      · rename_i notFirst notLater
        have e : key = head.1 := SortKey.total notFirst notLater
        refine List.pairwise_cons.2 ⟨fun entry he => ?_, tail⟩
        simpa [e] using below entry he

/-- Set `key` to `value`, replacing any earlier value. -/
def insert (map : OrderedMap κ ν) (key : κ) (value : ν) : OrderedMap κ ν :=
  ⟨insertEntry key value map.entries, insertEntry_ascending key value map.ascending⟩

/-- The value of the first entry with `key`. -/
def lookupEntry [DecidableEq κ] (key : κ) : List (κ × ν) → Option ν
  | [] => none
  | entry :: rest => if entry.1 = key then some entry.2 else lookupEntry key rest

/-- The value at `key`. -/
def get? [DecidableEq κ] (map : OrderedMap κ ν) (key : κ) : Option ν :=
  lookupEntry key map.entries

/-- True if `key` has a value. -/
def contains [DecidableEq κ] (map : OrderedMap κ ν) (key : κ) : Bool :=
  (map.get? key).isSome

/-- Forget the value at `key`. -/
def erase [DecidableEq κ] (map : OrderedMap κ ν) (key : κ) : OrderedMap κ ν :=
  ⟨map.entries.filter fun entry => entry.1 ≠ key, map.ascending.filter _⟩

/-- Keys in ascending order. -/
def keys (map : OrderedMap κ ν) : List κ := map.entries.map Prod.fst

/-- Values in the order of their keys. -/
def values (map : OrderedMap κ ν) : List ν := map.entries.map Prod.snd

/-- Number of entries. -/
def size (map : OrderedMap κ ν) : Nat := map.entries.length

/-- True if there is no entry. -/
def isEmpty (map : OrderedMap κ ν) : Bool := map.entries.isEmpty

/-- The entries at `key` and after it. -/
def entriesFrom (map : OrderedMap κ ν) (key : κ) : List (κ × ν) :=
  map.entries.filter fun entry => ¬ SortKey.before entry.1 key

/-- The least key. -/
def firstKey? (map : OrderedMap κ ν) : Option κ := map.entries.head?.map Prod.fst

/-- The greatest key. -/
def lastKey? (map : OrderedMap κ ν) : Option κ := map.entries.getLast?.map Prod.fst

/-- Insert every pair in turn; the last value of a repeated key stays. -/
def insertAll (map : OrderedMap κ ν) (pairs : List (κ × ν)) : OrderedMap κ ν :=
  pairs.foldl (fun map pair => map.insert pair.1 pair.2) map

/-- The map of a list of pairs; the last value of a repeated key stays. -/
def ofList (pairs : List (κ × ν)) : OrderedMap κ ν := empty.insertAll pairs

section Lookup

variable [DecidableEq κ]

@[simp] theorem get?_empty (key : κ) : (empty : OrderedMap κ ν).get? key = none := rfl

theorem lookupEntry_insertEntry (key probe : κ) (value : ν) (entries : List (κ × ν)) :
    lookupEntry probe (insertEntry key value entries) =
      if key = probe then some value else lookupEntry probe entries := by
  induction entries with
  | nil => simp [insertEntry, lookupEntry]
  | cons head rest ih =>
    unfold insertEntry
    split
    · simp [lookupEntry]
    · split
      · rename_i later
        have hne := SortKey.ne later
        by_cases hp : head.1 = probe
        · have : key ≠ probe := fun e => hne (hp.trans e.symm)
          simp [lookupEntry, hp, this]
        · simp [lookupEntry, hp, ih]
      · rename_i notFirst notLater
        have e : key = head.1 := SortKey.total notFirst notLater
        by_cases hp : key = probe
        · simp [lookupEntry, hp]
        · have : ¬ head.1 = probe := e ▸ hp
          simp [lookupEntry, hp, this]

/-- Reading back after a write. -/
theorem get?_insert (map : OrderedMap κ ν) (key probe : κ) (value : ν) :
    (map.insert key value).get? probe = if key = probe then some value else map.get? probe :=
  lookupEntry_insertEntry key probe value map.entries

@[simp] theorem get?_insert_self (map : OrderedMap κ ν) (key : κ) (value : ν) :
    (map.insert key value).get? key = some value := by
  simp [get?_insert]

theorem get?_insert_ne (map : OrderedMap κ ν) {key probe : κ} (value : ν) (h : key ≠ probe) :
    (map.insert key value).get? probe = map.get? probe := by
  simp [get?_insert, h]

omit [SortKey κ] in
theorem lookupEntry_filter_ne (key probe : κ) (entries : List (κ × ν)) :
    lookupEntry probe (entries.filter fun entry => entry.1 ≠ key) =
      if key = probe then none else lookupEntry probe entries := by
  induction entries with
  | nil => simp [lookupEntry]
  | cons head rest ih =>
    by_cases hk : head.1 = key
    · by_cases hp : key = probe <;> simp_all [lookupEntry]
    · by_cases hp : head.1 = probe <;> simp_all [lookupEntry]
      intro e
      exact (hk e.symm).elim

/-- Reading back after forgetting a key. -/
theorem get?_erase (map : OrderedMap κ ν) (key probe : κ) :
    (map.erase key).get? probe = if key = probe then none else map.get? probe :=
  lookupEntry_filter_ne key probe map.entries

omit [SortKey κ] in
theorem mem_of_lookupEntry {key : κ} {value : ν} :
    ∀ {entries : List (κ × ν)}, lookupEntry key entries = some value → (key, value) ∈ entries
  | [], h => by simp [lookupEntry] at h
  | head :: rest, h => by
    unfold lookupEntry at h
    split at h
    · rename_i e
      cases h
      simp [← e]
    · exact List.mem_cons_of_mem _ (mem_of_lookupEntry h)

/-- In an ascending list an entry is what its key looks up. -/
theorem lookupEntry_of_mem {key : κ} {value : ν} :
    ∀ {entries : List (κ × ν)}, entries.Pairwise (fun a b => SortKey.before a.1 b.1) →
      (key, value) ∈ entries → lookupEntry key entries = some value
  | [], _, h => by simp at h
  | head :: rest, asc, h => by
    obtain ⟨below, tail⟩ := List.pairwise_cons.1 asc
    unfold lookupEntry
    rcases List.mem_cons.1 h with rfl | h
    · simp
    · have : head.1 ≠ key := SortKey.ne (below _ h)
      simp [this, lookupEntry_of_mem tail h]

/-- An entry is listed exactly when its key looks it up. -/
theorem mem_entries_iff (map : OrderedMap κ ν) (key : κ) (value : ν) :
    (key, value) ∈ map.entries ↔ map.get? key = some value :=
  ⟨lookupEntry_of_mem map.ascending, mem_of_lookupEntry⟩

omit [DecidableEq κ] in
/-- Ascending lists with the same members are equal. -/
theorem eq_of_ascending {as bs : List (κ × ν)}
    (ha : as.Pairwise fun a b => SortKey.before a.1 b.1)
    (hb : bs.Pairwise fun a b => SortKey.before a.1 b.1) (h : ∀ e, e ∈ as ↔ e ∈ bs) :
    as = bs := by
  induction as generalizing bs with
  | nil =>
    cases bs with
    | nil => rfl
    | cons b bs => exact absurd ((h b).2 (by simp)) (by simp)
  | cons a as ih =>
    cases bs with
    | nil => exact absurd ((h a).1 (by simp)) (by simp)
    | cons b bs =>
      obtain ⟨belowA, tailA⟩ := List.pairwise_cons.1 ha
      obtain ⟨belowB, tailB⟩ := List.pairwise_cons.1 hb
      have hab : a = b := by
        rcases List.mem_cons.1 ((h a).1 (by simp)) with e | inB
        · exact e
        · rcases List.mem_cons.1 ((h b).2 (by simp)) with e | inA
          · exact e.symm
          · exact absurd (SortKey.trans (belowB a inB) (belowA b inA)) (SortKey.irrefl _)
      subst hab
      rw [ih tailA tailB fun e => ⟨fun he => ?_, fun he => ?_⟩]
      · rcases List.mem_cons.1 ((h e).1 (List.mem_cons_of_mem _ he)) with rfl | he'
        · exact absurd (belowA _ he) (SortKey.irrefl _)
        · exact he'
      · rcases List.mem_cons.1 ((h e).2 (List.mem_cons_of_mem _ he)) with rfl | he'
        · exact absurd (belowB _ he) (SortKey.irrefl _)
        · exact he'

/-- Maps that look up the same are the same. -/
theorem ext_get? {a b : OrderedMap κ ν} (h : ∀ key, a.get? key = b.get? key) : a = b := by
  have e : a.entries = b.entries :=
    eq_of_ascending a.ascending b.ascending fun (key, value) => by
      rw [mem_entries_iff, mem_entries_iff, h key]
  cases a; cases b; cases e; rfl

end Lookup

end OrderedMap

end MeshControl
