import MeshControl.Ordered.Map

/-!
# Maps built from lists of pairs

A map that many pairs were put into looks up what a pair says, if no two pairs have one key.
-/

namespace MeshControl.OrderedMap

variable {κ ν : Type} [SortKey κ]

theorem keys_ascending (map : OrderedMap κ ν) : map.keys.Pairwise fun a b => SortKey.before a b :=
  List.pairwise_map.2 map.ascending

/-- No key is listed twice. -/
theorem keys_nodup (map : OrderedMap κ ν) : map.keys.Nodup :=
  map.keys_ascending.imp fun before => SortKey.ne before

variable [DecidableEq κ]

/-- Setting a key to the value that it has changes nothing. -/
theorem insert_of_get? (map : OrderedMap κ ν) {key : κ} {value : ν}
    (found : map.get? key = some value) : map.insert key value = map := by
  apply ext_get?
  intro probe
  rw [get?_insert]
  split
  · rename_i same
    rw [← same, found]
  · rfl

theorem get?_insertAll_of_not_mem (map : OrderedMap κ ν) {pairs : List (κ × ν)} {key : κ}
    (absent : key ∉ pairs.map Prod.fst) : (map.insertAll pairs).get? key = map.get? key := by
  induction pairs generalizing map with
  | nil => rfl
  | cons pair pairs ih =>
    rw [List.map_cons, List.mem_cons, not_or] at absent
    have rest := ih (map.insert pair.1 pair.2) absent.2
    rw [get?_insert_ne _ _ (Ne.symm absent.1)] at rest
    exact rest

theorem get?_insertAll_of_mem (map : OrderedMap κ ν) {pairs : List (κ × ν)}
    (distinct : (pairs.map Prod.fst).Nodup) {key : κ} {value : ν}
    (member : (key, value) ∈ pairs) : (map.insertAll pairs).get? key = some value := by
  induction pairs generalizing map with
  | nil => cases member
  | cons pair pairs ih =>
    rw [List.map_cons, List.nodup_cons] at distinct
    rcases List.mem_cons.1 member with rfl | later
    · have rest := get?_insertAll_of_not_mem (map.insert key value) distinct.1
      rw [get?_insert_self] at rest
      exact rest
    · exact ih (map.insert pair.1 pair.2) distinct.2 later

/-- Keys are what has a value. -/
theorem mem_keys_iff (map : OrderedMap κ ν) (key : κ) :
    key ∈ map.keys ↔ ∃ value, map.get? key = some value := by
  rw [keys, List.mem_map]
  constructor
  · rintro ⟨⟨key, value⟩, member, rfl⟩
    exact ⟨value, (map.mem_entries_iff key value).1 member⟩
  · rintro ⟨value, found⟩
    exact ⟨(key, value), (map.mem_entries_iff key value).2 found, rfl⟩

/-- Values are what keys look up. -/
theorem mem_values_iff (map : OrderedMap κ ν) (value : ν) :
    value ∈ map.values ↔ ∃ key, map.get? key = some value := by
  rw [values, List.mem_map]
  constructor
  · rintro ⟨⟨key, found⟩, member, rfl⟩
    exact ⟨key, (map.mem_entries_iff key found).1 member⟩
  · rintro ⟨key, found⟩
    exact ⟨(key, value), (map.mem_entries_iff key value).2 found, rfl⟩

end MeshControl.OrderedMap
