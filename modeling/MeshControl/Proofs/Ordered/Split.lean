import MeshControl.Ordered.Map

/-!
# Cutting a map at a key

The entries of a map from a key of it on are the end of its list, and those before that key are
the rest.
-/

namespace MeshControl

theorem before_byte (a b : UInt8) : SortKey.before a b = decide (a < b) := by
  apply decide_eq_decide.2
  exact UInt8.lt_iff_toNat_lt.symm

theorem before_word (a b : UInt32) : SortKey.before a b = decide (a < b) := by
  apply decide_eq_decide.2
  exact UInt32.lt_iff_toNat_lt.symm

namespace OrderedMap

variable {κ ν : Type} [SortKey κ] {map : OrderedMap κ ν} {early late : List (κ × ν)}

theorem before_of_split (split : map.entries = early ++ late) {a b : κ × ν} (ha : a ∈ early)
    (hb : b ∈ late) : SortKey.before a.1 b.1 := by
  have ascending := map.ascending
  rw [split] at ascending
  exact (List.pairwise_append.1 ascending).2.2 a ha b hb

theorem not_before_head {entry : κ × ν} (split : map.entries = early ++ entry :: late)
    {b : κ × ν} (hb : b ∈ entry :: late) : ¬ SortKey.before b.1 entry.1 := by
  rcases List.mem_cons.1 hb with rfl | later
  · exact SortKey.irrefl _
  · have ascending := map.ascending
    rw [split] at ascending
    have tail := (List.pairwise_append.1 ascending).2.1
    have above := (List.pairwise_cons.1 tail).1 b later
    intro below
    exact SortKey.irrefl _ (SortKey.trans above below)

/-- The entries from a key of the map on. -/
theorem entriesFrom_of_split {entry : κ × ν} (split : map.entries = early ++ entry :: late) :
    map.entriesFrom entry.1 = entry :: late := by
  rw [entriesFrom, split, List.filter_append]
  have none : early.filter (fun e => ¬ SortKey.before e.1 entry.1) = [] := by
    rw [List.filter_eq_nil_iff]
    intro e he
    have := before_of_split split he (List.mem_cons_self ..)
    simp [this]
  have all : (entry :: late).filter (fun e => ¬ SortKey.before e.1 entry.1) = entry :: late := by
    rw [List.filter_eq_self]
    intro e he
    exact decide_eq_true (not_before_head split he)
  rw [none, all, List.nil_append]

/-- The entries from a key on are the end of the list. -/
theorem exists_entriesFrom (map : OrderedMap κ ν) (key : κ) :
    ∃ early, map.entries = early ++ map.entriesFrom key := by
  obtain ⟨entries, ascending⟩ := map
  change ∃ early, entries = early ++ entries.filter fun entry => ¬ SortKey.before entry.1 key
  induction entries with
  | nil => exact ⟨[], rfl⟩
  | cons entry rest ih =>
    obtain ⟨above, ordered⟩ := List.pairwise_cons.1 ascending
    by_cases below : SortKey.before entry.1 key
    · obtain ⟨early, split⟩ := ih ordered
      refine ⟨entry :: early, ?_⟩
      rw [List.filter_cons_of_neg (by simpa using below), List.cons_append, ← split]
    · have all : (entry :: rest).filter (fun e => ¬ SortKey.before e.1 key) = entry :: rest := by
        rw [List.filter_eq_self]
        intro other member
        rcases List.mem_cons.1 member with rfl | later
        · exact decide_eq_true below
        · refine decide_eq_true fun first => below (SortKey.trans (above other later) first)
      exact ⟨[], by rw [all, List.nil_append]⟩

/-- The same from a key that is met on the way. -/
theorem entriesFrom_of_entriesFrom {key : κ} {entry : κ × ν}
    (split : map.entriesFrom key = early ++ entry :: late) :
    map.entriesFrom entry.1 = entry :: late := by
  obtain ⟨first, whole⟩ := map.exists_entriesFrom key
  rw [split, ← List.append_assoc] at whole
  exact entriesFrom_of_split whole

/-- The entries ahead of a key of the map. -/
theorem filter_before_of_split {entry : κ × ν} (split : map.entries = early ++ entry :: late) :
    map.entries.filter (fun e => SortKey.before e.1 entry.1) = early := by
  rw [split, List.filter_append]
  have all : early.filter (fun e => SortKey.before e.1 entry.1) = early := by
    rw [List.filter_eq_self]
    intro e he
    exact before_of_split split he (List.mem_cons_self ..)
  have none : (entry :: late).filter (fun e => SortKey.before e.1 entry.1) = [] := by
    rw [List.filter_eq_nil_iff]
    intro e he
    exact not_before_head split he
  rw [all, none, List.append_nil]

section Word

variable {map : OrderedMap UInt32 ν} {early late : List (UInt32 × ν)} {entry : UInt32 × ν}

theorem toNat_lt_of_split (split : map.entries = early ++ entry :: late) :
    (∀ e ∈ early, e.1.toNat < entry.1.toNat) ∧ ∀ e ∈ late, entry.1.toNat < e.1.toNat := by
  have parted : map.entries = (early ++ [entry]) ++ late := by
    rw [split, List.append_assoc, List.singleton_append]
  constructor
  · intro e he
    have before := before_of_split split he (List.mem_cons_self ..)
    rw [before_word, decide_eq_true_iff] at before
    exact UInt32.lt_iff_toNat_lt.1 before
  · intro e he
    have before := before_of_split parted (List.mem_append_right _ (List.mem_cons_self ..)) he
    rw [before_word, decide_eq_true_iff] at before
    exact UInt32.lt_iff_toNat_lt.1 before

/-- The entries after a key of the map, if there is a greater word. -/
theorem entriesFrom_succ_of_split (split : map.entries = early ++ entry :: late)
    (more : entry.1 ≠ 4294967295) : map.entriesFrom (entry.1 + 1) = late := by
  have succ : (entry.1 + 1).toNat = entry.1.toNat + 1 := by
    have notTop : entry.1.toNat ≠ 4294967295 := fun top => more (UInt32.toNat_inj.1 top)
    have bounded := entry.1.toNat_lt
    rw [UInt32.toNat_add, UInt32.toNat_one]
    omega
  have before_succ : ∀ key : UInt32,
      SortKey.before key (entry.1 + 1) = decide (key.toNat ≤ entry.1.toNat) := by
    intro key
    rw [before_word]
    refine decide_eq_decide.2 (UInt32.lt_iff_toNat_lt.trans ?_)
    rw [succ, Nat.lt_succ_iff]
  obtain ⟨below, above⟩ := toNat_lt_of_split split
  have none : early.filter (fun e => ¬ SortKey.before e.1 (entry.1 + 1)) = [] := by
    rw [List.filter_eq_nil_iff]
    intro e he
    simp [before_succ, Nat.le_of_lt (below e he)]
  have all : late.filter (fun e => ¬ SortKey.before e.1 (entry.1 + 1)) = late := by
    rw [List.filter_eq_self]
    intro e he
    simp [before_succ, above e he]
  rw [entriesFrom, split, List.filter_append, none, List.nil_append,
    List.filter_cons_of_neg (by simp [before_succ]), all]

/-- Nothing comes after the greatest word. -/
theorem eq_nil_of_split_top (split : map.entries = early ++ entry :: late)
    (top : entry.1 = 4294967295) : late = [] := by
  refine List.eq_nil_iff_forall_not_mem.2 ?_
  intro e he
  have above := (toNat_lt_of_split split).2 e he
  have bounded := e.1.toNat_lt
  have greatest : UInt32.toNat 4294967295 = 2 ^ 32 - 1 := rfl
  rw [top, greatest] at above
  omega

end Word

end OrderedMap

end MeshControl
