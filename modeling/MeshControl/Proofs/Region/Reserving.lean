import MeshControl.Proofs.Outcome
import MeshControl.Region.Map

/-!
# What a reservation leaves declared

Reserving never changes a declaration, and a reservation that succeeds has every region it asks
for, with the size it asks for.
-/

namespace MeshControl.MemoryMap

/-- A map declares a region with a given size. -/
def Declares (map : MemoryMap) (region : Region) : Prop :=
  ∃ declared, map.region? region.id = some declared ∧ declared.size = region.size

/-- Nothing that was declared has changed. -/
def Extends (later earlier : MemoryMap) : Prop :=
  ∀ {id region}, earlier.region? id = some region → later.region? id = some region

theorem Extends.declares {later earlier : MemoryMap} (kept : later.Extends earlier)
    {region : Region} (declares : earlier.Declares region) : later.Declares region := by
  obtain ⟨declared, found, size⟩ := declares
  exact ⟨declared, kept found, size⟩

theorem record_extends (map : MemoryMap) (region : Region) : (map.record region).Extends map := by
  intro id found declared
  unfold record
  split
  · exact declared
  · rename_i fresh
    show (map.regions.insert region.id region).get? id = some found
    rw [OrderedMap.get?_insert, if_neg]
    · exact declared
    · rintro rfl
      apply fresh
      rw [OrderedMap.contains]
      exact Option.isSome_iff_exists.2 ⟨found, declared⟩

theorem record_declares (map : MemoryMap) (region : Region) (may : map.check region = .ok ()) :
    (map.record region).Declares region := by
  unfold check at may
  split at may
  · cases may
  unfold record
  cases found : map.region? region.id with
  | some declared =>
    rw [found] at may
    have known : map.regions.contains region.id = true := Option.isSome_iff_exists.2 ⟨_, found⟩
    rw [if_pos known]
    by_cases same : declared.size = region.size
    · exact ⟨declared, found, same⟩
    · simp only [same, if_false] at may
      cases may
  | none =>
    have fresh : map.regions.contains region.id = false := by
      rw [OrderedMap.contains]
      exact Option.isSome_eq_false_iff.2 (Option.isNone_iff_eq_none.2 found)
    rw [if_neg (by rw [fresh]; exact Bool.false_ne_true)]
    exact ⟨region, OrderedMap.get?_insert_self .., rfl⟩

theorem declare_spec {map next : MemoryMap} {region : Region} (ok : map.declare region = .ok next) :
    next.Extends map ∧ next.Declares region := by
  obtain ⟨_, may, made⟩ := exists_of_bind_eq_ok ok
  cases made
  exact ⟨map.record_extends region, map.record_declares region may⟩

theorem declareAll_extends (map : MemoryMap) (regions : List Region) :
    (map.declareAll regions).2.Extends map := by
  induction regions generalizing map with
  | nil => exact fun found => found
  | cons region rest ih =>
    rw [declareAll]
    split
    · rename_i next declared
      exact fun found => ih next ((declare_spec declared).1 found)
    · exact fun found => found

theorem declareAll_declares {map : MemoryMap} {regions : List Region}
    (ok : (map.declareAll regions).1 = .ok ()) :
    ∀ region ∈ regions, (map.declareAll regions).2.Declares region := by
  induction regions generalizing map with
  | nil => exact fun region member => nomatch member
  | cons first rest ih =>
    rw [declareAll] at ok ⊢
    cases declared : map.declare first with
    | error fault =>
      rw [declared] at ok
      cases ok
    | ok next =>
      rw [declared] at ok
      intro region member
      rcases List.mem_cons.1 member with rfl | later
      · exact Extends.declares (next.declareAll_extends rest) (declare_spec declared).2
      · exact ih ok region later

/-- **A reservation has all it asked for.** -/
theorem reserve_declares {map : MemoryMap} {regions : List Region}
    (ok : (map.reserve regions).1 = .ok ()) :
    ∀ region ∈ regions, (map.reserve regions).2.Declares region := by
  unfold reserve at ok ⊢
  split at ok
  · exact declareAll_declares ok
  · cases ok

end MeshControl.MemoryMap
