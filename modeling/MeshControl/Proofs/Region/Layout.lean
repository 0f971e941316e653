import Mathlib.Data.List.Pairwise
import MeshControl.Proofs.Ordered.Insertion
import MeshControl.Region.Locator

/-!
# Where a layout puts regions

The table and the regions of a layout lie one behind the other below the end of the address
space, so no two of them share a byte, whatever their sizes (`layout_laysOut`).
-/

namespace MeshControl.MemoryMap

theorem le_wordAligned (size : Nat) : size ≤ wordAligned size := by
  unfold wordAligned
  omega

/-- The regions with where each of them starts, placed from `cursor` on. -/
def starts (cursor : Nat) : List Region → List (Region × Nat)
  | [] => []
  | region :: rest => (region, cursor) :: starts (cursor + wordAligned region.size.toNat) rest

theorem map_fst_starts (cursor : Nat) (regions : List Region) :
    (starts cursor regions).map Prod.fst = regions := by
  induction regions generalizing cursor with
  | nil => rfl
  | cons region rest ih => rw [starts, List.map_cons, ih]

/-- Regions one behind the other, from `cursor` up to `finish`. -/
structure Tiles (cursor finish : Nat) (entries : List (Region × Nat)) : Prop where
  grows : cursor ≤ finish
  bounded : cursor < UInt32.size → finish < UInt32.size
  inside : ∀ entry ∈ entries, cursor ≤ entry.2 ∧ entry.2 + entry.1.size.toNat ≤ finish
  apart : entries.Pairwise fun a b => a.2 + a.1.size.toNat ≤ b.2

/-- What `place` answers. -/
theorem place_tiles {cursor finish : Nat} {regions : List Region}
    {placed : List (RegionId × UInt32)} (ok : place cursor regions = .ok (placed, finish)) :
    placed = (starts cursor regions).map (fun entry => (entry.1.id, UInt32.ofNat entry.2)) ∧
      Tiles cursor finish (starts cursor regions) := by
  induction regions generalizing cursor placed with
  | nil =>
    cases ok
    exact ⟨rfl, Nat.le_refl _, id, by simp [starts], by simp [starts]⟩
  | cons region rest ih =>
    have aligned := le_wordAligned region.size.toNat
    rw [place] at ok
    by_cases room : UInt32.size ≤ cursor + wordAligned region.size.toNat
    · simp only [room, if_true] at ok
      cases ok
    simp only [room, if_false] at ok
    cases later : place (cursor + wordAligned region.size.toNat) rest with
    | error fault =>
      rw [later] at ok
      cases ok
    | ok answer =>
      obtain ⟨tail, last⟩ := answer
      rw [later] at ok
      cases ok
      obtain ⟨same, grows, bounded, inside, apart⟩ := ih later
      refine ⟨by rw [starts, List.map_cons, same], by omega, fun _ => bounded (by omega), ?_, ?_⟩
      · intro entry member
        rcases List.mem_cons.1 member with rfl | member
        · dsimp only
          omega
        · have := inside entry member
          omega
      · refine List.pairwise_cons.2 ⟨fun entry member => ?_, apart⟩
        have := inside entry member
        dsimp only
        omega

/-- Of two regions that are placed one lies behind the other. -/
theorem Tiles.apart_of_ne {cursor finish : Nat} {entries : List (Region × Nat)}
    (tiles : Tiles cursor finish entries) {a b : Region × Nat} (first : a ∈ entries)
    (second : b ∈ entries) (different : a ≠ b) :
    a.2 + a.1.size.toNat ≤ b.2 ∨ b.2 + b.1.size.toNat ≤ a.2 := by
  have either : entries.Pairwise fun a b =>
      a.2 + a.1.size.toNat ≤ b.2 ∨ b.2 + b.1.size.toNat ≤ a.2 := tiles.apart.imp Or.inl
  have symmetric : Std.Symm fun a b : Region × Nat =>
      a.2 + a.1.size.toNat ≤ b.2 ∨ b.2 + b.1.size.toNat ≤ a.2 := ⟨fun a b => Or.symm⟩
  apply either.forall first second
  exact different

section Placed

variable {map : MemoryMap} {cursor finish : Nat} {placed : List (RegionId × UInt32)}

/-- The regions of a map are placed under their numbers. -/
theorem keys_placed (placing : place cursor map.regions.values = .ok (placed, finish)) :
    placed.map Prod.fst = map.regions.keys := by
  obtain ⟨same, -⟩ := place_tiles placing
  rw [same, List.map_map, OrderedMap.keys]
  have named : ((fun entry => entry.1) ∘ fun entry : Region × Nat =>
      (entry.1.id, UInt32.ofNat entry.2)) = Region.id ∘ Prod.fst := rfl
  rw [named, ← List.map_map, map_fst_starts, OrderedMap.values, List.map_map]
  apply List.map_congr_left
  rintro ⟨id, region⟩ member
  exact map.filed ((map.regions.mem_entries_iff id region).1 member)

theorem nodup_placed (placing : place cursor map.regions.values = .ok (placed, finish)) :
    (placed.map Prod.fst).Nodup := by
  rw [keys_placed placing]
  exact map.regions.keys_nodup

/-- Only what a map declares is placed. -/
theorem exists_declared (placing : place cursor map.regions.values = .ok (placed, finish))
    {id : RegionId} {address : UInt32} (found : (OrderedMap.ofList placed).get? id = some address) :
    ∃ region, map.region? id = some region := by
  by_cases listed : id ∈ placed.map Prod.fst
  · rw [keys_placed placing] at listed
    exact (map.regions.mem_keys_iff id).1 listed
  · rw [OrderedMap.ofList, OrderedMap.get?_insertAll_of_not_mem _ listed] at found
    cases found

/-- Every region of a map has a start, and the start is its address. -/
theorem exists_start (placing : place cursor map.regions.values = .ok (placed, finish))
    (small : finish < UInt32.size) {id : RegionId} {region : Region}
    (declared : map.region? id = some region) :
    ∃ start, (region, start) ∈ starts cursor map.regions.values ∧
      ∃ address, (OrderedMap.ofList placed).get? id = some address ∧ address.toNat = start := by
  obtain ⟨same, tiles⟩ := place_tiles placing
  have named : region.id = id := map.filed declared
  have listed : region ∈ (starts cursor map.regions.values).map Prod.fst := by
    rw [map_fst_starts]
    exact (map.regions.mem_values_iff region).2 ⟨id, declared⟩
  obtain ⟨⟨region, start⟩, member, rfl⟩ := List.mem_map.1 listed
  have inside := tiles.inside _ member
  dsimp only at inside
  refine ⟨start, member, UInt32.ofNat start, ?_, ?_⟩
  · apply OrderedMap.get?_insertAll_of_mem _ (nodup_placed placing)
    rw [same, ← named]
    exact List.mem_map.2 ⟨_, member, rfl⟩
  · apply UInt32.toNat_ofNat_of_lt'
    omega

end Placed

/-- A layout gives the table and every region of a map bytes of their own. -/
structure LaysOut (map : MemoryMap) (base : UInt32) (layout : RegionLayout) : Prop where
  base_eq : layout.base = base
  bounded : base.toNat + layout.totalBytes.toNat < UInt32.size
  table : PointerTable.size ≤ layout.totalBytes.toNat
  inside : ∀ {id region}, map.region? id = some region →
    ∃ address, layout.addresses.get? id = some address ∧
      base.toNat + PointerTable.size ≤ address.toNat ∧
      address.toNat + region.size.toNat ≤ base.toNat + layout.totalBytes.toNat
  apart : ∀ {id other region neighbour address place}, id ≠ other →
    map.region? id = some region → map.region? other = some neighbour →
    layout.addresses.get? id = some address → layout.addresses.get? other = some place →
    address.toNat + region.size.toNat ≤ place.toNat ∨
      place.toNat + neighbour.size.toNat ≤ address.toNat

/-- **Layouts do not overlap.** -/
theorem layout_laysOut {map : MemoryMap} {base : UInt32} {layout : RegionLayout}
    (ok : map.layout base = .ok layout) : map.LaysOut base layout := by
  rw [MemoryMap.layout] at ok
  by_cases room : UInt32.size ≤ base.toNat + PointerTable.size
  · simp only [room, if_true] at ok
    cases ok
  simp only [room, if_false] at ok
  cases placing : place (base.toNat + PointerTable.size) map.regions.values with
  | error fault =>
    rw [placing] at ok
    cases ok
  | ok answer =>
    obtain ⟨placed, finish⟩ := answer
    rw [placing] at ok
    cases ok
    obtain ⟨-, tiles⟩ := place_tiles placing
    have grows := tiles.grows
    have small := tiles.bounded (by omega)
    have total : (UInt32.ofNat (finish - base.toNat)).toNat = finish - base.toNat :=
      UInt32.toNat_ofNat_of_lt' (by omega)
    constructor
    · rfl
    · dsimp only
      rw [total]
      omega
    · dsimp only
      rw [total]
      omega
    · intro id region declared
      obtain ⟨start, member, address, found, stands⟩ := exists_start placing small declared
      have inside := tiles.inside _ member
      dsimp only at inside ⊢
      refine ⟨address, found, ?_, ?_⟩
      · omega
      · rw [total]
        omega
    · intro id other region neighbour address place different declared declared' found found'
      obtain ⟨start, member, _, look, stands⟩ := exists_start placing small declared
      obtain ⟨start', member', _, look', stands'⟩ := exists_start placing small declared'
      rw [look] at found
      rw [look'] at found'
      cases found
      cases found'
      have apart := tiles.apart_of_ne member member' (by
        intro equal
        apply different
        rw [← map.filed declared, ← map.filed declared', (Prod.mk.inj equal).1])
      dsimp only at apart
      omega

/-- A layout has addresses of declared regions only. -/
theorem layout_declared {map : MemoryMap} {base : UInt32} {layout : RegionLayout}
    (ok : map.layout base = .ok layout) {id : RegionId} {address : UInt32}
    (found : layout.addresses.get? id = some address) :
    ∃ region, map.region? id = some region := by
  rw [MemoryMap.layout] at ok
  by_cases room : UInt32.size ≤ base.toNat + PointerTable.size
  · simp only [room, if_true] at ok
    cases ok
  simp only [room, if_false] at ok
  cases placing : place (base.toNat + PointerTable.size) map.regions.values with
  | error fault =>
    rw [placing] at ok
    cases ok
  | ok answer =>
    rw [placing] at ok
    cases ok
    exact exists_declared placing found

/-- No region lies at address 0: the table comes first. -/
theorem ne_zero_of_layout {map : MemoryMap} {base : UInt32} {layout : RegionLayout}
    (ok : map.layout base = .ok layout) {id : RegionId} {address : UInt32}
    (found : layout.addresses.get? id = some address) : address ≠ 0 := by
  obtain ⟨region, declared⟩ := layout_declared ok found
  obtain ⟨place, look, behind, -⟩ := (layout_laysOut ok).inside declared
  rw [found] at look
  cases look
  rintro rfl
  have size : PointerTable.size = 72 := rfl
  rw [UInt32.toNat_zero] at behind
  omega

end MeshControl.MemoryMap
