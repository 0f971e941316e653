import MeshControl.Proofs.Region.Layout

/-!
# How far a layout reaches

A layout takes its table and every region in whole words, and it is refused exactly if the end of
that is behind the last address (`layout_spreads_or_overflows`). `place_eq` and `layout_eq` say what
is answered in either case; what is known of an address then comes from its place in `starts`
(`exists_start_of_layout`).
-/

namespace MeshControl.MemoryMap

/-- The next multiple of four from a size on. -/
def wholeWords (size : Nat) : Nat := if size % 4 = 0 then size else size + (4 - size % 4)

theorem wordAligned_eq (size : Nat) : wordAligned size = wholeWords size := by
  unfold wordAligned wholeWords
  split <;> omega

/-- Bytes that some regions take, each in whole words. -/
def regionBytes (regions : List Region) : Nat :=
  regions.foldr (fun region total => wholeWords region.size.toNat + total) 0

/-- **What placing answers.** Regions lie one behind the other, unless the last of them ends behind
the last address. -/
theorem place_eq {cursor : Nat} (start : cursor < UInt32.size) (regions : List Region) :
    place cursor regions =
      if cursor + regionBytes regions < UInt32.size then
        .ok ((starts cursor regions).map fun entry => (entry.1.id, UInt32.ofNat entry.2),
          cursor + regionBytes regions)
      else .error (.specification .layoutOverflow) := by
  induction regions generalizing cursor with
  | nil =>
    exact (if_pos start).symm
  | cons region rest ih =>
    have total : regionBytes (region :: rest) =
        wordAligned region.size.toNat + regionBytes rest := by
      rw [wordAligned_eq]
      rfl
    rw [place, total, ← Nat.add_assoc]
    by_cases room : UInt32.size ≤ cursor + wordAligned region.size.toNat
    · simp only [room, if_true]
      rw [if_neg (by omega)]
      rfl
    · simp only [room, if_false]
      rw [ih (Nat.lt_of_not_le room)]
      split
      · rfl
      · rfl

/-- **What a layout is**, and when there is none. -/
theorem layout_eq (map : MemoryMap) (base : UInt32) :
    map.layout base =
      if base.toNat + PointerTable.size + regionBytes map.regions.values < UInt32.size then
        .ok {
          base
          addresses := .ofList ((starts (base.toNat + PointerTable.size) map.regions.values).map
            fun entry => (entry.1.id, UInt32.ofNat entry.2))
          totalBytes := UInt32.ofNat (PointerTable.size + regionBytes map.regions.values) }
      else .error (.specification .layoutOverflow) := by
  rw [layout]
  by_cases room : UInt32.size ≤ base.toNat + PointerTable.size
  · simp only [room, if_true]
    rw [if_neg (by omega)]
    rfl
  · simp only [room, if_false]
    rw [place_eq (Nat.lt_of_not_le room)]
    split
    · have length : base.toNat + PointerTable.size + regionBytes map.regions.values - base.toNat =
          PointerTable.size + regionBytes map.regions.values := by omega
      rw [← length]
      rfl
    · rfl

/-! ## Where regions start -/

/-- Regions start at whole words from the first. -/
theorem exists_words_of_mem_starts {cursor : Nat} {regions : List Region} {entry : Region × Nat}
    (member : entry ∈ starts cursor regions) : ∃ words, entry.2 = cursor + 4 * words := by
  induction regions generalizing cursor with
  | nil => cases member
  | cons region rest ih =>
    rcases List.mem_cons.1 member with rfl | later
    · exact ⟨0, rfl⟩
    · obtain ⟨words, same⟩ := ih later
      refine ⟨(region.size.toNat + 3) / 4 + words, ?_⟩
      rw [same, wordAligned]
      omega

/-- The regions of a map start in the order of their numbers. -/
theorem starts_ascending (map : MemoryMap) (cursor : Nat) :
    (starts cursor map.regions.values).Pairwise fun a b => a.1.id < b.1.id := by
  have ordered : map.regions.values.Pairwise fun a b => a.id < b.id := by
    rw [OrderedMap.values, List.pairwise_map]
    apply map.regions.ascending.imp_of_mem
    rintro ⟨id, region⟩ ⟨other, neighbour⟩ first second before
    have named : region.id = id := map.filed ((map.regions.mem_entries_iff ..).1 first)
    have named' : neighbour.id = other := map.filed ((map.regions.mem_entries_iff ..).1 second)
    rw [named, named']
    exact UInt8.lt_iff_toNat_lt.2 (of_decide_eq_true before)
  rw [← map_fst_starts cursor map.regions.values, List.pairwise_map] at ordered
  exact ordered

/-- Of two regions of a map, the one with the lower number ends before the other starts. -/
theorem ends_before_of_lt {map : MemoryMap} {cursor finish : Nat} {a b : Region × Nat}
    (tiles : Tiles cursor finish (starts cursor map.regions.values))
    (first : a ∈ starts cursor map.regions.values) (second : b ∈ starts cursor map.regions.values)
    (lower : a.1.id < b.1.id) : a.2 + a.1.size.toNat ≤ b.2 := by
  obtain ⟨i, hi, rfl⟩ := List.getElem_of_mem first
  obtain ⟨j, hj, rfl⟩ := List.getElem_of_mem second
  rcases Nat.lt_trichotomy i j with before | rfl | after
  · exact List.pairwise_iff_getElem.1 tiles.apart i j hi hj before
  · exact absurd lower (UInt8.lt_irrefl _)
  · have higher := List.pairwise_iff_getElem.1 (starts_ascending map cursor) j i hj hi after
    exact absurd lower (UInt8.lt_asymm higher)

/-! ## What a layout holds -/

/-- Where a map's table and regions lie. -/
structure Spread (map : MemoryMap) (base : UInt32) (layout : RegionLayout) : Prop where
  /-- It begins with the table. -/
  base_eq : layout.base = base
  /-- It is as long as the table and the regions in whole words. -/
  total : layout.totalBytes.toNat = PointerTable.size + regionBytes map.regions.values
  /-- The declared regions have addresses, and no others. -/
  declared : ∀ id, (layout.addresses.get? id).isSome = (map.region? id).isSome
  /-- Every region lies behind the table and ends with the layout or before. -/
  inside : ∀ {id region address}, map.region? id = some region →
    layout.addresses.get? id = some address →
    base.toNat + PointerTable.size ≤ address.toNat ∧
      address.toNat + region.size.toNat ≤ base.toNat + layout.totalBytes.toNat
  /-- A region ends before those of higher numbers start. -/
  ordered : ∀ {id other region address place}, id < other → map.region? id = some region →
    layout.addresses.get? id = some address → layout.addresses.get? other = some place →
    address.toNat + region.size.toNat ≤ place.toNat
  /-- Every region starts at a whole word from the base. -/
  aligned : ∀ {id address}, layout.addresses.get? id = some address → (address - base) % 4 = 0
  /-- No region starts at the address that stands for none. -/
  nonzero : ∀ {id address}, layout.addresses.get? id = some address → address ≠ 0

section Laid

variable {map : MemoryMap} {base : UInt32}

/-- The address of a region is where it starts. -/
theorem exists_start_of_layout {layout : RegionLayout} (ok : map.layout base = .ok layout)
    (room : base.toNat + PointerTable.size + regionBytes map.regions.values < UInt32.size)
    {id : RegionId} {address : UInt32} (found : layout.addresses.get? id = some address) :
    ∃ region, map.region? id = some region ∧
      (region, address.toNat) ∈ starts (base.toNat + PointerTable.size) map.regions.values := by
  have below : base.toNat + PointerTable.size < UInt32.size := by omega
  have placing := place_eq below map.regions.values
  rw [if_pos room] at placing
  rw [layout_eq, if_pos room] at ok
  cases ok
  obtain ⟨region, declared⟩ := exists_declared placing found
  obtain ⟨start, member, other, look, same⟩ := exists_start placing room declared
  cases found.symm.trans look
  rw [← same] at member
  exact ⟨region, declared, member⟩

theorem spread_of_layout {layout : RegionLayout} (ok : map.layout base = .ok layout)
    (room : base.toNat + PointerTable.size + regionBytes map.regions.values < UInt32.size) :
    map.Spread base layout := by
  have below : base.toNat + PointerTable.size < UInt32.size := by omega
  have placing := place_eq below map.regions.values
  rw [if_pos room] at placing
  obtain ⟨-, tiles⟩ := place_tiles placing
  have starting : ∀ {id address}, layout.addresses.get? id = some address →
      ∃ region, map.region? id = some region ∧
        (region, address.toNat) ∈ starts (base.toNat + PointerTable.size) map.regions.values :=
    exists_start_of_layout ok room
  have laid := layout_laysOut ok
  have total : layout.totalBytes.toNat = PointerTable.size + regionBytes map.regions.values := by
    rw [layout_eq, if_pos room] at ok
    cases ok
    exact UInt32.toNat_ofNat_of_lt' (by omega)
  constructor
  · exact laid.base_eq
  · exact total
  · intro id
    rw [Bool.eq_iff_iff, Option.isSome_iff_exists, Option.isSome_iff_exists]
    constructor
    · rintro ⟨address, found⟩
      exact layout_declared ok found
    · rintro ⟨region, declared⟩
      obtain ⟨address, found, -⟩ := laid.inside declared
      exact ⟨address, found⟩
  · intro id region address declared found
    obtain ⟨other, found', inside⟩ := laid.inside declared
    cases found.symm.trans found'
    exact inside
  · intro id other region address place lower declared found found'
    obtain ⟨_, declared', member⟩ := starting found
    obtain ⟨neighbour, declaredOther, member'⟩ := starting found'
    cases declared.symm.trans declared'
    apply ends_before_of_lt tiles member member'
    rw [map.filed declared, map.filed declaredOther]
    exact lower
  · intro id address found
    obtain ⟨region, -, member⟩ := starting found
    obtain ⟨words, same⟩ := exists_words_of_mem_starts member
    dsimp only at same
    have behind : base ≤ address := UInt32.le_iff_toNat_le.2 (by omega)
    have table : PointerTable.size = 4 * 18 := rfl
    rw [← UInt32.toNat_inj, UInt32.toNat_mod, UInt32.toNat_sub_of_le _ _ behind]
    show (address.toNat - base.toNat) % 4 = 0
    omega
  · exact ne_zero_of_layout ok

end Laid

/-- **A layout is refused only if it ends behind the last address**; otherwise its regions lie apart
and in order behind the table. This holds of every map, however its regions came to be declared. -/
theorem layout_spreads_or_overflows (map : MemoryMap) (base : UInt32) :
    if base.toNat + PointerTable.size + regionBytes map.regions.values < UInt32.size then
      ∃ layout, map.layout base = .ok layout ∧ map.Spread base layout
    else map.layout base = .error (.specification .layoutOverflow) := by
  split
  · rename_i room
    have ok := layout_eq map base
    rw [if_pos room] at ok
    exact ⟨_, ok, spread_of_layout ok room⟩
  · rename_i exceeds
    rw [layout_eq, if_neg exceeds]

end MeshControl.MemoryMap
