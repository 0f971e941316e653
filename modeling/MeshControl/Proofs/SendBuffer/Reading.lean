import MeshControl.Proofs.SendBuffer.Packing

/-!
# Reading blocks out of a region

A core does not know how many of the bytes of its region were written. It reads blocks until what
follows is no block (`readBlocks`). So it reads the blocks of an image, and then any that happen to
lie behind it: none if there are zeros (`readTicks_encode_append_zeros`), and otherwise what earlier
and longer images have left there (`overlay`).
-/

namespace MeshControl.SendBuffer

/-- The blocks that some bytes begin with, up to the first bytes that are no block. -/
def readBlocks (data : Bytes) : List Entry :=
  match _found : firstBlock? data with
  | none => []
  | some (block, rest) => block :: readBlocks rest
termination_by data.length
decreasing_by exact length_lt_of_firstBlock? _found

/-- The ticks that some bytes begin with, with consecutive blocks of one tick joined. -/
def readTicks (data : Bytes) : List Entry := (readBlocks data).foldr joinBlock []

theorem readBlocks_of_none {data : Bytes} (none : firstBlock? data = none) : readBlocks data = [] := by
  rw [readBlocks]
  split
  · rfl
  · rename_i found
    rw [none] at found
    cases found

theorem readBlocks_of_some {data rest : Bytes} {block : Entry}
    (first : firstBlock? data = some (block, rest)) : readBlocks data = block :: readBlocks rest := by
  rw [readBlocks]
  split
  · rename_i none
    rw [first] at none
    cases none
  · rename_i found
    rw [first] at found
    cases found
    rfl

theorem readBlocks_eq_nil_iff {data : Bytes} : readBlocks data = [] ↔ firstBlock? data = none := by
  refine ⟨?_, readBlocks_of_none⟩
  intro nothing
  cases found : firstBlock? data with
  | none => rfl
  | some first =>
    rw [readBlocks_of_some found] at nothing
    cases nothing

/-- What follows a block does not matter to it. -/
theorem firstBlock?_append {data rest : Bytes} {block : Entry}
    (first : firstBlock? data = some (block, rest)) (more : Bytes) :
    firstBlock? (data ++ more) = some (block, rest ++ more) := by
  unfold firstBlock? at first
  split at first
  · rename_i h₀ h₁ c₀ c₁ t₀ t₁ t₂ t₃ tail
    dsimp only at first
    split at first
    · rename_i opens
      cases first
      have fits : 4 * (Bytes.half c₀ c₁).toNat ≤ (tail ++ more).length := by
        rw [List.length_append]
        omega
      simp only [List.cons_append, firstBlock?]
      rw [if_pos ⟨opens.1, fits⟩, List.take_append_of_le_length opens.2,
        List.drop_append_of_le_length opens.2]
    · cases first
  · cases first

/-- **Blocks read back ahead of whatever follows them.** -/
theorem readBlocks_append {data : Bytes} {blocks : List Entry}
    (whole : decodeBlocks data = some blocks) (more : Bytes) :
    readBlocks (data ++ more) = blocks ++ readBlocks more := by
  fun_induction decodeBlocks data generalizing blocks with
  | case1 =>
    cases whole
    rfl
  | case2 => cases whole
  | case3 data _ block rest first ih =>
    obtain ⟨later, read, rfl⟩ := Option.map_eq_some_iff.1 whole
    rw [readBlocks_of_some (firstBlock?_append first more), ih read]
    rfl

/-- The blocks of some ticks. -/
def blocksOf (entries : List Entry) : List Entry :=
  entries.flatMap fun entry => (keyBlocks entry.2).map (Prod.mk entry.1)

theorem decodeBlocks_encode (entries : List Entry) :
    decodeBlocks (encode entries) = some (blocksOf entries) := by
  induction entries with
  | nil => exact decodeBlocks_nil
  | cons entry entries ih =>
    rw [encode_cons, decodeBlocks_encodeTick_append, ih]
    rfl

theorem readBlocks_encode_append (entries : List Entry) (more : Bytes) :
    readBlocks (encode entries ++ more) = blocksOf entries ++ readBlocks more :=
  readBlocks_append (decodeBlocks_encode entries) more

/-- Zeros are no block. -/
theorem readBlocks_zeros (count : Nat) : readBlocks (List.replicate count 0) = [] := by
  apply readBlocks_of_none
  unfold firstBlock?
  split
  · rename_i h₀ h₁ c₀ c₁ t₀ t₁ t₂ t₃ tail same
    have zero : ∀ byte ∈ h₀ :: h₁ :: c₀ :: c₁ :: t₀ :: t₁ :: t₂ :: t₃ :: tail, byte = 0 := by
      rw [← same]
      exact fun byte member => List.eq_of_mem_replicate member
    have first : h₀ = 0 := zero h₀ (by simp)
    have second : h₁ = 0 := zero h₁ (by simp)
    subst first
    subst second
    rw [if_neg]
    rintro ⟨opens, -⟩
    exact absurd opens (by decide)
  · rfl

/-- **Ticks ahead of zeros read back as they were**, if each has keys and their order is strict. -/
theorem readTicks_encode_append_zeros {entries : List Entry}
    (nonempty : ∀ entry ∈ entries, entry.2 ≠ [])
    (distinct : entries.Pairwise fun a b => a.1 ≠ b.1) (count : Nat) :
    readTicks (encode entries ++ List.replicate count 0) = entries := by
  have ticks := decodeTicks_flatMap nonempty distinct
  change decodeTicks (encode entries) = some entries at ticks
  rw [decodeTicks, decodeBlocks_encode] at ticks
  rw [readTicks, readBlocks_encode_append, readBlocks_zeros, List.append_nil]
  exact Option.some.inj ticks

/-! ## Images on top of each other -/

/-- The bytes of a region of zeros to whose start images were written, the latest first. -/
def overlay (size : Nat) : List Bytes → Bytes
  | [] => List.replicate size 0
  | image :: earlier => image ++ (overlay size earlier).drop image.length

/-- Behind the longest image there are zeros. -/
theorem drop_overlay {size length : Nat} {images : List Bytes}
    (short : ∀ image ∈ images, image.length ≤ length) :
    (overlay size images).drop length = List.replicate (size - length) 0 := by
  induction images with
  | nil => rw [overlay, List.drop_replicate]
  | cons image earlier ih =>
    have first := short image (List.mem_cons_self ..)
    have later := ih fun other member => short other (List.mem_cons_of_mem _ member)
    rw [overlay, List.drop_append, List.drop_of_length_le first, List.nil_append, List.drop_drop,
      Nat.add_sub_cancel' first]
    exact later

/-- An image that is no shorter than those before it covers them. -/
theorem overlay_cons_of_short {size : Nat} {image : Bytes} {earlier : List Bytes}
    (short : ∀ other ∈ earlier, other.length ≤ image.length) :
    overlay size (image :: earlier) = image ++ List.replicate (size - image.length) 0 := by
  rw [overlay, drop_overlay short]

end MeshControl.SendBuffer
