import MeshControl.SendBuffer.Block

/-!
# Reading timed key blocks back

A reader of the blocks that `encodeTick` writes. `decodeBlocks` splits bytes into blocks and
`decodeTicks` joins consecutive blocks of one tick again, so that a tick reads back whole
however many blocks it took. Main statement: `decodeTicks_flatMap`, ticks that were encoded one
after the other read back as they were, if each has keys and no tick follows itself.
-/

namespace MeshControl.SendBuffer

/-- The keys of one tick. -/
abbrev Entry := Tick × List Key

/-- The block that some bytes begin with, and the bytes after it. -/
def firstBlock? : Bytes → Option (Entry × Bytes)
  | h₀ :: h₁ :: c₀ :: c₁ :: t₀ :: t₁ :: t₂ :: t₃ :: rest =>
    let size := 4 * (Bytes.half c₀ c₁).toNat
    if Bytes.half h₀ h₁ = blockHeader ∧ size ≤ rest.length then
      some ((Bytes.word t₀ t₁ t₂ t₃, Bytes.words (rest.take size)), rest.drop size)
    else none
  | _ => none

theorem length_lt_of_firstBlock? {data rest : Bytes} {block : Entry}
    (h : firstBlock? data = some (block, rest)) : rest.length < data.length := by
  unfold firstBlock? at h
  split at h
  · simp only at h
    split at h
    · cases h
      simp only [List.length_drop, List.length_cons]
      omega
    · cases h
  · cases h

/-- The blocks that some bytes are made of; nothing if they are not made of blocks. -/
def decodeBlocks (data : Bytes) : Option (List Entry) :=
  if data = [] then some []
  else
    match _found : firstBlock? data with
    | none => none
    | some (block, rest) => (decodeBlocks rest).map (block :: ·)
termination_by data.length
decreasing_by exact length_lt_of_firstBlock? _found

/-- Put a block ahead of ticks that were read after it. -/
def joinBlock (block : Entry) : List Entry → List Entry
  | [] => [block]
  | (tick, keys) :: rest =>
    if block.1 = tick then (tick, block.2 ++ keys) :: rest else block :: (tick, keys) :: rest

/-- The ticks that some bytes hold, with consecutive blocks of one tick joined. -/
def decodeTicks (data : Bytes) : Option (List Entry) :=
  (decodeBlocks data).map (List.foldr joinBlock [])

/-! ## One block -/

theorem length_encodeBlock (tick : Tick) (keys : List Key) :
    (encodeBlock tick keys).length = blockSize keys.length := by
  simp only [encodeBlock, List.length_append, Bytes.length_ofHalf, Bytes.length_ofWord,
    Bytes.length_ofWords, blockSize, blockOverhead]

theorem firstBlock?_encodeBlock_append (tick : Tick) {keys : List Key}
    (fits : keys.length ≤ keysPerBlock) (rest : Bytes) :
    firstBlock? (encodeBlock tick keys ++ rest) = some ((tick, keys), rest) := by
  have count : (UInt16.ofNat keys.length).toNat = keys.length := by
    rw [UInt16.toNat_ofNat']
    unfold keysPerBlock at fits
    omega
  have size : 4 * keys.length = (Bytes.ofWords keys).length := (Bytes.length_ofWords keys).symm
  have room : 4 * keys.length ≤ (Bytes.ofWords keys ++ rest).length := by
    rw [List.length_append, ← size]
    exact Nat.le_add_right ..
  simp only [encodeBlock, Bytes.ofHalf, Bytes.ofWord, List.cons_append, List.nil_append,
    firstBlock?, Bytes.half_ofHalf, Bytes.word_ofWord]
  rw [count, if_pos ⟨trivial, room⟩, size, List.take_left, List.drop_left, Bytes.words_ofWords]

theorem decodeBlocks_nil : decodeBlocks [] = some [] := by
  rw [decodeBlocks, if_pos rfl]

theorem decodeBlocks_encodeBlock_append (tick : Tick) {keys : List Key}
    (fits : keys.length ≤ keysPerBlock) (rest : Bytes) :
    decodeBlocks (encodeBlock tick keys ++ rest) =
      (decodeBlocks rest).map ((tick, keys) :: ·) := by
  have nonempty : encodeBlock tick keys ++ rest ≠ [] := by
    simp [encodeBlock, Bytes.ofHalf]
  have first := firstBlock?_encodeBlock_append tick fits rest
  rw [decodeBlocks, if_neg nonempty]
  split
  · rename_i none
    rw [first] at none
    cases none
  · rename_i found
    rw [first] at found
    cases found
    rfl

/-! ## The blocks of one tick -/

theorem length_le_of_mem_keyBlocks {keys block : List Key} (h : block ∈ keyBlocks keys) :
    block.length ≤ keysPerBlock := by
  induction keys using keyBlocks.induct with
  | case1 => simp [keyBlocks] at h
  | case2 key rest ih =>
    rw [keyBlocks] at h
    rcases List.mem_cons.1 h with rfl | later
    · exact List.length_take_le ..
    · exact ih later

theorem flatten_keyBlocks (keys : List Key) : (keyBlocks keys).flatten = keys := by
  induction keys using keyBlocks.induct with
  | case1 => rw [keyBlocks, List.flatten_nil]
  | case2 key rest ih => rw [keyBlocks, List.flatten_cons, ih, List.take_append_drop]

theorem keyBlocks_ne_nil {keys : List Key} (h : keys ≠ []) : keyBlocks keys ≠ [] := by
  cases keys with
  | nil => exact absurd rfl h
  | cons key rest =>
    rw [keyBlocks]
    exact List.cons_ne_nil _ _

theorem decodeBlocks_flatMap_append (tick : Tick) (rest : Bytes) {blocks : List (List Key)}
    (fits : ∀ block ∈ blocks, block.length ≤ keysPerBlock) :
    decodeBlocks (blocks.flatMap (encodeBlock tick) ++ rest) =
      (decodeBlocks rest).map (blocks.map (Prod.mk tick) ++ ·) := by
  induction blocks with
  | nil => simp
  | cons block blocks ih =>
    have first := fits block (List.mem_cons_self ..)
    have later := ih fun b hb => fits b (List.mem_cons_of_mem _ hb)
    rw [List.flatMap_cons, List.append_assoc, decodeBlocks_encodeBlock_append tick first, later,
      Option.map_map]
    rfl

/-- Blocks of one tick join to that tick, unless the ticks after them go on with it. -/
theorem foldr_joinBlock_same (tick : Tick) {later : List Entry}
    (other : ∀ entry ∈ later.head?, entry.1 ≠ tick) {blocks : List (List Key)}
    (some : blocks ≠ []) :
    (blocks.map (Prod.mk tick)).foldr joinBlock later = (tick, blocks.flatten) :: later := by
  induction blocks with
  | nil => exact absurd rfl some
  | cons block blocks ih =>
    cases blocks with
    | nil =>
      cases later with
      | nil => simp [joinBlock]
      | cons entry rest =>
        have : tick ≠ entry.1 := fun e => other entry rfl e.symm
        simp [joinBlock, this]
    | cons next blocks =>
      rw [List.map_cons, List.foldr_cons, ih (List.cons_ne_nil _ _)]
      simp [joinBlock]

/-! ## Ticks one after the other -/

theorem decodeBlocks_encodeTick_append (tick : Tick) (keys : List Key) (rest : Bytes) :
    decodeBlocks (encodeTick tick keys ++ rest) =
      (decodeBlocks rest).map ((keyBlocks keys).map (Prod.mk tick) ++ ·) :=
  decodeBlocks_flatMap_append tick rest fun _ => length_le_of_mem_keyBlocks

/-- A tick is read back whole ahead of others, of which the first is not the same tick. -/
theorem decodeTicks_encodeTick_append (tick : Tick) {keys : List Key} (nonempty : keys ≠ [])
    {rest : Bytes} {later : List Entry} (read : decodeTicks rest = some later)
    (other : ∀ entry ∈ later.head?, entry.1 ≠ tick) :
    decodeTicks (encodeTick tick keys ++ rest) = some ((tick, keys) :: later) := by
  obtain ⟨blocks, found, joined⟩ := Option.map_eq_some_iff.1 read
  rw [decodeTicks, decodeBlocks_encodeTick_append, found, Option.map_some, Option.map_some,
    List.foldr_append, joined, foldr_joinBlock_same tick other (keyBlocks_ne_nil nonempty),
    flatten_keyBlocks]

/-- **Ticks read back as they were encoded**, if each has keys and their order is strict. -/
theorem decodeTicks_flatMap {entries : List Entry} (nonempty : ∀ entry ∈ entries, entry.2 ≠ [])
    (distinct : entries.Pairwise fun a b => a.1 ≠ b.1) :
    decodeTicks (entries.flatMap fun entry => encodeTick entry.1 entry.2) = some entries := by
  induction entries with
  | nil =>
    rw [List.flatMap_nil, decodeTicks, decodeBlocks_nil]
    rfl
  | cons entry entries ih =>
    obtain ⟨apart, rest⟩ := List.pairwise_cons.1 distinct
    have read := ih (fun e he => nonempty e (List.mem_cons_of_mem _ he)) rest
    rw [List.flatMap_cons]
    refine decodeTicks_encodeTick_append entry.1 (nonempty entry (List.mem_cons_self ..)) read ?_
    intro next isNext same
    exact apart next (List.mem_of_mem_head? isNext) same.symm

end MeshControl.SendBuffer
