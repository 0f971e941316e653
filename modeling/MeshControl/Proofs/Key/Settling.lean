import Mathlib.Data.Nat.Log
import MeshControl.Proofs.Key.Counting

/-!
# Settling on keys

`Allocation.resolve` compares a base key and a prefix in one test under a mask. Bit by bit the test
says two things (`validate_eq_ok_iff`): the base key has no bits of channel numbers, and the prefix
adds none to the others. So what it accepts are the settings that agree (`Consistent`), and putting
the prefix over a key keeps it in its block (`Pattern.covers_or`).

Routing assigns keys afterwards, of which the first counts, and only for a source that has none
(`routed`).
-/

namespace MeshControl.Key

/-! ## A prefix over the keys of a block -/

theorem bits_or (word other : UInt32) (place : Fin 32) :
    bits (word ||| other) place = (bits word place || bits other place) := by
  rw [bits, UInt32.toNat_or, Nat.testBit_or, bits, bits]

theorem eq_iff_bits {word other : UInt32} :
    word = other ↔ ∀ place, bits word place = bits other place := by
  rw [← bits_injective.eq_iff, funext_iff]

/-- **What the test under a mask compares.** -/
theorem validate_eq_ok_iff {key mask overlay : UInt32} :
    validate key mask overlay = .ok () ↔
      (∀ place, bits mask place = false → bits key place = false) ∧
        ∀ place, bits mask place = true → bits overlay place = true → bits key place = true := by
  have test : validate key mask overlay = .ok () ↔ (key ||| overlay) &&& mask = key := by
    unfold validate
    split
    · exact iff_of_true rfl ‹_›
    · exact iff_of_false nofun ‹_›
  rw [test, eq_iff_bits, ← forall_and]
  apply forall_congr'
  intro place
  rw [bits_and, bits_or]
  cases bits mask place with
  | false => cases bits key place <;> simp
  | true => cases bits key place <;> simp

/-- A key stays covered under bits that the base key has wherever the mask compares. -/
theorem Pattern.covers_or {pattern : Pattern} {overlay : UInt32}
    (within : ∀ place, bits pattern.mask place = true → bits overlay place = true →
      bits pattern.key place = true) {received : Key}
    (covered : pattern.covers received = true) : pattern.covers (received ||| overlay) = true := by
  rw [covers_iff_bits] at covered ⊢
  intro place compared
  rw [bits_or, covered place compared, Bool.or_eq_left_iff_imp]
  exact within place compared

theorem Block.exists_ofCount_iff {count : Nat} :
    (∃ block, ofCount count = .ok block) ↔ 1 ≤ count ∧ count ≤ spaceSize := by
  unfold ofCount
  split
  · exact iff_of_false nofun (by omega)
  · refine iff_of_true ?_ (by omega)
    split
    · exact ⟨_, rfl⟩
    · exact ⟨_, rfl⟩

/-- A block for `count` keys frees the bits of a channel number. -/
theorem Block.ofCount_frees_clog {count : Nat} {block : Block} (ok : ofCount count = .ok block) :
    Frees block.mask (Nat.clog 2 count) := by
  obtain ⟨width, frees, room, tight⟩ := ofCount_frees ok
  have least : Nat.clog 2 count = width := by
    apply Nat.le_antisymm (Nat.clog_le_of_le_pow room)
    by_contra less
    rw [Nat.not_le] at less
    have enough := Nat.le_pow_clog (b := 2) (by omega) count
    have half := Nat.pow_le_pow_right (n := 2) (by omega) less
    rw [Nat.pow_succ] at half
    omega
  rwa [least]

/-! ## Where a prefix lies -/

/-- The number that a prefix makes within a key. The upper half counts 65536 times as much. -/
def HalfPrefix.value (halfPrefix : HalfPrefix) : Nat :=
  match halfPrefix.half with
  | .lower => halfPrefix.bits.toNat
  | .upper => halfPrefix.bits.toNat * 65536

theorem HalfPrefix.toNat_positioned (halfPrefix : HalfPrefix) :
    halfPrefix.positioned.toNat = halfPrefix.value := by
  obtain ⟨word, half⟩ := halfPrefix
  have small : word.toNat < 65536 := word.toNat_lt
  cases half with
  | lower => exact UInt16.toNat_toUInt32 word
  | upper =>
    show (word.toUInt32 <<< 16).toNat = word.toNat * 65536
    rw [UInt32.toNat_shiftLeft, UInt16.toNat_toUInt32, Nat.shiftLeft_eq]
    show word.toNat * 65536 % 4294967296 = word.toNat * 65536
    omega

theorem bits_positioned (halfPrefix : HalfPrefix) (place : Fin 32) :
    bits halfPrefix.positioned place = halfPrefix.value.testBit place := by
  rw [bits, halfPrefix.toNat_positioned]

namespace Allocation

/-! ## What is accepted -/

/-- Settings that agree. The low bits of a key, as many as it takes to number `count` channels, are
those of the channel. -/
structure Consistent (count : Nat) (key : Option Key) (halfPrefix : Option HalfPrefix) : Prop where
  some : 1 ≤ count
  few : count ≤ spaceSize
  /-- Next to a prefix the base key has no bits of channels. -/
  clear : ∀ base ∈ key, ∀ _ ∈ halfPrefix, ∀ place : Fin 32,
    place < Nat.clog 2 count → bits base place = false
  /-- Of the other bits the prefix has none that the base key lacks. -/
  within : ∀ base ∈ key, ∀ given ∈ halfPrefix, ∀ place : Fin 32,
    Nat.clog 2 count ≤ place → given.value.testBit place = true → bits base place = true

/-- What the settings of a source with the given block come to. -/
def settled (count : Nat) (block : Block) (key : Option Key) (halfPrefix : Option HalfPrefix) :
    Allocation :=
  ⟨count, key.map fun base => ⟨base, block.mask⟩,
    (halfPrefix.map HalfPrefix.overlay).or (key.map fun base => ⟨base, .upper⟩)⟩

variable {count : Nat} {key : Option Key} {halfPrefix : Option HalfPrefix} {block : Block}

/-- Without a base key the prefix alone counts. -/
theorem settled_none :
    settled count block none halfPrefix = ⟨count, none, halfPrefix.map HalfPrefix.overlay⟩ := by
  rw [settled, Option.map_none, Option.map_none, Option.or_none]

theorem resolve_eq_ok_iff {allocation : Allocation} :
    resolve count key halfPrefix = .ok allocation ↔
      ∃ block, Block.ofCount count = .ok block ∧
        (∀ base ∈ key, ∀ given ∈ halfPrefix,
          validate base block.mask given.positioned = .ok ()) ∧
        settled count block key halfPrefix = allocation := by
  constructor
  · intro ok
    obtain ⟨block, made, ok⟩ := exists_of_bind_eq_ok ok
    refine ⟨block, made, ?_⟩
    cases key with
    | none =>
      cases ok
      exact ⟨nofun, settled_none⟩
    | some base =>
      cases halfPrefix with
      | none =>
        cases ok
        exact ⟨nofun, rfl⟩
      | some given =>
        obtain ⟨_, agrees, ok⟩ := exists_of_bind_eq_ok ok
        cases ok
        refine ⟨?_, rfl⟩
        rintro _ ⟨⟩ _ ⟨⟩
        exact agrees
  · rintro ⟨block, made, agrees, rfl⟩
    rw [resolve, made]
    cases key with
    | none =>
      rw [settled_none]
      rfl
    | some base =>
      cases halfPrefix with
      | none => rfl
      | some given =>
        have passes := agrees base rfl given rfl
        show (validate base block.mask given.positioned >>= fun _ => _) = _
        rw [passes]
        rfl

/-- The test passes if the settings agree. -/
theorem consistent_iff (made : Block.ofCount count = .ok block) :
    Consistent count key halfPrefix ↔ ∀ base ∈ key, ∀ given ∈ halfPrefix,
      validate base block.mask given.positioned = .ok () := by
  have free := (Block.ofCount_frees_clog made).bits_eq_false_iff
  have counted : 1 ≤ count ∧ count ≤ spaceSize := Block.exists_ofCount_iff.1 ⟨block, made⟩
  have compared : ∀ place : Fin 32, bits block.mask place = true ↔ Nat.clog 2 count ≤ place := by
    intro place
    rw [← Bool.not_eq_false, free, Nat.not_lt]
  simp only [validate_eq_ok_iff, bits_positioned, free, compared]
  constructor
  · intro agree base isKey given isPrefix
    exact ⟨agree.clear base isKey given isPrefix, agree.within base isKey given isPrefix⟩
  · intro agree
    refine ⟨counted.1, counted.2, ?_, ?_⟩
    · intro base isKey given isPrefix
      exact (agree base isKey given isPrefix).1
    · intro base isKey given isPrefix
      exact (agree base isKey given isPrefix).2

/-- **Which settings are accepted.** -/
theorem consistent_iff_exists_ok :
    Consistent count key halfPrefix ↔
      ∃ allocation, resolve count key halfPrefix = .ok allocation := by
  constructor
  · intro agree
    obtain ⟨block, made⟩ := Block.exists_ofCount_iff.2 ⟨agree.some, agree.few⟩
    exact ⟨_, resolve_eq_ok_iff.2 ⟨block, made, (consistent_iff made).1 agree, rfl⟩⟩
  · rintro ⟨allocation, ok⟩
    obtain ⟨block, made, agrees, -⟩ := resolve_eq_ok_iff.1 ok
    exact (consistent_iff made).2 agrees

/-! ## What it comes to -/

/-- The fields of an allocation that was accepted, by what was asked for. -/
structure Settled (count : Nat) (key : Option Key) (halfPrefix : Option HalfPrefix)
    (allocation : Allocation) : Prop where
  count_eq : allocation.count = count
  base : allocation.pattern.map Pattern.key = key
  /-- There is a mask if and only if there is a base key. It is that of the block. -/
  mask : ∃ block, Block.ofCount count = .ok block ∧ Frees block.mask (Nat.clog 2 count) ∧
    allocation.pattern.map Pattern.mask = key.map fun _ => block.mask
  /-- The prefix at its place, or else the base key. -/
  overlay : (allocation.overlay.map fun overlay => overlay.bits.toNat) =
    (halfPrefix.map HalfPrefix.value).or (key.map UInt32.toNat)
  /-- There is a half if and only if there is something to put over keys. -/
  half : allocation.overlay.map Overlay.half =
    (halfPrefix.map HalfPrefix.half).or (key.map fun _ => .upper)
  /-- What is put over a key of the block leaves it in the block. -/
  stays : ∀ pattern ∈ allocation.constraint, ∀ overlay ∈ allocation.overlay, ∀ received,
    pattern.covers received = true → pattern.covers (received ||| overlay.bits) = true

/-- An overlay adds no bits to the base key where the mask compares. -/
theorem settled_within
    (agrees : ∀ base ∈ key, ∀ given ∈ halfPrefix,
      validate base block.mask given.positioned = .ok ())
    {pattern : Pattern} (found : pattern ∈ (settled count block key halfPrefix).pattern)
    {overlay : Overlay} (put : overlay ∈ (settled count block key halfPrefix).overlay)
    (place : Fin 32) (compared : bits pattern.mask place = true)
    (set : bits overlay.bits place = true) : bits pattern.key place = true := by
  obtain ⟨base, rfl, rfl⟩ := Option.map_eq_some_iff.1 found
  cases halfPrefix with
  | none =>
    cases put
    exact set
  | some given =>
    cases put
    exact (validate_eq_ok_iff.1 (agrees base rfl given rfl)).2 place compared set

theorem settled_of_resolve {allocation : Allocation}
    (ok : resolve count key halfPrefix = .ok allocation) :
    Settled count key halfPrefix allocation := by
  obtain ⟨block, made, agrees, rfl⟩ := resolve_eq_ok_iff.1 ok
  refine
    { count_eq := rfl
      base := ?_
      mask := ⟨block, made, Block.ofCount_frees_clog made, ?_⟩
      overlay := ?_
      half := ?_
      stays := ?_ }
  · cases key <;> rfl
  · cases key <;> rfl
  · cases halfPrefix with
    | none => cases key <;> rfl
    | some given => exact congrArg some given.toNat_positioned
  · cases key <;> cases halfPrefix <;> rfl
  · intro pattern found overlay put received covered
    exact Pattern.covers_or (settled_within agrees found put) covered

/-! ## Keys that routing assigns -/

/-- What any number of assignments make of an allocation. Only the first counts, and only as far as
nothing is known: a base key stays with its mask, and so does a prefix. -/
structure Routed (allocation : Allocation) (assigned : List Pattern) (result : Allocation) :
    Prop where
  count_eq : result.count = allocation.count
  pattern : result.pattern = allocation.pattern.or assigned.head?
  overlay : result.overlay =
    allocation.overlay.or (assigned.head?.map fun first => ⟨first.key, .upper⟩)

/-- Once there is a base key, routing changes nothing. -/
theorem foldl_route_of_some {allocation : Allocation} {fixed : Pattern}
    (known : allocation.pattern = some fixed) (assigned : List Pattern) :
    assigned.foldl route allocation = allocation := by
  induction assigned with
  | nil => rfl
  | cons first rest ih =>
    have same : allocation.route first = allocation := by
      rw [route, known]
    rw [List.foldl_cons, same, ih]

theorem settled_routed (assigned : List Pattern) :
    Routed (settled count block key halfPrefix) assigned
      (assigned.foldl route (settled count block key halfPrefix)) := by
  cases key with
  | some base =>
    rw [foldl_route_of_some rfl]
    refine ⟨rfl, rfl, ?_⟩
    cases halfPrefix <;> rfl
  | none =>
    cases assigned with
    | nil => exact ⟨rfl, rfl, (Option.or_none ..).symm⟩
    | cons first rest =>
      have kept : rest.foldl route ((settled count block none halfPrefix).route first) =
          (settled count block none halfPrefix).route first := foldl_route_of_some rfl rest
      rw [List.foldl_cons, kept]
      refine ⟨rfl, rfl, ?_⟩
      cases halfPrefix <;> rfl

/-- **Keys are settled if and only if the settings agree.** What comes out has the base key that was
asked for, with the mask of the block, and its prefix puts no key of the block outside it. However
often routing assigns a key afterwards, the first one fills in what is missing. -/
theorem resolve_settles (count : Nat) (key : Option Key) (halfPrefix : Option HalfPrefix) :
    (Consistent count key halfPrefix ↔
      ∃ allocation, resolve count key halfPrefix = .ok allocation) ∧
      ∀ allocation, resolve count key halfPrefix = .ok allocation →
        Settled count key halfPrefix allocation ∧
          ∀ assigned, Routed allocation assigned (assigned.foldl route allocation) := by
  refine ⟨consistent_iff_exists_ok, ?_⟩
  intro allocation ok
  refine ⟨settled_of_resolve ok, ?_⟩
  intro assigned
  obtain ⟨block, -, -, rfl⟩ := resolve_eq_ok_iff.1 ok
  exact settled_routed assigned

/-- A prefix in either half. In the upper one it is that of the base key itself, and a single key has
no bits to spare. In the lower one it sets two bits of every channel number of five keys: a key of
the block stays in it, and later assignments change nothing. -/
theorem resolve_settles_halves :
    resolve 1 (some 0x12340000) (some ⟨0x1234, .upper⟩) =
        .ok ⟨1, some ⟨0x12340000, 0xFFFFFFFF⟩, some ⟨0x12340000, .upper⟩⟩ ∧
      Consistent 1 (some 0x12340000) (some ⟨0x1234, .upper⟩) ∧
      ¬ Consistent 1 (some 0x12340000) (some ⟨0x1234, .lower⟩) ∧
      resolve 5 (some 0x12340000) (some ⟨5, .lower⟩) =
        .ok ⟨5, some ⟨0x12340000, 0xFFFFFFF8⟩, some ⟨5, .lower⟩⟩ ∧
      Pattern.covers ⟨0x12340000, 0xFFFFFFF8⟩ (0x12340002 ||| 5) = true ∧
      ([⟨0x800, 0xFFFFFFFC⟩, ⟨0, 0⟩].foldl route
        ⟨5, some ⟨0x12340000, 0xFFFFFFF8⟩, some ⟨5, .lower⟩⟩).pattern =
          some ⟨0x12340000, 0xFFFFFFF8⟩ := by
  have upper : resolve 1 (some 0x12340000) (some ⟨0x1234, .upper⟩) =
      .ok ⟨1, some ⟨0x12340000, 0xFFFFFFFF⟩, some ⟨0x12340000, .upper⟩⟩ := by decide
  have refused : resolve 1 (some 0x12340000) (some ⟨0x1234, .lower⟩) =
      .error (.configuration (.keyConflict 0x12340000 0xFFFFFFFF 0x1234)) := by decide
  have lower : resolve 5 (some 0x12340000) (some ⟨5, .lower⟩) =
      .ok ⟨5, some ⟨0x12340000, 0xFFFFFFF8⟩, some ⟨5, .lower⟩⟩ := by decide
  have agree := (resolve_settles 1 (some 0x12340000) (some ⟨0x1234, .upper⟩)).1.2 ⟨_, upper⟩
  have clash : ¬ Consistent 1 (some 0x12340000) (some ⟨0x1234, .lower⟩) := by
    intro consistent
    obtain ⟨allocation, ok⟩ := (resolve_settles 1 _ _).1.1 consistent
    rw [refused] at ok
    cases ok
  obtain ⟨settled, routed⟩ := (resolve_settles 5 (some 0x12340000) (some ⟨5, .lower⟩)).2 _ lower
  exact ⟨upper, agree, clash, lower, settled.stays _ rfl _ rfl 0x12340002 (by decide),
    (routed _).pattern⟩

end Allocation

end MeshControl.Key
