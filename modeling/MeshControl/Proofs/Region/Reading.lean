import MeshControl.Proofs.Action
import MeshControl.Proofs.Region.Locating

/-!
# Reads of a look-up

A look-up through a pointer table reads two words. It answers only if both reads answered, each
with as many bytes as it was asked for (`Locator.runOn_readPointer_eq_ok_iff`), and whatever is
read from memory is read as it was stored (`Machine.runOn_read_of_inMemory`).
-/

namespace MeshControl

namespace Transport

variable {σ : Type} [Transport σ] {chip : Chip} {address : UInt32} {length : Nat}
  {state next : σ}

/-- The answer has as many bytes as were asked for. -/
def Exact (answer : Except Fault Bytes) (length : Nat) : Prop :=
  ∃ data, answer = .ok data ∧ data.length = length

/-- The word of an answer. -/
def wordOf : Except Fault Bytes → UInt32
  | .ok data => (Bytes.words data).headD 0
  | .error _ => 0

theorem runOn_readExact_eq_ok_iff {data : Bytes} :
    (readExact chip address length).runOn state = (.ok data, next) ↔
      (read chip address length).runOn state = (.ok data, next) ∧ data.length = length := by
  rw [readExact, Action.runOn_bind]
  rcases ran : (read chip address length).runOn state with ⟨fault | answer, reached⟩
  · rw [Action.runOn_mapFault_of_error ran]
    simp
  · rw [Action.runOn_mapFault_of_ok ran]
    by_cases full : answer.length = length
    · simp only [full, if_true, Action.runOn_pure, Prod.mk.injEq, Except.ok.injEq]
      exact ⟨fun same => ⟨same, same.1 ▸ full⟩, fun same => same.1⟩
    · simp only [full, if_false, Action.runOn_throw, Prod.mk.injEq, Except.ok.injEq]
      constructor
      · rintro ⟨same, -⟩
        cases same
      · rintro ⟨⟨rfl, -⟩, length⟩
        exact absurd length full

theorem runOn_readWord_eq_ok_iff {word : UInt32} :
    (readWord chip address).runOn state = (.ok word, next) ↔
      ∃ data, (read chip address 4).runOn state = (.ok data, next) ∧ data.length = 4 ∧
        word = wordOf (.ok data) := by
  constructor
  · intro ran
    obtain ⟨data, reached, answered, rest⟩ := Action.exists_of_runOn_bind ran
    cases rest
    obtain ⟨answered, full⟩ := runOn_readExact_eq_ok_iff.1 answered
    exact ⟨data, answered, full, rfl⟩
  · rintro ⟨data, answered, full, rfl⟩
    rw [readWord, Action.runOn_bind, runOn_readExact_eq_ok_iff.2 ⟨answered, full⟩]
    rfl

end Transport

namespace Locator

open Transport

variable {σ : Type} [Transport σ] {core : Core} {region : RegionId} {base address : UInt32}
  {state next : σ}

/-- **A pointer is found** if both words were read, the first is the magic number and the second is
not 0. -/
theorem runOn_readPointer_eq_ok_iff :
    (readPointer core region base).runOn state = (.ok address, next) ↔
      ∃ between, (readWord core.chip base).runOn state = (.ok PointerTable.magic, between) ∧
        (readWord core.chip (base + PointerTable.offset region)).runOn between =
          (.ok address, next) ∧ address ≠ 0 := by
  constructor
  · intro ran
    obtain ⟨magic, between, opened, ran⟩ := Action.exists_of_runOn_bind ran
    by_cases wrong : magic ≠ PointerTable.magic
    · rw [if_pos wrong] at ran
      cases ran
    · rw [if_neg wrong] at ran
      obtain ⟨pointer, reached, looked, ran⟩ := Action.exists_of_runOn_bind ran
      by_cases zero : pointer = 0
      · rw [if_pos zero] at ran
        cases ran
      · rw [if_neg zero] at ran
        cases ran
        exact ⟨between, not_not.1 wrong ▸ opened, looked, zero⟩
  · rintro ⟨between, opened, looked, nonzero⟩
    rw [readPointer, Action.runOn_bind, opened]
    dsimp only
    rw [if_neg (not_not.2 rfl), Action.runOn_bind, looked]
    dsimp only
    rw [if_neg nonzero]
    rfl

theorem locate_eq_ok_iff {bases : OrderedMap Core UInt32} (based : bases.get? core = some base) :
    (locate (pointerTables bases) core region).runOn state = (.ok address, next) ↔
      region < RegionId.limit ∧
        (readPointer core region base).runOn state = (.ok address, next) := by
  rw [locate, based]
  by_cases listed : region < RegionId.limit
  · simp [listed]
  · simp [listed]

end Locator

namespace Machine

/-- A read of memory answers with what is there. -/
theorem runOn_read_of_inMemory {chip : Chip} {address : UInt32} {length : Nat} {machine : Machine}
    (inside : inMemory address length = true) :
    (Transport.read chip address length).runOn machine =
      (.ok (machine.memory.read chip address.toNat length),
        machine.logged (.read chip address length)) :=
  if_pos inside

theorem runOn_readWord_of_inMemory {chip : Chip} {address : UInt32} {machine : Machine}
    (inside : inMemory address 4 = true) :
    (Transport.readWord chip address).runOn machine =
      (.ok (machine.memory.wordAt chip address), machine.logged (.read chip address 4)) :=
  Transport.runOn_readWord_eq_ok_iff.2
    ⟨_, runOn_read_of_inMemory inside, Memory.length_read .., rfl⟩

end Machine

end MeshControl
