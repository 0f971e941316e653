import MeshControl.Machine.Basic
import MeshControl.Proofs.Action
import MeshControl.Proofs.Machine.Memory

/-!
# Reads and writes of a machine

What the two accesses to memory do on a machine in software. A write may be short, so it
changes at most the bytes it names; the host checks the acknowledged count, so a write that it
reports as done is in memory in full (`writeBytes_effect`).
-/

namespace MeshControl.Machine

/-- A write is refused, or it stores the bytes it acknowledges. -/
theorem runOn_write (chip : Chip) (address : UInt32) (data : Bytes) (machine : Machine) :
    (inMemory address data.length = false ∧
      (Transport.write chip address data).runOn machine =
        (.error (outsideFault address data.length), machine)) ∨
    (inMemory address data.length = true ∧ ∃ accepted after,
      (Transport.write chip address data).runOn machine = (.ok accepted, after) ∧
        accepted ≤ data.length ∧
        after.memory = machine.memory.write chip address.toNat (data.take accepted)) := by
  show (_ ∧ Machine.write chip address data machine = _) ∨
    (_ ∧ ∃ accepted after, Machine.write chip address data machine = _ ∧ _ ∧ _)
  unfold Machine.write
  cases inside : inMemory address data.length with
  | false => exact .inl ⟨rfl, rfl⟩
  | true =>
    refine .inr ⟨rfl, _, _, rfl, ?_, rfl⟩
    split
    · exact Nat.div_le_self _ _
    · exact Nat.le_refl _

/-- A read answers with what is in memory, if anything, and changes no memory. -/
theorem runOn_read (chip : Chip) (address : UInt32) (length : Nat) (machine : Machine) :
    ((Transport.read chip address length).runOn machine).2.memory = machine.memory ∧
      ((Transport.read chip address length).runOn machine).1 =
        if inMemory address length then .ok (machine.memory.read chip address.toNat length)
        else .error (outsideFault address length) := by
  show (Machine.read chip address length machine).2.memory = _ ∧
    (Machine.read chip address length machine).1 = _
  unfold Machine.read
  cases inMemory address length with
  | false => exact ⟨rfl, rfl⟩
  | true => exact ⟨rfl, rfl⟩

theorem read_of_holds {chip : Chip} {address : UInt32} {data : Bytes} {machine : Machine}
    (inside : inMemory address data.length = true)
    (holds : machine.memory.Holds chip address.toNat data) :
    ((Transport.read chip address data.length).runOn machine).1 = .ok data := by
  rw [(runOn_read chip address data.length machine).2, if_pos inside, holds]

theorem holds_of_read {chip : Chip} {address : UInt32} {data : Bytes} {machine : Machine}
    (read : ((Transport.read chip address data.length).runOn machine).1 = .ok data) :
    machine.memory.Holds chip address.toNat data := by
  rw [(runOn_read chip address data.length machine).2] at read
  by_cases inside : inMemory address data.length = true
  · rw [if_pos inside] at read
    exact Except.ok.inj read
  · rw [if_neg inside] at read
    cases read

/-- **What a checked write does.** -/
theorem writeBytes_effect (core : Core) (region : Option RegionId) (address : UInt32)
    (data : Bytes) (machine : Machine) :
    let ran := (Site.writeBytes core region address data).runOn machine
    Memory.SameOutside core.chip address.toNat (address.toNat + data.length)
        machine.memory ran.2.memory ∧
      ∀ count, ran.1 = .ok count →
        count = data.length ∧ inMemory address data.length = true ∧
          ran.2.memory.Holds core.chip address.toNat data := by
  rw [Site.writeBytes, Action.runOn_bind]
  obtain ⟨-, refused⟩ | ⟨inside, accepted, after, wrote, few, memory⟩ :=
    runOn_write core.chip address data machine
  · rw [Action.runOn_mapFault_of_error refused]
    constructor
    · apply Memory.SameOutside.refl
    · intro count answered
      cases answered
  rw [Action.runOn_mapFault_of_ok wrote]
  have narrow : Memory.SameOutside core.chip address.toNat (address.toNat + data.length)
      machine.memory after.memory := by
    rw [memory]
    apply (Memory.sameOutside_write _ _ _ _).mono (Nat.le_refl _)
    rw [List.length_take]
    omega
  by_cases full : accepted = data.length
  · simp only [full, if_true, Action.runOn_pure]
    refine ⟨narrow, ?_⟩
    intro count answered
    cases answered
    refine ⟨rfl, inside, ?_⟩
    rw [memory, full, List.take_length]
    exact Memory.holds_write ..
  · simp only [full, if_false, Action.runOn_throw]
    refine ⟨narrow, ?_⟩
    intro count answered
    cases answered

end MeshControl.Machine
