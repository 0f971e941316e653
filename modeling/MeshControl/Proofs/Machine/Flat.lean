import MeshControl.Machine.Basic
import MeshControl.Proofs.Machine.Memory

/-!
# Paged memory refines flat memory

What a machine in software answers to reads and writes, said without pages. A `Flat` memory is the
list of what was stored; the byte at an address is the one that was stored there last. It refuses
what is not inside the memory that cores share, stores half of a write that was to be short, and
notes every access that it grants.

Every access keeps the two alike (`Refines.perform`), so they give the same answers to every
sequence of them (`paging_refines_flat`), however the writes overlap, cross from page to page or
touch the ends of memory.
-/

namespace MeshControl.Machine

/-- A read or a write of memory, or a write that is to be short when it comes. -/
inductive Access where
  | write (chip : Chip) (address : UInt32) (data : Bytes)
  | read (chip : Chip) (address : UInt32) (length : Nat)
  | shorten (chip : Chip) (address : UInt32)

/-- What an access is answered with, unless it is refused. -/
inductive Answer where
  /-- A write stored this many bytes. -/
  | stored (count : Nat)
  | bytes (data : Bytes)
  | noted

/-- What a machine makes of an access. -/
def Access.perform (machine : Machine) : Access → Except Fault Answer × Machine
  | .write chip address data =>
    let (answer, after) := (Transport.write chip address data).runOn machine
    (answer.map .stored, after)
  | .read chip address length =>
    let (answer, after) := (Transport.read chip address length).runOn machine
    (answer.map .bytes, after)
  | .shorten chip address => (.ok .noted, machine.shorten chip address)

/-- The answers to accesses in turn, and the state after them. -/
def Access.performAll {σ : Type} (perform : σ → Access → Except Fault Answer × σ) (state : σ) :
    List Access → List (Except Fault Answer) × σ
  | [] => ([], state)
  | access :: rest =>
    let (answer, next) := perform state access
    let (answers, last) := performAll perform next rest
    (answer :: answers, last)

/-! ## Flat memory -/

/-- Bytes that were stored one after the other from an address of a chip on. -/
structure Stored where
  chip : Chip
  address : Nat
  data : Bytes

/-- The byte that was stored at an address, if there is one. -/
def Stored.byte? (stored : Stored) (chip : Chip) (address : Nat) : Option UInt8 :=
  if stored.chip = chip ∧ stored.address ≤ address then stored.data[address - stored.address]?
  else none

/-- A memory without pages. -/
structure Flat where
  /-- What was stored, the latest first. -/
  stores : List Stored
  /-- Starts of writes that are to be short. -/
  pending : OrderedSet (Chip × UInt32)
  /-- The accesses that were granted, in order. -/
  log : List Operation

namespace Flat

/-- The byte that was stored last at an address, or zero if none was. -/
def byteAt (flat : Flat) (chip : Chip) (address : Nat) : UInt8 :=
  (flat.stores.findSome? fun stored => stored.byte? chip address).getD 0

/-- The range of an access is inside the memory that cores share. -/
def Inside (address : UInt32) (length : Nat) : Prop :=
  0x60000000 ≤ address.toNat ∧ address.toNat + length ≤ 0x68000000

instance (address : UInt32) (length : Nat) : Decidable (Inside address length) :=
  inferInstanceAs (Decidable (_ ∧ _))

/-- What a write stores of its bytes: the first half, rounded down, if it is to be short. -/
def kept (flat : Flat) (chip : Chip) (address : UInt32) (data : Bytes) : Bytes :=
  if flat.pending.contains (chip, address) then data.take (data.length / 2) else data

/-- What a flat memory makes of an access. -/
def perform (flat : Flat) : Access → Except Fault Answer × Flat
  | .write chip address data =>
    if Inside address data.length then
      let kept := flat.kept chip address data
      (.ok (.stored kept.length),
        { stores := ⟨chip, address.toNat, kept⟩ :: flat.stores
          pending := flat.pending.erase (chip, address)
          log := flat.log ++ [.write chip address data.length] })
    else (.error (outsideFault address data.length), flat)
  | .read chip address length =>
    if Inside address length then
      (.ok (.bytes ((List.range length).map fun i => flat.byteAt chip (address.toNat + i))),
        { flat with log := flat.log ++ [.read chip address length] })
    else (.error (outsideFault address length), flat)
  | .shorten chip address =>
    (.ok .noted, { flat with pending := flat.pending.insert (chip, address) })

theorem byteAt_store (flat : Flat) (stored : Stored) (chip : Chip) (address : Nat) :
    Flat.byteAt { flat with stores := stored :: flat.stores } chip address =
      if chip = stored.chip ∧ stored.address ≤ address ∧
          address < stored.address + stored.data.length then
        stored.data.getD (address - stored.address) 0
      else flat.byteAt chip address := by
  rw [byteAt, List.findSome?_cons]
  by_cases here : chip = stored.chip ∧ stored.address ≤ address ∧
      address < stored.address + stored.data.length
  · obtain ⟨same, low, high⟩ := here
    have found : stored.byte? chip address = some (stored.data.getD (address - stored.address) 0) := by
      rw [Stored.byte?, if_pos ⟨same.symm, low⟩, List.getD_eq_getElem?_getD,
        List.getElem?_eq_getElem (by omega), Option.getD_some]
    rw [found, if_pos ⟨same, low, high⟩, Option.getD_some]
  · have none : stored.byte? chip address = none := by
      rw [Stored.byte?]
      split
      · rename_i same
        rw [List.getElem?_eq_none]
        refine Nat.le_of_not_lt fun inside => here ⟨same.1.symm, same.2, ?_⟩
        have := same.2
        omega
      · rfl
    rw [none, if_neg here]
    rfl

end Flat

/-! ## One access -/

/-- A machine has the bytes, the pending short writes and the log of a flat memory, and for the rest
it is `base`. -/
structure Refines (base machine : Machine) (flat : Flat) : Prop where
  bytes : ∀ chip address, machine.memory.byteAt chip address = flat.byteAt chip address
  pending : machine.troubles.shortWrites = flat.pending
  log : machine.log = flat.log
  others : machine = { base with
    memory := machine.memory
    history := machine.history
    troubles := { base.troubles with shortWrites := machine.troubles.shortWrites } }

theorem inMemory_eq (address : UInt32) (length : Nat) :
    inMemory address length = decide (Flat.Inside address length) := by
  have low : memoryBase ≤ address ↔ 0x60000000 ≤ address.toNat := UInt32.le_iff_toNat_le
  rw [inMemory, decide_eq_decide.2 low]
  exact (Bool.decide_and ..).symm

theorem log_logged (machine : Machine) (operation : Operation) :
    (machine.logged operation).log = machine.log ++ [operation] :=
  List.reverse_cons

/-- How many of the bytes of a write a machine stores. -/
def accepted (machine : Machine) (chip : Chip) (address : UInt32) (data : Bytes) : Nat :=
  if machine.troubles.shortWrites.contains (chip, address) then data.length / 2 else data.length

theorem accepted_le (machine : Machine) (chip : Chip) (address : UInt32) (data : Bytes) :
    machine.accepted chip address data ≤ data.length := by
  rw [accepted]
  split
  · exact Nat.div_le_self ..
  · exact Nat.le_refl _

theorem perform_write (machine : Machine) (chip : Chip) (address : UInt32) (data : Bytes) :
    Access.perform machine (.write chip address data) =
      if Flat.Inside address data.length then
        let accepted := machine.accepted chip address data
        let shortWrites := machine.troubles.shortWrites.erase (chip, address)
        (.ok (.stored accepted),
          { machine.logged (.write chip address data.length) with
            memory := machine.memory.write chip address.toNat (data.take accepted)
            troubles := { machine.troubles with shortWrites } })
      else (.error (outsideFault address data.length), machine) := by
  change (Except.map Answer.stored (Machine.write chip address data machine).1,
    (Machine.write chip address data machine).2) = _
  rw [Machine.write, inMemory_eq]
  by_cases inside : Flat.Inside address data.length
  · rw [if_pos (decide_eq_true inside), if_pos inside]
    rfl
  · rw [if_neg (by simpa using inside), if_neg inside]
    rfl

theorem perform_read (machine : Machine) (chip : Chip) (address : UInt32) (length : Nat) :
    Access.perform machine (.read chip address length) =
      if Flat.Inside address length then
        (.ok (.bytes (machine.memory.read chip address.toNat length)),
          machine.logged (.read chip address length))
      else (.error (outsideFault address length), machine) := by
  change (Except.map Answer.bytes (Machine.read chip address length machine).1,
    (Machine.read chip address length machine).2) = _
  rw [Machine.read, inMemory_eq]
  by_cases inside : Flat.Inside address length
  · rw [if_pos (decide_eq_true inside), if_pos inside]
    rfl
  · rw [if_neg (by simpa using inside), if_neg inside]
    rfl

section Step

variable {base machine : Machine} {flat : Flat}

/-- The bytes that a write stores are those that a flat memory keeps of it. -/
theorem Refines.take_accepted (alike : Refines base machine flat) (chip : Chip) (address : UInt32)
    (data : Bytes) :
    data.take (machine.accepted chip address data) = flat.kept chip address data := by
  rw [accepted, alike.pending, Flat.kept]
  split
  · rfl
  · exact List.take_length

theorem Refines.write (alike : Refines base machine flat) (chip : Chip) (address : UInt32)
    (data : Bytes) :
    (Access.perform machine (.write chip address data)).1 =
        (flat.perform (.write chip address data)).1 ∧
      Refines base (Access.perform machine (.write chip address data)).2
        (flat.perform (.write chip address data)).2 := by
  rw [perform_write, Flat.perform]
  by_cases inside : Flat.Inside address data.length
  · rw [if_pos inside, if_pos inside]
    have kept := alike.take_accepted chip address data
    have count := congrArg List.length kept
    rw [List.length_take, Nat.min_eq_left (machine.accepted_le chip address data)] at count
    refine ⟨congrArg (Except.ok ∘ Answer.stored) count, ?_, ?_, ?_, ?_⟩
    · -- the last store covers what it wrote, and the earlier ones show through elsewhere
      intro other place
      dsimp only
      rw [kept, Memory.byteAt_write, alike.bytes]
      exact (flat.byteAt_store ⟨chip, address.toNat, _⟩ other place).symm
    · exact congrArg (·.erase (chip, address)) alike.pending
    · rw [← alike.log]
      exact machine.log_logged _
    · have others := alike.others
      rw [others]
      rfl
  · rw [if_neg inside, if_neg inside]
    exact ⟨rfl, alike⟩

theorem Refines.read (alike : Refines base machine flat) (chip : Chip) (address : UInt32)
    (length : Nat) :
    (Access.perform machine (.read chip address length)).1 =
        (flat.perform (.read chip address length)).1 ∧
      Refines base (Access.perform machine (.read chip address length)).2
        (flat.perform (.read chip address length)).2 := by
  rw [perform_read, Flat.perform]
  by_cases inside : Flat.Inside address length
  · rw [if_pos inside, if_pos inside]
    have same : machine.memory.read chip address.toNat length =
        (List.range length).map fun i => flat.byteAt chip (address.toNat + i) := by
      rw [Memory.read_eq_map]
      exact List.map_congr_left fun i _ => alike.bytes chip (address.toNat + i)
    refine ⟨congrArg (Except.ok ∘ Answer.bytes) same, alike.bytes, alike.pending, ?_, ?_⟩
    · rw [← alike.log]
      exact machine.log_logged _
    · have others := alike.others
      rw [others]
      rfl
  · rw [if_neg inside, if_neg inside]
    exact ⟨rfl, alike⟩

theorem Refines.shorten (alike : Refines base machine flat) (chip : Chip) (address : UInt32) :
    Refines base (machine.shorten chip address)
      { flat with pending := flat.pending.insert (chip, address) } := by
  refine ⟨alike.bytes, congrArg (·.insert (chip, address)) alike.pending, alike.log, ?_⟩
  have others := alike.others
  rw [others]
  rfl

/-- **Every access keeps a machine and a flat memory alike**, and both give the same answer. -/
theorem Refines.perform (alike : Refines base machine flat) (access : Access) :
    (access.perform machine).1 = (flat.perform access).1 ∧
      Refines base (access.perform machine).2 (flat.perform access).2 := by
  cases access with
  | write chip address data => exact alike.write chip address data
  | read chip address length => exact alike.read chip address length
  | shorten chip address => exact ⟨rfl, alike.shorten chip address⟩

/-- Induction on the accesses: each leaves the two alike for the next. -/
theorem Refines.performAll (alike : Refines base machine flat) (accesses : List Access) :
    (Access.performAll Access.perform machine accesses).1 =
        (Access.performAll Flat.perform flat accesses).1 ∧
      Refines base (Access.performAll Access.perform machine accesses).2
        (Access.performAll Flat.perform flat accesses).2 := by
  induction accesses generalizing machine flat with
  | nil => exact ⟨rfl, alike⟩
  | cons access rest ih =>
    obtain ⟨answer, next⟩ := alike.perform access
    obtain ⟨answers, last⟩ := ih next
    refine ⟨?_, last⟩
    rw [Access.performAll, Access.performAll]
    exact List.cons_eq_cons.2 ⟨answer, answers⟩

end Step

/-! ## Accesses that are refused, and reads -/

/-- The range of an access is inside the memory that cores share. -/
def Access.Granted : Access → Prop
  | .write _ address data => Flat.Inside address data.length
  | .read _ address length => Flat.Inside address length
  | .shorten .. => True

/-- What an access leaves of a machine, to the last field: all of it if it is refused, and all but
the log if it is a read. -/
structure Access.Leaves (machine : Machine) (access : Access) : Prop where
  refused : (∃ fault, (access.perform machine).1 = .error fault) ↔ ¬ access.Granted
  unchanged : ¬ access.Granted → (access.perform machine).2 = machine
  read : ∀ chip address length, access = .read chip address length → access.Granted →
    (access.perform machine).2 = machine.logged (.read chip address length)

theorem Access.leaves_of_refused {machine : Machine} {access : Access} {fault : Fault}
    (outside : ¬ access.Granted) (ran : access.perform machine = (.error fault, machine)) :
    access.Leaves machine where
  refused := ⟨fun _ => outside, fun _ => ⟨fault, congrArg Prod.fst ran⟩⟩
  unchanged _ := congrArg Prod.snd ran
  read _ _ _ _ granted := absurd granted outside

theorem Access.leaves_of_answered {machine after : Machine} {access : Access} {answer : Answer}
    (granted : access.Granted) (ran : access.perform machine = (.ok answer, after))
    (read : ∀ chip address length, access = .read chip address length →
      after = machine.logged (.read chip address length)) : access.Leaves machine where
  refused := by
    refine ⟨?_, absurd granted⟩
    rintro ⟨fault, refused⟩
    rw [ran] at refused
    cases refused
  unchanged outside := absurd granted outside
  read chip address length same _ := by
    rw [ran]
    exact read chip address length same

theorem Access.leaves (machine : Machine) (access : Access) : access.Leaves machine := by
  cases access with
  | write chip address data =>
    have ran := perform_write machine chip address data
    by_cases inside : Flat.Inside address data.length
    · rw [if_pos inside] at ran
      exact leaves_of_answered inside ran nofun
    · rw [if_neg inside] at ran
      exact leaves_of_refused inside ran
  | read chip address length =>
    have ran := perform_read machine chip address length
    by_cases inside : Flat.Inside address length
    · rw [if_pos inside] at ran
      refine leaves_of_answered inside ran ?_
      intro _ _ _ same
      cases same
      rfl
    · rw [if_neg inside] at ran
      exact leaves_of_refused inside ran
  | shorten chip address => exact leaves_of_answered trivial rfl nofun

/-! ## Every sequence of accesses -/

/-- **Paged memory refines flat memory.** On a machine whose memory was never written, with any
short writes to come, every sequence of reads and writes is answered as a flat memory answers it,
and the two are alike after it; the next access is refused exactly if it is not inside the memory
that cores share, and then it leaves the machine as it is. -/
theorem paging_refines_flat (machine : Machine) (accesses : List Access) :
    let start : Machine := { machine with memory := .blank }
    let flat : Flat := ⟨[], machine.troubles.shortWrites, machine.log⟩
    let paged := Access.performAll Access.perform start accesses
    let plain := Access.performAll Flat.perform flat accesses
    paged.1 = plain.1 ∧ Refines start paged.2 plain.2 ∧ ∀ access, Access.Leaves paged.2 access := by
  intro start flat paged plain
  have alike : Refines start start flat := ⟨Memory.byteAt_blank, rfl, rfl, rfl⟩
  obtain ⟨answers, after⟩ := alike.performAll accesses
  exact ⟨answers, after, Access.leaves paged.2⟩

end MeshControl.Machine
