import MeshControl.Proofs.Bytes
import MeshControl.Proofs.Machine.Access
import MeshControl.Proofs.Region.Layout

/-!
# Finding regions on a machine

Looking a region up changes no memory. The address that is found is the one that was recorded,
or the one that the pointer table of the layout holds.
-/

namespace MeshControl

@[simp] theorem RegionLayout.length_tableBytes (layout : RegionLayout) :
    layout.tableBytes.length = PointerTable.size := by
  rw [tableBytes, Bytes.length_ofWords, List.length_cons, List.length_cons, pointers,
    List.length_map, List.length_range]
  rfl

/-- Part of what was read. -/
theorem Machine.Memory.read_part (memory : Memory) (chip : Chip) (address length : Nat)
    {offset count : Nat} (inside : offset + count ≤ length) :
    memory.read chip (address + offset) count =
      ((memory.read chip address length).drop offset).take count := by
  rw [read_eq_map, read_eq_map]
  apply List.ext_getElem
  · simp only [List.length_map, List.length_range, List.length_take, List.length_drop]
    omega
  intro i inPart inWhole
  simp only [List.getElem_map, List.getElem_range, List.getElem_take, List.getElem_drop]
  rw [Nat.add_assoc]

/-- The place of a pointer in a table below the end of the address space. -/
theorem PointerTable.toNat_add_offset {base : UInt32} {id : RegionId}
    (bounded : base.toNat + size < UInt32.size) (small : id.toNat < 16) :
    (base + offset id).toNat = base.toNat + (8 + 4 * id.toNat) := by
  have bytes : size = 72 := rfl
  have place : (offset id).toNat = 8 + 4 * id.toNat := by
    rw [offset, UInt32.toNat_add, UInt32.toNat_mul, UInt8.toNat_toUInt32]
    rw [show (8 : UInt32).toNat = 8 from rfl, show (4 : UInt32).toNat = 4 from rfl]
    omega
  have limit : UInt32.size = 2 ^ 32 := rfl
  rw [UInt32.toNat_add, place]
  omega

/-- The word at an address. -/
def Machine.Memory.wordAt (memory : Memory) (chip : Chip) (address : UInt32) : UInt32 :=
  (Bytes.words (memory.read chip address.toNat 4)).headD 0

namespace RegionLayout

/-- The pointer of a region stands at its offset. -/
theorem tableBytes_pointer (layout : RegionLayout) {id : RegionId} (small : id.toNat < 16) :
    (layout.tableBytes.drop (8 + 4 * id.toNat)).take 4 =
      Bytes.ofWord ((layout.addresses.get? id).getD 0) := by
  have length : layout.pointers.length = 16 := by
    rw [pointers, List.length_map, List.length_range]
    rfl
  have here : id.toNat < layout.pointers.length := by omega
  have pointer : layout.pointers[id.toNat] = (layout.addresses.get? id).getD 0 := by
    simp only [pointers, List.getElem_map, List.getElem_range, UInt8.ofNat_toNat]
  have split : layout.pointers = layout.pointers.take id.toNat ++
      (layout.addresses.get? id).getD 0 :: layout.pointers.drop (id.toNat + 1) := by
    rw [← pointer, ← List.drop_eq_getElem_cons here, List.take_append_drop]
  have words := Bytes.take_drop_ofWords
    (PointerTable.magic :: PointerTable.version :: layout.pointers.take id.toNat)
    ((layout.addresses.get? id).getD 0) (layout.pointers.drop (id.toNat + 1))
  have before : (PointerTable.magic :: PointerTable.version ::
      layout.pointers.take id.toNat).length = 2 + id.toNat := by
    rw [List.length_cons, List.length_cons, List.length_take]
    omega
  rw [before, List.cons_append, List.cons_append, ← split] at words
  rw [show 8 + 4 * id.toNat = 4 * (2 + id.toNat) by omega]
  exact words

variable {layout : RegionLayout} {memory : Machine.Memory} {chip : Chip} {base : UInt32}

/-- A word of a table in memory. -/
theorem wordAt_table (table : memory.Holds chip base.toNat layout.tableBytes) {address word : UInt32}
    {offset : Nat} (place : address.toNat = base.toNat + offset)
    (inside : offset + 4 ≤ PointerTable.size)
    (stored : (layout.tableBytes.drop offset).take 4 = Bytes.ofWord word) :
    memory.wordAt chip address = word := by
  rw [Machine.Memory.Holds, layout.length_tableBytes] at table
  rw [Machine.Memory.wordAt, place, memory.read_part chip base.toNat PointerTable.size inside, table,
    stored, ← Bytes.ofWords_singleton, Bytes.words_ofWords]
  rfl

/-- A table in memory opens with its magic number. -/
theorem wordAt_magic (table : memory.Holds chip base.toNat layout.tableBytes) :
    memory.wordAt chip base = PointerTable.magic :=
  wordAt_table table (Nat.add_zero _).symm (by decide)
    (Bytes.take_drop_ofWords [] PointerTable.magic (PointerTable.version :: layout.pointers))

/-- A table in memory holds the address of every region it has, and 0 for the others. -/
theorem wordAt_pointer (table : memory.Holds chip base.toNat layout.tableBytes)
    (bounded : base.toNat + PointerTable.size < UInt32.size) {id : RegionId}
    (small : id.toNat < 16) :
    memory.wordAt chip (base + PointerTable.offset id) = (layout.addresses.get? id).getD 0 := by
  apply wordAt_table table (PointerTable.toNat_add_offset bounded small) _
    (layout.tableBytes_pointer small)
  rw [show PointerTable.size = 72 from rfl]
  omega

end RegionLayout

/-- **Reading a word.** It changes no memory, and answers with the word that is there wherever
there is memory. -/
theorem Transport.readWord_effect (chip : Chip) (address : UInt32) (machine : Machine) :
    let ran := (readWord chip address).runOn machine
    ran.2.memory = machine.memory ∧
      (Machine.inMemory address 4 = true → ran.1 = .ok (machine.memory.wordAt chip address)) ∧
      ∀ word, ran.1 = .ok word → word = machine.memory.wordAt chip address := by
  obtain ⟨memory, answer⟩ := Machine.runOn_read chip address 4 machine
  rw [readWord, readExact, Action.runOn_bind, Action.runOn_bind]
  rcases ran : (read chip address 4).runOn machine with ⟨result, after⟩
  rw [ran] at memory answer
  dsimp only at memory answer
  by_cases inside : Machine.inMemory address 4 = true
  · rw [if_pos inside] at answer
    rw [answer] at ran
    have length := machine.memory.length_read chip address.toNat 4
    rw [Action.runOn_mapFault_of_ok ran]
    simp only [length, if_true, Action.runOn_pure]
    exact ⟨memory, fun _ => rfl, fun word answered => (Except.ok.inj answered).symm⟩
  · rw [if_neg inside] at answer
    rw [answer] at ran
    rw [Action.runOn_mapFault_of_error ran]
    exact ⟨memory, fun there => absurd there inside, fun word answered => nomatch answered⟩

namespace Locator

/-- A look-up leaves memory alone, and finds no other address than `address`. -/
structure Finds (locator : Locator) (core : Core) (id : RegionId) (address : UInt32)
    (machine : Machine) : Prop where
  memory : ((locator.locate core id).runOn machine).2.memory = machine.memory
  only : ∀ found, ((locator.locate core id).runOn machine).1 = .ok found → found = address

theorem finds_known {addresses : OrderedMap (Core × RegionId) UInt32} {core : Core}
    {id : RegionId} {address : UInt32} (recorded : addresses.get? (core, id) = some address)
    (machine : Machine) : (known addresses).Finds core id address machine := by
  have located : (locate (known addresses) core id : Action Machine UInt32) = pure address := by
    rw [locate, recorded]
  constructor
  · rw [located]
    rfl
  · intro found answered
    rw [located] at answered
    exact (Except.ok.inj answered).symm

/-- **Reading a pointer.** It changes no memory. An answer is the pointer of a table with the right
magic number; where both words can be read there is an answer, unless the pointer is 0. -/
theorem readPointer_effect (core : Core) (id : RegionId) (base : UInt32) (machine : Machine) :
    let magic := machine.memory.wordAt core.chip base
    let pointer := machine.memory.wordAt core.chip (base + PointerTable.offset id)
    let ran := (readPointer core id base).runOn machine
    ran.2.memory = machine.memory ∧
      (∀ address, ran.1 = .ok address → magic = PointerTable.magic ∧ address = pointer) ∧
      (Machine.inMemory base 4 = true → Machine.inMemory (base + PointerTable.offset id) 4 = true →
        magic = PointerTable.magic →
          ran.1 = if pointer = 0 then .error (notReserved core id) else .ok pointer) := by
  intro magic pointer
  rw [readPointer, Action.runOn_bind]
  obtain ⟨memory, first, onlyFirst⟩ := Transport.readWord_effect core.chip base machine
  rcases ran : (Transport.readWord core.chip base).runOn machine with ⟨result, between⟩
  rw [ran] at memory first onlyFirst
  dsimp only at memory first onlyFirst
  cases result with
  | error fault =>
    refine ⟨memory, ?_, ?_⟩
    · intro address answered
      cases answered
    · intro inside
      cases first inside
  | ok word =>
    obtain rfl : word = magic := onlyFirst word rfl
    dsimp only
    by_cases wrong : magic ≠ PointerTable.magic
    · rw [if_pos wrong]
      refine ⟨memory, ?_, fun _ _ right => absurd right wrong⟩
      intro address answered
      cases answered
    rw [if_neg wrong, Action.runOn_bind]
    obtain ⟨same, second, onlySecond⟩ := Transport.readWord_effect core.chip
      (base + PointerTable.offset id) between
    rcases ran : (Transport.readWord core.chip (base + PointerTable.offset id)).runOn between with
      ⟨result, after⟩
    rw [ran, memory] at same second onlySecond
    dsimp only at same second onlySecond
    cases result with
    | error fault =>
      refine ⟨same, ?_, ?_⟩
      · intro address answered
        cases answered
      · intro _ inside
        cases second inside
    | ok word =>
      obtain rfl : word = pointer := onlySecond word rfl
      dsimp only
      by_cases zero : pointer = 0
      · rw [if_pos zero, if_pos zero]
        refine ⟨same, ?_, fun _ _ _ => rfl⟩
        intro address answered
        cases answered
      · rw [if_neg zero, if_neg zero]
        exact ⟨same, fun address answered =>
          ⟨not_not.1 wrong, (Except.ok.inj answered).symm⟩, fun _ _ _ => rfl⟩

theorem finds_pointerTables {bases : OrderedMap Core UInt32} {core : Core} {base : UInt32}
    {layout : RegionLayout} {id : RegionId} {address : UInt32} {machine : Machine}
    (based : bases.get? core = some base)
    (table : machine.memory.Holds core.chip base.toNat layout.tableBytes)
    (bounded : base.toNat + PointerTable.size < UInt32.size) (small : id < RegionId.limit)
    (found : layout.addresses.get? id = some address) :
    (pointerTables bases).Finds core id address machine := by
  have located : (locate (pointerTables bases) core id : Action Machine UInt32) =
      readPointer core id base := by
    rw [locate, based]
    exact if_pos small
  obtain ⟨memory, only, -⟩ := readPointer_effect core id base machine
  constructor
  · rw [located]
    exact memory
  · intro answer answered
    rw [located] at answered
    rw [(only answer answered).2,
      RegionLayout.wordAt_pointer table bounded (UInt8.lt_iff_toNat_lt.1 small), found]
    rfl

end Locator

end MeshControl
