import MeshControl.Proofs.Region.Confinement

/-!
# Two ways of finding a region

A layout that was written is found again through the pointer table in memory just as it is found
from its own addresses, for every region number, whatever is written beside the table since
(`locators_agree`). Two facts carry this: the table has an entry for every region that can be
declared (`Reached.fitsTable`), and no region lies at address 0, which in the table stands for a
region that is not there (`MemoryMap.ne_zero_of_layout`).
-/

namespace MeshControl

namespace MemoryMap

/-- The pointer table has an entry for every declared region. -/
def FitsTable (map : MemoryMap) : Prop :=
  ∀ id region, map.region? id = some region → id < RegionId.limit

theorem FitsTable.record {map : MemoryMap} (fits : map.FitsTable) {region : Region}
    (may : map.check region = .ok ()) : (map.record region).FitsTable := by
  intro id found declared
  unfold MemoryMap.record at declared
  split at declared
  · exact fits id found declared
  · have look : (map.regions.insert region.id region).get? id = some found := declared
    rw [OrderedMap.get?_insert] at look
    split at look
    · rename_i same
      subst same
      by_contra beyond
      rw [check, if_pos beyond] at may
      cases may
    · exact fits id found look

theorem FitsTable.declareAll {map : MemoryMap} (fits : map.FitsTable) (regions : List Region) :
    (map.declareAll regions).2.FitsTable := by
  induction regions generalizing map with
  | nil => exact fits
  | cons region rest ih =>
    rw [MemoryMap.declareAll]
    split
    · rename_i next declared
      obtain ⟨_, may, made⟩ := exists_of_bind_eq_ok declared
      cases made
      exact ih (fits.record may)
    · exact fits

/-- A reservation, successful or not, declares no region beyond the table. -/
theorem FitsTable.reserve {map : MemoryMap} (fits : map.FitsTable) (regions : List Region) :
    (map.reserve regions).2.FitsTable := by
  unfold MemoryMap.reserve
  split
  · exact fits.declareAll regions
  · exact fits

end MemoryMap

namespace Loader

/-- Every map of a loader fits its table. -/
def FitsTable (loader : Loader) : Prop := ∀ core, (loader.mapOf core).FitsTable

theorem fitsTable_empty : empty.FitsTable := by
  intro core id region declared
  cases declared

theorem FitsTable.setMap {loader : Loader} (fits : loader.FitsTable) {core : Core}
    {map : MemoryMap} (mapFits : map.FitsTable) : (loader.setMap core map).FitsTable := by
  intro other
  by_cases same : other = core
  · subst same
    rw [mapOf_setMap]
    exact mapFits
  · rw [mapOf_congr (loader.map?_setMap_ne map same)]
    exact fits other

end Loader

namespace Site

section Reached

variable {σ : Type}

/-- From a loader whose maps fit their tables comes another one. -/
def KeepsFit (before after : Site σ) : Prop :=
  before.loader.FitsTable → after.loader.FitsTable

instance : IsTrans (Site σ) KeepsFit := ⟨fun _ _ _ early late fits => late (early fits)⟩

theorem keeps_fit (core : Core) : Keeps core (KeepsFit (σ := σ)) := by
  constructor
  · intro declarations site fits
    exact fits.setMap ((fits core).reserve _)
  · intro site fits
    exact fits.setMap (fits core)
  · intro before after same fits
    rw [same]
    exact fits

variable [Transport σ]

/-- Sites that are reached from a loader that has touched no core: by requests for any cores, by
new generations, and by whatever happens to the machine. -/
inductive Reached : Site σ → Prop where
  | start (machine : σ) : Reached ⟨.empty, machine⟩
  | acts {core : Core} {site next : Site σ} (before : Reached site) (acts : Acts core site next) :
    Reached next
  | newGeneration {site : Site σ} (before : Reached site) (core : Core) :
    Reached { site with loader := site.loader.newGeneration core }
  | machine {site : Site σ} (before : Reached site) (machine : σ) : Reached { site with machine }

/-- **Whatever was declared has an entry in its table.** -/
theorem Reached.fitsTable {site : Site σ} (reached : Reached site) : site.loader.FitsTable := by
  induction reached with
  | start machine => exact Loader.fitsTable_empty
  | acts _ acts ih => exact acts.related (keeps_fit _) ih
  | newGeneration _ core ih =>
    apply ih.setMap
    intro id region declared
    cases declared
  | machine _ _ ih => exact ih

end Reached

end Site

/-! ## A table in memory -/

namespace Machine

/-- Part of what is memory is memory. -/
theorem inMemory_part {base address : UInt32} {length count offset : Nat}
    (whole : inMemory base length = true) (place : address.toNat = base.toNat + offset)
    (inside : offset + count ≤ length) : inMemory address count = true := by
  rw [inMemory, Bool.and_eq_true, decide_eq_true_eq, decide_eq_true_eq,
    UInt32.le_iff_toNat_le] at whole ⊢
  omega

/-- Machines that are reached by writes which leave the bytes of a chip from `start` up to `finish`
alone, and by anything else that does not change memory. -/
inductive Sparing (chip : Chip) (start finish : Nat) (opened : Machine) : Machine → Prop where
  | start : Sparing chip start finish opened opened
  | write {machine : Machine} (before : Sparing chip start finish opened machine) {target : Chip}
    {address : UInt32} {data : Bytes}
    (apart : target = chip → address.toNat + data.length ≤ start ∨ finish ≤ address.toNat) :
    Sparing chip start finish opened ((Transport.write target address data).runOn machine).2
  | still {machine next : Machine} (before : Sparing chip start finish opened machine)
    (same : next.memory = machine.memory) : Sparing chip start finish opened next

theorem Sparing.byteAt {chip : Chip} {start finish : Nat} {opened machine : Machine}
    (sparing : Sparing chip start finish opened machine) {place : Nat} (low : start ≤ place)
    (high : place < finish) :
    machine.memory.byteAt chip place = opened.memory.byteAt chip place := by
  induction sparing with
  | start => rfl
  | @write machine _ target address data apart ih =>
    rw [← ih]
    obtain ⟨-, refused⟩ | ⟨-, accepted, after, wrote, few, memory⟩ :=
      runOn_write target address data machine
    · rw [refused]
    · rw [wrote]
      dsimp only
      rw [memory]
      apply Memory.sameOutside_write
      intro same
      have := apart same.symm
      rw [List.length_take]
      omega
  | still _ same ih => rw [same, ih]

/-- A table that is spared stays. -/
theorem Sparing.holds {chip : Chip} {start : Nat} {data : Bytes} {opened machine : Machine}
    (sparing : Sparing chip start (start + data.length) opened machine)
    (held : opened.memory.Holds chip start data) : machine.memory.Holds chip start data :=
  (Memory.read_congr fun _ low high => sparing.byteAt low high).trans held

end Machine

namespace Locator

open Machine

variable {core : Core} {base : UInt32} {bases : OrderedMap Core UInt32} {id : RegionId}

/-- What a pointer table is asked for, once it is known where the table is. -/
theorem locate_pointerTables {σ : Type} [Transport σ] (based : bases.get? core = some base) :
    (locate (pointerTables bases) core id : Action σ UInt32) =
      if id < RegionId.limit then readPointer core id base else throw (notReserved core id) := by
  rw [locate, based]

/-- Without the magic number there is no answer. -/
theorem exists_fault_of_wordAt_ne (based : bases.get? core = some base) {machine : Machine}
    (broken : machine.memory.wordAt core.chip base ≠ PointerTable.magic) :
    ∃ fault, ((locate (pointerTables bases) core id).runOn machine).1 = .error fault := by
  rw [locate_pointerTables based]
  by_cases small : id < RegionId.limit
  · rw [if_pos small]
    obtain ⟨-, only, -⟩ := readPointer_effect core id base machine
    cases answered : ((readPointer core id base).runOn machine).1 with
    | error fault => exact ⟨fault, rfl⟩
    | ok address => exact absurd (only address answered).1 broken
  · rw [if_neg small]
    exact ⟨_, rfl⟩

/-- A table in memory answers for its layout, whether or not the layout has the region. -/
theorem runOn_locate_pointerTables {layout : RegionLayout} {machine : Machine}
    (based : bases.get? core = some base)
    (table : machine.memory.Holds core.chip base.toNat layout.tableBytes)
    (inside : inMemory base PointerTable.size = true)
    (bounded : base.toNat + PointerTable.size < UInt32.size)
    (small : ∀ address, layout.addresses.get? id = some address → id < RegionId.limit)
    (behind : ∀ address, layout.addresses.get? id = some address → address ≠ 0) :
    ((locate (pointerTables bases) core id).runOn machine).1 =
      match layout.addresses.get? id with
      | some address => .ok address
      | none => .error (notReserved core id) := by
  rw [locate_pointerTables based]
  by_cases listed : id < RegionId.limit
  · have few : id.toNat < 16 := UInt8.lt_iff_toNat_lt.1 listed
    have size : PointerTable.size = 72 := rfl
    have first : inMemory base 4 = true := inMemory_part inside (Nat.add_zero _).symm (by omega)
    have second : inMemory (base + PointerTable.offset id) 4 = true :=
      inMemory_part inside (PointerTable.toNat_add_offset bounded few) (by omega)
    obtain ⟨-, -, answers⟩ := readPointer_effect core id base machine
    rw [if_pos listed, answers first second (RegionLayout.wordAt_magic table),
      RegionLayout.wordAt_pointer table bounded few]
    cases found : layout.addresses.get? id with
    | none => exact if_pos rfl
    | some address => exact if_neg (behind address found)
  · rw [if_neg listed]
    cases found : layout.addresses.get? id with
    | none => rfl
    | some address => exact absurd (small address found) listed

/-- Addresses known ahead of time answer for a layout that was added to them. -/
theorem runOn_locate_addLayout {layout : RegionLayout}
    {addresses : OrderedMap (Core × RegionId) UInt32}
    (covered : ∀ address, addresses.get? (core, id) = some address →
      (layout.addresses.get? id).isSome) (machine : Machine) :
    ((locate (known (addLayout addresses core layout)) core id).runOn machine).1 =
      match layout.addresses.get? id with
      | some address => .ok address
      | none => .error (notReserved core id) := by
  rw [locate]
  cases found : layout.addresses.get? id with
  | some address =>
    rw [get?_addLayout addresses core layout found]
    rfl
  | none =>
    rw [get?_addLayout_of_none addresses core layout found]
    cases other : addresses.get? (core, id) with
    | none => rfl
    | some address =>
      have listed := covered address other
      rw [found] at listed
      cases listed

end Locator

namespace Site

open Machine

/-- A table that was written is in memory, in full. -/
theorem table_of_writeTable {core : Core} {base : UInt32} {layout : RegionLayout}
    {before opened : Site Machine}
    (ran : (writeTable core base).runOn before = (.ok layout, opened)) :
    inMemory base PointerTable.size = true ∧
      opened.machine.memory.Holds core.chip base.toNat layout.tableBytes := by
  obtain ⟨-, -, count, wrote⟩ := exists_of_writeTable ran
  obtain ⟨-, done⟩ := writeBytes_effect core none base layout.tableBytes before.machine
  rw [wrote, layout.length_tableBytes] at done
  obtain ⟨-, inside, holds⟩ := done count rfl
  exact ⟨inside, holds⟩

/-- **The two locators agree.** A layout was written to a machine, and later writes spared its
table. Then for every region number the table in memory and the addresses of the layout give one
answer: the region's address if it was declared, and that it is not reserved otherwise. A place
that does not hold the magic number of a table gives a fault for every region. -/
theorem locators_agree {core : Core} {base : UInt32} {layout : RegionLayout}
    {before opened : Site Machine} {machine : Machine} (reached : Reached before)
    (opens : (writeTable core base).runOn before = (.ok layout, opened))
    (history : Sparing core.chip base.toNat (base.toNat + PointerTable.size) opened.machine machine)
    (bases : OrderedMap Core UInt32) {addresses : OrderedMap (Core × RegionId) UInt32}
    (covered : ∀ id address, addresses.get? (core, id) = some address →
      (layout.addresses.get? id).isSome) (id : RegionId) :
    let read := ((Locator.pointerTables (bases.insert core base)).locate core id).runOn machine
    let recorded :=
      ((Locator.known (Locator.addLayout addresses core layout)).locate core id).runOn machine
    read.1 = recorded.1 ∧
      (match (before.loader.mapOf core).region? id with
      | some _ => ∃ address, layout.addresses.get? id = some address ∧ read.1 = .ok address
      | none => read.1 = .error (Locator.notReserved core id)) ∧
      ∀ (owner : Core) (place : UInt32) (content : Machine),
        content.memory.wordAt owner.chip place ≠ PointerTable.magic →
          ∃ fault, (((Locator.pointerTables (bases.insert owner place)).locate owner id).runOn
            content).1 = .error fault := by
  intro read recorded
  obtain ⟨laidOut, -⟩ := exists_of_writeTable opens
  have tiles := MemoryMap.layout_laysOut laidOut
  obtain ⟨inside, held⟩ := table_of_writeTable opens
  have bounded : base.toNat + PointerTable.size < UInt32.size := by
    have total := tiles.bounded
    have table := tiles.table
    omega
  have table : machine.memory.Holds core.chip base.toNat layout.tableBytes := by
    apply Sparing.holds _ held
    rw [layout.length_tableBytes]
    exact history
  have fromTable : read.1 = match layout.addresses.get? id with
      | some address => .ok address
      | none => .error (Locator.notReserved core id) := by
    apply Locator.runOn_locate_pointerTables (OrderedMap.get?_insert_self ..) table inside bounded
    · intro address found
      obtain ⟨region, declared⟩ := MemoryMap.layout_declared laidOut found
      exact reached.fitsTable core id region declared
    · intro address found
      exact MemoryMap.ne_zero_of_layout laidOut found
  have fromAddresses := Locator.runOn_locate_addLayout (covered id) machine
  refine ⟨fromTable.trans fromAddresses.symm, ?_, ?_⟩
  · cases declared : (before.loader.mapOf core).region? id with
    | some region =>
      obtain ⟨address, found, -⟩ := tiles.inside declared
      refine ⟨address, found, ?_⟩
      rw [fromTable, found]
    | none =>
      cases found : layout.addresses.get? id with
      | none => rw [fromTable, found]
      | some address =>
        obtain ⟨region, other⟩ := MemoryMap.layout_declared laidOut found
        rw [declared] at other
        cases other
  · intro owner place content broken
    exact Locator.exists_fault_of_wordAt_ne (OrderedMap.get?_insert_self ..) broken

namespace Crossing

/-- A place for a table that starts within a word and ends on the next page. -/
def base : UInt32 := 0x60000fdd

/-- The declared regions are laid out there. -/
def opened : Site Machine := ((writeTable Sample.core base).runOn Sample.declared).2

/-- Where the layout puts them. -/
def layout : RegionLayout := ⟨base, .ofList [(1, 0x60001025), (2, 0x6000102d)], 84⟩

/-- The first region is written, and so is the place of the table on another chip. -/
def written : Machine :=
  let first := ((Transport.write Sample.core.chip 0x60001025 [1, 2, 3]).runOn opened.machine).2
  ((Transport.write ⟨1, 0⟩ base [1, 2, 3]).runOn first).2

/-- What the table answers for a region in the end. -/
def read (id : RegionId) : Except Fault UInt32 :=
  (((Locator.pointerTables (OrderedMap.empty.insert Sample.core base)).locate Sample.core id).runOn
    written).1

theorem reached : Reached Sample.declared :=
  .acts (.start .start) (.reserve [(1, 8, "schedule"), (2, 4, "state")] _)

theorem opens : (writeTable Sample.core base).runOn Sample.declared = (.ok layout, opened) := by
  have answered : ((writeTable Sample.core base).runOn Sample.declared).1 = .ok layout := by
    decide +kernel
  exact Prod.ext answered rfl

theorem spared : Sparing Sample.core.chip base.toNat (base.toNat + PointerTable.size)
    opened.machine written :=
  .write (.write .start fun _ => .inr (by decide)) fun same => absurd same (by decide)

end Crossing

/-- A table across two pages, after writes next to it. -/
theorem locators_agree_crossing :
    Reached Sample.declared ∧
      (writeTable Sample.core Crossing.base).runOn Sample.declared =
        (.ok Crossing.layout, Crossing.opened) ∧
      Sparing Sample.core.chip Crossing.base.toNat (Crossing.base.toNat + PointerTable.size)
        Crossing.opened.machine Crossing.written ∧
      (∀ id, Crossing.read id =
        (((Locator.known (Locator.addLayout .empty Sample.core Crossing.layout)).locate Sample.core
          id).runOn Crossing.written).1) ∧
      Crossing.read 2 = .ok 0x6000102d ∧
      Crossing.read 3 = .error (Locator.notReserved Sample.core 3) := by
  refine ⟨Crossing.reached, Crossing.opens, Crossing.spared, ?_⟩
  have bare : ∀ id address,
      (OrderedMap.empty : OrderedMap (Core × RegionId) UInt32).get? (Sample.core, id) =
        some address → (Crossing.layout.addresses.get? id).isSome :=
    fun id address found => nomatch found
  have agree := locators_agree Crossing.reached Crossing.opens Crossing.spared .empty bare
  refine ⟨fun id => (agree id).1, ?_, ?_⟩
  · have declared : (Sample.declared.loader.mapOf Sample.core).region? 2 =
        some ⟨2, 4, "state", false⟩ := by decide +kernel
    have answer := (agree 2).2.1
    rw [declared] at answer
    obtain ⟨address, found, answer⟩ := answer
    have place : Crossing.layout.addresses.get? 2 = some 0x6000102d := by decide
    rw [place] at found
    cases found
    rw [Crossing.read]
    exact answer
  · have absent : (Sample.declared.loader.mapOf Sample.core).region? 3 = none := by
      decide +kernel
    have answer := (agree 3).2.1
    rw [absent] at answer
    rw [Crossing.read]
    exact answer

end Site

end MeshControl
