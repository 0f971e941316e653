import MeshControl.Proofs.Region.Agreement
import MeshControl.Proofs.Region.Reading
import MeshControl.Proofs.Vertex.Specification

/-!
# Counters are read back

A vertex declares a region for its counters, and says apart from that how many there are and what
they mean; all three agree (`Vertex.declares_counters`, `Vertex.items_named`). So what a core has
left there is what is collected, as long as neither it nor the pointer table was written over, and
nothing is collected if a read on the way was not answered in full.

Main statement: `Vertex.collect_reads_back`.
-/

namespace MeshControl

open Machine

/-! ## Items -/

namespace Provenance

/-- The item stands for a counter of a vertex on a core. -/
structure Item.Tells (item : Item) (label : String) (core : Core) (counter : String)
    (count : UInt32) : Prop where
  names : item.names = [label, s!"{core.x}_{core.y}_{core.p}", counter]
  value : item.value = count
  needsReport : item.needsReport = true ↔ count ≠ 0

theorem Item.Tells.of (label : String) (core : Core) (name : String) (value : UInt32)
    (message : Option String) :
    (Item.of (sharedNames label core) name value message).Tells label core name value := by
  refine ⟨rfl, rfl, ?_⟩
  show decide (0 < value) = true ↔ value ≠ 0
  rw [decide_eq_true_iff, UInt32.lt_iff_toNat_lt, ← UInt32.toNat_inj.ne]
  exact Nat.pos_iff_ne_zero

/-- Items stand for counters in turn. -/
def Tell (label : String) (core : Core) (counters : List (String × UInt32)) (items : List Item) :
    Prop :=
  List.Forall₂ (fun counter item => item.Tells label core counter.1 counter.2) counters items

theorem systemItems_tell (label : String) (core : Core) {words : List UInt32}
    (enough : systemCount ≤ words.length) :
    Tell label core ((systemCounters.map Prod.fst).zip words) (systemItems label core words) := by
  match words, enough with
  | _ :: _ :: _ :: _ :: _ :: _, _ =>
    exact .cons (.of ..) <| .cons (.of ..) <| .cons (.of ..) <| .cons (.of ..) <|
      .cons (.of ..) .nil

/-- The items of the counters of a vertex. -/
def Provider.itemsOf (provider : Provider) (label : String) (core : Core) (words : List UInt32) :
    List Item :=
  systemItems label core words ++
    provider.additionalItems (sharedNames label core) (words.drop systemCount)

end Provenance

namespace Vertex

open Provenance

/-- The names of the counters of a vertex, in order. -/
def counterNames : Vertex → List String
  | .source _ => systemCounters.map Prod.fst
  | .gatherer _ => systemCounters.map Prod.fst ++
      ["lost_packets_without_payload", "lost_packets_with_payload"]
  | .plain _ => []

/-- **Every counter has an item**, under its own name and in its place. -/
theorem items_named {vertex : Vertex} {provider : Provider}
    (keeps : vertex.provider? = some provider) {words : List UInt32}
    (count : words.length = systemCount + provider.additionalCount) (core : Core) :
    Tell vertex.label core (vertex.counterNames.zip words)
      (provider.itemsOf vertex.label core words) := by
  have enough : systemCount ≤ words.length := by omega
  have common := systemItems_tell vertex.label core enough
  cases vertex with
  | source origin =>
    cases keeps
    show Tell _ _ _ (systemItems _ _ _ ++ [])
    rw [List.append_nil]
    exact common
  | gatherer sink =>
    cases keeps
    match words, count with
    | [_, _, _, _, _, _, _], _ =>
      exact List.rel_append common (.cons (.of ..) (.cons (.of ..) .nil))
  | plain label => cases keeps

/-- A vertex has a name for each of its counters. -/
theorem length_counterNames {vertex : Vertex} {provider : Provider}
    (keeps : vertex.provider? = some provider) :
    vertex.counterNames.length = systemCount + provider.additionalCount := by
  cases vertex with
  | source | gatherer =>
    cases keeps
    rfl
  | plain label => cases keeps

/-! ## The region of the counters -/

/-- The region that is declared for the counters has their size. -/
theorem declares_counters {vertex : Vertex} {provider : Provider}
    {generator : Site.Generator Context} (kind : vertex.generator? = some generator)
    (keeps : vertex.provider? = some provider) :
    provider.region < RegionId.limit ∧ ∃ size label,
      (provider.region, size, label) ∈ generator.declarations ∧
        size.toNat = blockSize provider.additionalCount := by
  cases vertex with
  | source origin =>
    cases kind
    cases keeps
    refine ⟨by decide, UInt32.ofNat (blockSize 0), SourceRegion.provenance.label, ?_, rfl⟩
    exact List.mem_map_of_mem (List.mem_append_right _ (List.mem_singleton_self _))
  | gatherer sink =>
    cases kind
    cases keeps
    refine ⟨by decide, UInt32.ofNat (blockSize Gatherer.counterCount), "PROVENANCE", ?_, rfl⟩
    exact List.mem_map_of_mem
      (List.mem_cons_of_mem _ (List.mem_cons_of_mem _ (List.mem_singleton_self _)))
  | plain label => cases kind

/-- What a vertex generates executes to its table. -/
theorem specified_of_generate {vertex : Vertex} {generator : Site.Generator Context}
    (kind : vertex.generator? = some generator) {context : Context} {program : Spec.Program}
    {execution : Spec.Execution} (generated : generator.generate context = .ok program)
    (executed : program.execute = .ok execution) :
    vertex.Specified generator context execution := by
  have made : ∃ program execution, generator.generate context = .ok program ∧
      program.execute = .ok execution ∧ vertex.Specified generator context execution := by
    cases vertex with
    | source origin =>
      cases kind
      have outcome := origin.generate_cases context
      cases lacks : origin.lacks context with
      | some fault =>
        rw [lacks] at outcome
        cases outcome.symm.trans generated
      | none =>
        rw [lacks] at outcome
        obtain ⟨words, buffer, makes⟩ := outcome
        exact makes.specified
    | gatherer sink =>
      cases kind
      have outcome := sink.generate_cases context
      cases lacks : sink.lacks context with
      | some fault =>
        rw [lacks] at outcome
        cases outcome.symm.trans generated
      | none =>
        rw [lacks] at outcome
        exact outcome
    | plain label => cases kind
  obtain ⟨other, result, sameProgram, sameExecution, specified⟩ := made
  rw [generated] at sameProgram
  cases sameProgram
  rw [executed] at sameExecution
  cases sameExecution
  exact specified

end Vertex

/-! ## Collecting -/

namespace Provenance

variable {σ : Type} [Transport σ] {locator : Locator} {core : Core} {label : String}
  {provider : Provider} {state : σ}

/-- **What is collected** are the items of the words that were read where the table says. -/
theorem runOn_read_eq_ok_iff {items : List Item} {final : σ} :
    (read locator core label provider).runOn state = (.ok items, final) ↔
      ∃ address reached data, (locator.locate core provider.region).runOn state =
          (.ok address, reached) ∧
        (Transport.read core.chip address (blockSize provider.additionalCount)).runOn reached =
          (.ok data, final) ∧ data.length = blockSize provider.additionalCount ∧
        items = provider.itemsOf label core (Bytes.words data) := by
  constructor
  · intro ran
    obtain ⟨address, reached, located, ran⟩ := Action.exists_of_runOn_bind ran
    obtain ⟨data, last, answered, ran⟩ := Action.exists_of_runOn_bind ran
    cases ran
    obtain ⟨answered, full⟩ := Transport.runOn_readExact_eq_ok_iff.1 answered
    exact ⟨address, reached, data, located, answered, full, rfl⟩
  · rintro ⟨address, reached, data, located, answered, full, rfl⟩
    rw [read, Action.runOn_bind, located]
    dsimp only
    rw [Action.runOn_bind, Transport.runOn_readExact_eq_ok_iff.2 ⟨answered, full⟩]
    rfl

/-- If a read of the table or of the counters is not answered, or with another number of bytes than
asked for, there are no items. -/
theorem exact_of_runOn_read {base : UInt32} {bases : OrderedMap Core UInt32}
    (based : bases.get? core = some base) {items : List Item} {final : σ}
    (ran : (read (.pointerTables bases) core label provider).runOn state = (.ok items, final)) :
    let magic := (Transport.read core.chip base 4).runOn state
    let pointer := (Transport.read core.chip (base + PointerTable.offset provider.region) 4).runOn
      magic.2
    let counters := (Transport.read core.chip (Transport.wordOf pointer.1)
      (blockSize provider.additionalCount)).runOn pointer.2
    Transport.Exact magic.1 4 ∧ Transport.Exact pointer.1 4 ∧
      Transport.Exact counters.1 (blockSize provider.additionalCount) := by
  obtain ⟨address, reached, data, located, answered, full, -⟩ := runOn_read_eq_ok_iff.1 ran
  obtain ⟨-, pointed⟩ := (Locator.locate_eq_ok_iff based).1 located
  obtain ⟨between, opened, looked, -⟩ := Locator.runOn_readPointer_eq_ok_iff.1 pointed
  obtain ⟨first, readFirst, firstFull, -⟩ := Transport.runOn_readWord_eq_ok_iff.1 opened
  obtain ⟨second, readSecond, secondFull, rfl⟩ := Transport.runOn_readWord_eq_ok_iff.1 looked
  intro magic pointer counters
  have magicRead : magic = (.ok first, between) := readFirst
  have pointerRead : pointer = (.ok second, reached) := by
    show (Transport.read _ _ _).runOn magic.2 = _
    rw [magicRead]
    exact readSecond
  have countersRead : counters = (.ok data, final) := by
    show (Transport.read _ _ _).runOn pointer.2 = _
    rw [pointerRead]
    exact answered
  rw [magicRead, pointerRead, countersRead]
  exact ⟨⟨first, rfl, firstFull⟩, ⟨second, rfl, secondFull⟩, ⟨data, rfl, full⟩⟩

end Provenance

namespace Vertex

open Provenance

/-- A vertex that was loaded on a core. -/
structure Loaded (vertex : Vertex) where
  core : Core
  base : UInt32
  context : Context
  generator : Site.Generator Context
  kind : vertex.generator? = some generator
  provider : Provider
  keeps : vertex.provider? = some provider
  before : Site Machine
  layout : RegionLayout
  after : Site Machine
  loads : ∃ written, (Site.load core base generator context).runOn before =
    (.ok (layout, written), after)

namespace Loaded

variable {vertex : Vertex} (loaded : vertex.Loaded)

/-- Where the layout has the region for the counters. -/
def address : UInt32 := (loaded.layout.addresses.get? loaded.provider.region).getD 0

/-- Bytes of the counters. -/
def size : Nat := blockSize loaded.provider.additionalCount

/-- The table is in memory. -/
theorem table : inMemory loaded.base PointerTable.size = true ∧
    loaded.after.machine.memory.Holds loaded.core.chip loaded.base.toNat
      loaded.layout.tableBytes := by
  obtain ⟨written, ran⟩ := loaded.loads
  obtain ⟨-, -, -, table, -⟩ := Site.prepared_loaded_of_load ran
  rw [← loaded.layout.length_tableBytes] at table ⊢
  refine ⟨?_, holds_of_read table⟩
  by_contra outside
  rw [(runOn_read ..).2, if_neg outside] at table
  cases table

/-- The region for the counters is reserved with their size, behind the table. -/
theorem reserved : ∃ region,
    (loaded.after.loader.mapOf loaded.core).region? loaded.provider.region = some region ∧
      region.size.toNat = loaded.size ∧
      loaded.layout.addresses.get? loaded.provider.region = some loaded.address ∧
      loaded.base.toNat + PointerTable.size ≤ loaded.address.toNat ∧ loaded.address ≠ 0 := by
  obtain ⟨written, ran⟩ := loaded.loads
  obtain ⟨execution, prepared, -⟩ := Site.prepared_loaded_of_load ran
  obtain ⟨program, generated, executed⟩ := prepared.executed
  have specified := specified_of_generate loaded.kind generated executed
  obtain ⟨-, size, label, declared, whole⟩ := declares_counters loaded.kind loaded.keeps
  obtain ⟨image, found, -, sized⟩ := specified.tabled declared
  obtain ⟨region, address, inMap, same, placed, behind, -⟩ := prepared.place found
  have here : loaded.address = address := by
    rw [Loaded.address, placed]
    rfl
  refine ⟨region, inMap, ?_, here ▸ placed, here ▸ behind, ?_⟩
  · rw [same, sized, whole]
    rfl
  · rw [here]
    exact MemoryMap.ne_zero_of_layout prepared.laidOut placed

end Loaded

/-- A vertex that was loaded, and counters that were stored in its region for them in full. The
table was not written over since the load, nor the counters since they were stored. -/
structure Counted (vertex : Vertex) extends Loaded vertex where
  words : List UInt32
  count : words.length = systemCount + provider.additionalCount
  ready : Machine
  spared : Sparing core.chip base.toNat (base.toNat + PointerTable.size) after.machine ready
  stored : Machine
  stores : (Transport.write core.chip toLoaded.address (Bytes.ofWords words)).runOn ready =
    (.ok (4 * words.length), stored)
  machine : Machine
  sparedTable : Sparing core.chip base.toNat (base.toNat + PointerTable.size) stored machine
  sparedCounters : Sparing core.chip toLoaded.address.toNat
    (toLoaded.address.toNat + toLoaded.size) stored machine

namespace Counted

variable {vertex : Vertex} (counted : vertex.Counted)

theorem length_ofWords : (Bytes.ofWords counted.words).length = counted.size := by
  rw [Bytes.length_ofWords, counted.count, Nat.mul_comm]
  rfl

/-- The counters are still there. -/
theorem counters : inMemory counted.address counted.size = true ∧
    counted.machine.memory.Holds counted.core.chip counted.address.toNat
      (Bytes.ofWords counted.words) := by
  have stores := counted.stores
  rw [← Bytes.length_ofWords] at stores
  obtain ⟨-, refused⟩ | ⟨inside, accepted, after, wrote, -, memory⟩ :=
    runOn_write counted.core.chip counted.address (Bytes.ofWords counted.words) counted.ready
  · rw [stores] at refused
    cases refused
  · rw [stores] at wrote
    cases wrote
    rw [List.take_length] at memory
    have held : counted.stored.memory.Holds counted.core.chip counted.address.toNat
        (Bytes.ofWords counted.words) := by
      rw [memory]
      exact Memory.holds_write ..
    have spared := counted.sparedCounters
    rw [counted.length_ofWords] at inside
    rw [← counted.length_ofWords] at spared
    exact ⟨inside, spared.holds held⟩

/-- So is the table, which the counters are behind. -/
theorem table : counted.machine.memory.Holds counted.core.chip counted.base.toNat
    counted.layout.tableBytes := by
  obtain ⟨-, -, -, -, behind, -⟩ := counted.reserved
  have stored : Sparing counted.core.chip counted.base.toNat
      (counted.base.toNat + PointerTable.size) counted.ready counted.stored := by
    have after : counted.stored = ((Transport.write counted.core.chip counted.address
        (Bytes.ofWords counted.words)).runOn counted.ready).2 :=
      (congrArg Prod.snd counted.stores).symm
    rw [after]
    exact .write .start fun _ => .inr behind
  have length := counted.layout.length_tableBytes
  have spared := counted.spared
  have later := counted.sparedTable
  rw [← length] at spared stored later
  exact later.holds (stored.holds (spared.holds counted.toLoaded.table.2))

/-- What a collection answers that reads the counters back, and what it leaves. -/
structure ReadsBack (ran : Except Fault (List Item) × Machine) : Prop where
  /-- There is one item for each counter, in order. -/
  items : ∃ items, ran.1 = .ok items ∧
    items.length = systemCount + counted.provider.additionalCount ∧
    Tell vertex.label counted.core (vertex.counterNames.zip counted.words) items
  memory : ran.2.memory = counted.machine.memory
  /-- Two words of the table and the counters were read. -/
  reads : ran.2 = ((counted.machine.logged (.read counted.core.chip counted.base 4)).logged
    (.read counted.core.chip (counted.base + PointerTable.offset counted.provider.region) 4)).logged
    (.read counted.core.chip counted.address counted.size)
  /-- What was read of the counters is the region that was reserved for them. -/
  reserved : ∃ region,
    (counted.after.loader.mapOf counted.core).region? counted.provider.region = some region ∧
      region.size.toNat = counted.size ∧
      counted.layout.addresses.get? counted.provider.region = some counted.address

/-- The region is found. -/
theorem locate {bases : OrderedMap Core UInt32}
    (based : bases.get? counted.core = some counted.base) :
    ((Locator.pointerTables bases).locate counted.core counted.provider.region).runOn
        counted.machine =
      (.ok counted.address,
        (counted.machine.logged (.read counted.core.chip counted.base 4)).logged
          (.read counted.core.chip (counted.base + PointerTable.offset counted.provider.region)
            4)) := by
  obtain ⟨region, -, -, placed, behind, nonzero⟩ := counted.reserved
  obtain ⟨listed, -⟩ := declares_counters counted.kind counted.keeps
  have few : counted.provider.region.toNat < 16 := UInt8.lt_iff_toNat_lt.1 listed
  have bounded : counted.base.toNat + PointerTable.size < UInt32.size :=
    Nat.lt_of_le_of_lt behind counted.address.toNat_lt
  have size : PointerTable.size = 72 := rfl
  have inTable := counted.toLoaded.table.1
  have first : inMemory counted.base 4 = true :=
    inMemory_part inTable (Nat.add_zero _).symm (by omega)
  have second : inMemory (counted.base + PointerTable.offset counted.provider.region) 4 = true :=
    inMemory_part inTable (PointerTable.toNat_add_offset bounded few) (by omega)
  have magic := RegionLayout.wordAt_magic counted.table
  have pointer := RegionLayout.wordAt_pointer counted.table bounded few
  rw [placed, Option.getD_some] at pointer
  rw [Locator.locate_eq_ok_iff based, Locator.runOn_readPointer_eq_ok_iff]
  refine ⟨listed, counted.machine.logged (.read counted.core.chip counted.base 4), ?_, ?_,
    nonzero⟩
  · rw [← magic]
    exact runOn_readWord_of_inMemory first
  · rw [← pointer]
    exact runOn_readWord_of_inMemory second

theorem read_effect {bases : OrderedMap Core UInt32}
    (based : bases.get? counted.core = some counted.base) :
    counted.ReadsBack ((Provenance.read (.pointerTables bases) counted.core vertex.label
      counted.provider).runOn counted.machine) := by
  obtain ⟨region, inMap, sized, placed, -⟩ := counted.reserved
  obtain ⟨inside, held⟩ := counted.counters
  rw [Memory.Holds, counted.length_ofWords] at held
  have located := counted.locate based
  generalize opens : (counted.machine.logged (.read counted.core.chip counted.base 4)).logged
    (.read counted.core.chip (counted.base + PointerTable.offset counted.provider.region) 4) =
      opened at located
  have memory : opened.memory = counted.machine.memory := opens ▸ rfl
  have answered : (Transport.read counted.core.chip counted.address counted.size).runOn opened =
      (.ok (Bytes.ofWords counted.words),
        opened.logged (.read counted.core.chip counted.address counted.size)) := by
    rw [runOn_read_of_inMemory inside, memory, held]
  have ran := Provenance.runOn_read_eq_ok_iff.2 ⟨counted.address, opened,
    Bytes.ofWords counted.words, located, answered, counted.length_ofWords,
    Eq.refl (counted.provider.itemsOf vertex.label counted.core _)⟩
  rw [Bytes.words_ofWords] at ran
  have told := items_named counted.keeps counted.count counted.core
  have names := length_counterNames counted.keeps
  rw [ran]
  refine ⟨⟨_, rfl, ?_, told⟩, memory, opens ▸ rfl, region, inMap, sized, placed⟩
  rw [← told.length_eq, List.length_zip, names, counted.count, Nat.min_self]

end Counted

/-- **Counters are collected as they were stored.** If they and the table were not written over,
the items of a placed vertex are its counters in turn, and nothing changes but the log, which names
reads of the table and of the reserved region. Through any transport, a read that fails or comes
back with another number of bytes leaves no items. A vertex without counters has none, and one with
counters that is not placed is a fault, both without anything being asked of the transport. -/
theorem collect_reads_back (vertex : Vertex) (placements : Placements)
    (bases : OrderedMap Core UInt32) :
    (∀ counted : vertex.Counted, placements.get? vertex.label = some counted.core →
      bases.get? counted.core = some counted.base →
        counted.ReadsBack
          ((vertex.collect placements (.pointerTables bases)).runOn counted.machine)) ∧
    (∀ (σ : Type) [Transport σ] (state : σ) (core : Core) (base : UInt32)
        (provider : Provider), vertex.provider? = some provider →
      placements.get? vertex.label = some core → bases.get? core = some base →
        let magic := (Transport.read core.chip base 4).runOn state
        let pointer := (Transport.read core.chip (base + PointerTable.offset provider.region)
          4).runOn magic.2
        let counters := (Transport.read core.chip (Transport.wordOf pointer.1)
          (blockSize provider.additionalCount)).runOn pointer.2
        ¬ Transport.Exact magic.1 4 ∨ ¬ Transport.Exact pointer.1 4 ∨
            ¬ Transport.Exact counters.1 (blockSize provider.additionalCount) →
          ∃ fault, ((vertex.collect placements (.pointerTables bases)).runOn state).1 =
            .error fault) ∧
    ∀ (σ : Type) [Transport σ] (state : σ) (locator : Locator),
      (vertex.provider? = none →
        (vertex.collect placements locator).runOn state = (.ok [], state)) ∧
      (vertex.provider? ≠ none → placements.get? vertex.label = none →
        (vertex.collect placements locator).runOn state =
          (.error (.configuration (.vertexNotPlaced vertex.label)), state)) := by
  refine ⟨?_, ?_, ?_⟩
  · intro counted placed based
    rw [collect, counted.keeps, placed]
    exact counted.read_effect based
  · intro σ _ state core base provider keeps placed based magic pointer counters inexact
    rw [collect, keeps, placed]
    rcases ran : (Provenance.read (.pointerTables bases) core vertex.label provider).runOn state
      with ⟨fault | items, final⟩
    · exact ⟨fault, rfl⟩
    · obtain ⟨first, second, third⟩ := exact_of_runOn_read based ran
      rcases inexact with short | short | short
      · exact absurd first short
      · exact absurd second short
      · exact absurd third short
  · intro σ _ state locator
    constructor
    · intro none
      rw [collect, none]
      rfl
    · intro keeps unplaced
      obtain ⟨provider, kept⟩ := Option.ne_none_iff_exists'.1 keeps
      rw [collect, kept, unplaced]
      rfl

namespace Live

/-- A gatherer with all settings as they are if nothing is asked for. -/
def sink : Gatherer := { label := "sink" }

def core : Core := ⟨⟨0, 0⟩, 1, Chip.hasCore_one⟩

/-- A run with the tag that the gatherer sends through. -/
def context : Context := { timing := ⟨1000, 1, 0, some 100⟩, ipTags := [sink.ipTag] }

/-- The first load of its core. -/
def firstLoad : Except Fault (RegionLayout × List Written) × Site Machine :=
  (Site.load core memoryBase sink.generator context).runOn ⟨.empty, .start⟩

/-- Where its regions are. -/
def layout : RegionLayout :=
  ⟨memoryBase, .ofList [(0, 0x60000048), (1, 0x60000054), (2, 0x60000084)], 160⟩

/-- Three of the counters are not zero. -/
def words : List UInt32 := [0, 1, 0, 2, 0, 3, 0]

def stored : Except Fault Nat × Machine :=
  (Transport.write core.chip 0x60000084 (Bytes.ofWords words)).runOn firstLoad.2.machine

set_option maxRecDepth 20000 in
theorem loads : ∃ written, firstLoad = (.ok (layout, written), firstLoad.2) :=
  Site.exists_written_of_layout (by decide +kernel)

set_option maxRecDepth 20000 in
theorem stores : stored = (.ok 28, stored.2) := by
  have answered : stored.1 = .ok 28 := by decide +kernel
  exact Prod.ext answered rfl

/-- Nothing is written after the counters. -/
def counted : (Vertex.gatherer sink).Counted where
  core
  base := memoryBase
  context
  generator := sink.generator
  kind := rfl
  provider := Gatherer.provider
  keeps := rfl
  before := ⟨.empty, .start⟩
  layout
  after := firstLoad.2
  loads := loads
  words
  count := rfl
  ready := firstLoad.2.machine
  spared := .start
  stored := stored.2
  stores := stores
  machine := stored.2
  sparedTable := .start
  sparedCounters := .start

end Live

/-- The counters of a gatherer that was just loaded. -/
theorem collect_reads_back_live :
    Live.counted.words = [0, 1, 0, 2, 0, 3, 0] ∧
      Live.counted.ReadsBack (((Vertex.gatherer Live.sink).collect
        (OrderedMap.empty.insert "sink" Live.core)
        (.pointerTables (OrderedMap.empty.insert Live.core memoryBase))).runOn Live.stored.2) := by
  refine ⟨rfl, (collect_reads_back _ _ _).1 Live.counted ?_ ?_⟩
  · exact OrderedMap.get?_insert_self ..
  · exact OrderedMap.get?_insert_self ..

end Vertex

end MeshControl
