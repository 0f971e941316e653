import Mathlib.Data.List.Nodup
import MeshControl.Proofs.Region.Loading
import MeshControl.Proofs.Vertex.Staleness

/-!
# The regions of a source on a machine

`Source.Tracked` is the invariant that ties a source to the memory of its core: the pointer
table is there, and every filled region that is not known to be stale holds the image that the
source would make for it now. A first load establishes it; new schedules, new windows, writes to
stale regions and the end of a region's staleness preserve it.
-/

namespace MeshControl

/-- Regions with places of their own behind a pointer table. -/
structure RegionLayout.Houses (layout : RegionLayout) (base : UInt32) (regions : List Region) :
    Prop where
  bounded : base.toNat + layout.totalBytes.toNat < UInt32.size
  table : PointerTable.size ≤ layout.totalBytes.toNat
  inside : ∀ region ∈ regions, ∃ address, layout.addresses.get? region.id = some address ∧
    base.toNat + PointerTable.size ≤ address.toNat ∧
    address.toNat + region.size.toNat ≤ base.toNat + layout.totalBytes.toNat
  apart : ∀ region ∈ regions, ∀ other ∈ regions, region.id ≠ other.id → ∀ address place,
    layout.addresses.get? region.id = some address →
    layout.addresses.get? other.id = some place →
    address.toNat + region.size.toNat ≤ place.toNat ∨
      place.toNat + other.size.toNat ≤ address.toNat

namespace Source

open Machine

variable {source : Source} {core : Core} {base : UInt32} {layout : RegionLayout}
  {context : Context} {words : List UInt32} {buffer : Option SendBuffer}
  {memory after : Memory} {region : Region}

/-- A region of a source is the one of its number. -/
theorem find?_regions (member : region ∈ source.regions) :
    (source.regions.find? fun other => other.id = region.id) = some region :=
  Region.find?_of_mem source.regions_numbered.2 member

theorem mem_regions_of_find? {id : RegionId}
    (found : (source.regions.find? fun other => other.id = id) = some region) :
    region ∈ source.regions ∧ region.id = id :=
  Region.mem_of_find? found

/-- A region holds the image that would be made for it. -/
def Fresh (source : Source) (core : Core) (layout : RegionLayout) (context : Context)
    (words : List UInt32) (buffer : Option SendBuffer) (memory : Memory) (region : Region) :
    Prop :=
  ∀ address, layout.addresses.get? region.id = some address →
    memory.Holds core.chip address.toNat (source.imageOf context words buffer region).data

/-- Regions that are not stale hold what the source would make for them. -/
structure Tracked (source : Source) (core : Core) (base : UInt32) (layout : RegionLayout)
    (context : Context) (words : List UInt32) (buffer : Option SendBuffer) (memory : Memory) :
    Prop where
  makes : source.Makes context words buffer
  houses : layout.Houses base source.regions
  table : memory.Holds core.chip base.toNat layout.tableBytes
  clean : ∀ region ∈ source.regions, region.unfilled = false →
    source.dirty.contains region.id = false →
    source.Fresh core layout context words buffer memory region

theorem length_data_imageOf (makes : source.Makes context words buffer)
    (member : region ∈ source.regions) :
    (source.imageOf context words buffer region).data.length ≤ region.size.toNat := by
  rw [imageOf, Bytes.length_ofWords]
  exact makes.wordsOf_fit region member

/-! ## Changes of memory -/

/-- What happens outside the layout does not matter. -/
theorem Tracked.of_same (tracked : source.Tracked core base layout context words buffer memory)
    (same : ∀ place, base.toNat ≤ place → place < base.toNat + layout.totalBytes.toNat →
      after.byteAt core.chip place = memory.byteAt core.chip place) :
    source.Tracked core base layout context words buffer after := by
  have size := tracked.houses.table
  refine ⟨tracked.makes, tracked.houses, ?_, ?_⟩
  · refine (Memory.read_congr fun place low high => same place low ?_).trans tracked.table
    rw [layout.length_tableBytes] at high
    omega
  · intro region member fills clean address found
    obtain ⟨place, look, low, high⟩ := tracked.houses.inside region member
    rw [found] at look
    cases look
    have fits := length_data_imageOf tracked.makes member
    refine (Memory.read_congr fun place above below => same place ?_ ?_).trans
      (tracked.clean region member fills clean address found)
    · omega
    · omega

/-- Whatever is written to a stale region, the others keep what they hold. -/
theorem Tracked.of_write (tracked : source.Tracked core base layout context words buffer memory)
    (member : region ∈ source.regions) {address : UInt32}
    (found : layout.addresses.get? region.id = some address)
    (stale : source.dirty.contains region.id = true)
    (frame : Memory.SameOutside core.chip address.toNat
      (address.toNat + (source.imageOf context words buffer region).data.length) memory after) :
    source.Tracked core base layout context words buffer after := by
  have fits := length_data_imageOf tracked.makes member
  obtain ⟨_, look, low, -⟩ := tracked.houses.inside region member
  rw [found] at look
  cases look
  refine ⟨tracked.makes, tracked.houses, ?_, ?_⟩
  · apply frame.holds _ tracked.table
    rw [layout.length_tableBytes]
    omega
  · intro other memberOther fills clean place foundOther
    have different : region.id ≠ other.id := by
      intro same
      rw [← same, stale] at clean
      cases clean
    have fitsOther := length_data_imageOf tracked.makes memberOther
    have apart := tracked.houses.apart region member other memberOther different address place
      found foundOther
    apply frame.holds _ (tracked.clean other memberOther fills clean place foundOther)
    omega

/-! ## Changes of the source -/

/-- A region that holds its image is no longer stale. -/
theorem Tracked.markReloaded
    (tracked : source.Tracked core base layout context words buffer memory)
    (member : region ∈ source.regions)
    (fresh : source.Fresh core layout context words buffer memory region) :
    (source.markReloaded [region.id]).Tracked core base layout context words buffer memory := by
  refine ⟨⟨tracked.makes.configuration, tracked.makes.sending⟩, tracked.houses, tracked.table, ?_⟩
  intro other memberOther fills clean
  have erased : (source.dirty.erase region.id).contains other.id = false := clean
  rw [OrderedSet.contains_erase, Bool.and_eq_false_iff, decide_eq_false_iff_not, not_not] at erased
  rcases erased with same | clean
  · rw [List.inj_on_of_nodup_map source.regions_numbered.2 member memberOther same] at fresh
    exact fresh
  · exact tracked.clean other memberOther fills clean

theorem Tracked.reschedule
    (tracked : source.Tracked core base layout context words buffer memory)
    (schedule : Schedule Float) :
    ∃ next, (source.reschedule schedule).Tracked core base layout context words next memory := by
  by_cases sends : source.sending = none
  · rw [reschedule_of_none schedule sends]
    exact ⟨buffer, tracked⟩
  obtain ⟨next, makes⟩ := tracked.makes.reschedule schedule
  refine ⟨next, makes, ?_, tracked.table, ?_⟩
  · rw [regions_reschedule]
    exact tracked.houses
  · intro region member fills clean address found
    rw [regions_reschedule] at member
    obtain ⟨clean, notSent⟩ := contains_reschedule source schedule clean
    have held := tracked.clean region member fills clean address found
    rw [imageOf] at held ⊢
    rw [wordsOf_reschedule source context words buffer next schedule (notSent sends)]
    exact held

theorem Tracked.windowChanged
    (tracked : source.Tracked core base layout context words buffer memory) (timing : Timing) :
    ∃ next, source.windowChanged.Tracked core base layout { context with timing } words next
      memory := by
  obtain ⟨next, makes⟩ := tracked.makes.windowChanged timing
  refine ⟨next, makes, tracked.houses, tracked.table, ?_⟩
  intro region member fills clean address found
  obtain ⟨clean, notTiming, notSent⟩ := contains_windowChanged source clean
  have held := tracked.clean region member fills clean address found
  rw [imageOf] at held ⊢
  rw [wordsOf_windowChanged tracked.makes makes notTiming notSent]
  exact held

/-! ## A first load -/

/-- The images of a source's specification. -/
theorem image?_of_makes (makes : source.Makes context words buffer) {program : Spec.Program}
    {execution : Spec.Execution} (generated : source.generate context = .ok program)
    (executed : program.execute = .ok execution) (id : RegionId) :
    execution.image? id = (source.regions.find? fun region => region.id = id).map
      (source.imageOf context words buffer) := by
  obtain ⟨made, result, generated', executed', images⟩ := makes.generate_spec
  rw [generated] at generated'
  cases generated'
  rw [executed] at executed'
  cases executed'
  exact images id

/-- **After a first load every filled region is fresh.** -/
theorem exists_tracked_of_load {written : List Written} {site loaded : Site Machine}
    (ran : (Site.load core base source.generator context).runOn site =
      (.ok (layout, written), loaded)) :
    ∃ words buffer, source.Tracked core base layout context words buffer loaded.machine.memory := by
  obtain ⟨execution, prepared, done⟩ := Site.prepared_loaded_of_load ran
  obtain ⟨program, generated, executed⟩ := prepared.executed
  obtain ⟨words, buffer, makes⟩ := exists_makes_of_generate generated
  have image : ∀ region ∈ source.regions,
      execution.image? region.id = some (source.imageOf context words buffer region) := by
    intro region member
    rw [image?_of_makes makes generated executed, find?_regions member, Option.map_some]
  have tiles := MemoryMap.layout_laysOut prepared.laidOut
  refine ⟨words, buffer, makes, ⟨tiles.bounded, tiles.table, ?_, ?_⟩, ?_, ?_⟩
  · intro region member
    obtain ⟨_, address, -, -, look, low, high⟩ := prepared.place (image region member)
    exact ⟨address, look, low, high⟩
  · intro region member other memberOther different address place look lookOther
    exact prepared.apart different (image region member) (image other memberOther) look lookOther
  · apply holds_of_read
    rw [layout.length_tableBytes]
    exact done.table
  · intro region member fills _ address look
    obtain ⟨place, lookPlace, read⟩ := done.images (image region member) fills
    rw [look] at lookPlace
    cases lookPlace
    exact holds_of_read read

end Source

end MeshControl
