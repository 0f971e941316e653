import MeshControl.Proofs.Reload.Pass

/-!
# Bytes that a reload does not touch

The regions of a source are as large as they were declared, and their images may be shorter. What
lies behind an image is written by no load and no pass, done or failed (`Berth.load_keeps`,
`Berth.pass_keeps`). So a region reads as its image, and behind that as it read before
(`Berth.read_region`).
-/

namespace MeshControl.Reload

open Machine

/-- A source with what it makes in a context, and a layout with a place for each of its regions. -/
structure Berth where
  source : Source
  core : Core
  base : UInt32
  layout : RegionLayout
  context : Context
  words : List UInt32
  buffer : Option SendBuffer
  makes : source.Makes context words buffer
  houses : layout.Houses base source.regions

namespace Berth

variable {berth : Berth} {plan : Plan} {state after : State Machine}

/-- The image that the source makes for a region. -/
def image (berth : Berth) (region : Region) : Spec.Image :=
  berth.source.imageOf berth.context berth.words berth.buffer region

/-- A byte of the layout that is part neither of the table nor of an image. -/
structure Beyond (berth : Berth) (place : Nat) : Prop where
  low : berth.base.toNat + PointerTable.size ≤ place
  high : place < berth.base.toNat + berth.layout.totalBytes.toNat
  free : ∀ region ∈ berth.source.regions, ∀ address,
    berth.layout.addresses.get? region.id = some address →
    place < address.toNat ∨ address.toNat + (berth.image region).data.length ≤ place

/-- The source is filed under its label, and its table is in memory. Which of its regions are stale
changes while a pass runs, and no image depends on it. -/
structure Seats (berth : Berth) (state : State Machine) : Prop where
  keyed : Keyed state.vertices
  filed : ∃ stale, state.vertices.get? berth.source.label =
    some (.source { berth.source with dirty := stale })
  table : state.site.machine.memory.Holds berth.core.chip berth.base.toNat berth.layout.tableBytes

/-- The source keeps its seat, and bytes beyond its images stay as they are. -/
def Keeps (berth : Berth) (before after : State Machine) : Prop :=
  berth.Seats before → berth.Seats after ∧ ∀ place, berth.Beyond place →
    after.site.machine.memory.byteAt berth.core.chip place =
      before.site.machine.memory.byteAt berth.core.chip place

instance (berth : Berth) : Std.Refl berth.Keeps := ⟨fun _ seats => ⟨seats, fun _ _ => rfl⟩⟩

instance (berth : Berth) : IsTrans (State Machine) berth.Keeps := by
  constructor
  intro first second third early late seats
  obtain ⟨seated, same⟩ := early seats
  obtain ⟨seatedLater, sameLater⟩ := late seated
  exact ⟨seatedLater, fun place beyond => (sameLater place beyond).trans (same place beyond)⟩

/-- What is known of a source that is tied to the memory of its core. -/
def ofTracked {source : Source} {core : Core} {base : UInt32} {layout : RegionLayout}
    {context : Context} {words : List UInt32} {buffer : Option SendBuffer} {memory : Memory}
    (tracked : source.Tracked core base layout context words buffer memory) : Berth :=
  ⟨source, core, base, layout, context, words, buffer, tracked.makes, tracked.houses⟩

theorem keeps_of_same (vertices : after.vertices = state.vertices)
    (memory : after.site.machine.memory = state.site.machine.memory) :
    berth.Keeps state after := by
  intro seats
  refine ⟨⟨?_, ?_, ?_⟩, fun place _ => by rw [memory]⟩
  · rw [vertices]
    exact seats.keyed
  · rw [vertices]
    exact seats.filed
  · rw [memory]
    exact seats.table

theorem keeps_of_files (same : SameButFiles state after) : berth.Keeps state after := by
  obtain ⟨files, rfl⟩ := same
  exact keeps_of_same rfl rfl

/-- What lies behind the image of a region. -/
theorem beyond_of_behind {region : Region} (member : region ∈ berth.source.regions)
    {address : UInt32} (found : berth.layout.addresses.get? region.id = some address) {place : Nat}
    (behind : address.toNat + (berth.image region).data.length ≤ place)
    (inside : place < address.toNat + region.size.toNat) : berth.Beyond place := by
  obtain ⟨there, look, low, high⟩ := berth.houses.inside region member
  rw [found] at look
  cases look
  refine ⟨by omega, by omega, ?_⟩
  intro other memberOther spot foundOther
  by_cases same : other.id = region.id
  · have equal : other = region :=
      List.inj_on_of_nodup_map berth.source.regions_numbered.2 memberOther member same
    subst equal
    rw [found] at foundOther
    cases foundOther
    exact .inr behind
  · have apart := berth.houses.apart region member other memberOther (Ne.symm same) address spot
      found foundOther
    have room : (berth.image other).data.length ≤ other.size.toNat :=
      Source.length_data_imageOf berth.makes memberOther
    omega

/-- A region reads as its image, and behind that as it read before. -/
theorem read_region {region : Region} (member : region ∈ berth.source.regions) {address : UInt32}
    (found : berth.layout.addresses.get? region.id = some address) {early late : Memory}
    (holds : late.Holds berth.core.chip address.toNat (berth.image region).data)
    (same : ∀ place, berth.Beyond place →
      late.byteAt berth.core.chip place = early.byteAt berth.core.chip place) :
    late.read berth.core.chip address.toNat region.size.toNat =
      (berth.image region).data ++
        (early.read berth.core.chip address.toNat region.size.toNat).drop
          (berth.image region).data.length := by
  apply holds.read_eq_append (Source.length_data_imageOf berth.makes member)
  exact fun place low high => same place (berth.beyond_of_behind member found low high)

/-- A load writes the table and the images. -/
theorem load_keeps {written : List Written} {site loaded : Site Machine}
    (ran : (Site.load berth.core berth.base berth.source.generator berth.context).runOn site =
      (.ok (berth.layout, written), loaded)) {place : Nat} (beyond : berth.Beyond place) :
    loaded.machine.memory.byteAt berth.core.chip place =
      site.machine.memory.byteAt berth.core.chip place := by
  obtain ⟨execution, prepared, untouched⟩ := Site.load_untouched ran
  obtain ⟨program, generated, executed⟩ := prepared.executed
  refine untouched place (.inr beyond.low) ?_
  intro image member
  obtain ⟨look, -⟩ := prepared.filled_place member
  obtain ⟨⟨id, found⟩, -⟩ := Site.mem_filled.1 member
  rw [Source.image?_of_makes berth.makes generated executed] at found
  obtain ⟨region, listed, rfl⟩ := Option.map_eq_some_iff.1 found
  exact beyond.free region (Source.mem_regions_of_find? listed).1 _ look

/-- Writing an image touches no other byte, and not the table. -/
theorem writeImage_steps (guides : plan.Guides berth.source.label berth.core berth.base
    berth.layout berth.context) {region : Region} (member : region ∈ berth.source.regions) :
    Action.Steps berth.Keeps
      (onSite (Site.onMachine (Site.writeImage berth.core (berth.image region) plan.locator))) := by
  intro state seats
  obtain ⟨address, found, behind, -⟩ := berth.houses.inside region member
  have finds : plan.locator.Finds berth.core (berth.image region).region.id address
      state.site.machine :=
    guides.finds berth.houses seats.table
      (UInt8.lt_iff_toNat_lt.2 (berth.source.regions_numbered.1 region member)) found
  have frame := (Site.writeImage_effect finds).1
  refine ⟨⟨seats.keyed, seats.filed, ?_⟩, ?_⟩
  · apply frame.holds _ seats.table
    rw [berth.layout.length_tableBytes]
    exact .inl behind
  · intro place beyond
    exact frame berth.core.chip place fun _ => beyond.free region member address found

theorem markReloaded_steps (berth : Berth) (id : RegionId) :
    Action.Steps berth.Keeps (Reload.markReloaded berth.source.label id) := by
  intro state seats
  obtain ⟨stale, filed⟩ := seats.filed
  have beside := Reload.markReloaded_steps berth.source.label id state
  have ran := @runOn_markReloaded _ { berth.source with dirty := stale } _ filed id
  rw [ran] at beside ⊢
  refine ⟨⟨beside.keyed seats.keyed, ?_, seats.table⟩, fun _ _ => rfl⟩
  exact ⟨stale.eraseAll [id], OrderedMap.get?_insert_self ..⟩

/-- **One region**, written in full or in part, or not at all. -/
theorem reloadRegion_steps (folders : Folders) (guides : plan.Guides berth.source.label berth.core
    berth.base berth.layout berth.context) {execution : Spec.Execution}
    (renders : Renders berth.source berth.context berth.words berth.buffer execution)
    (id : RegionId) :
    Action.Steps berth.Keeps
      (reloadRegion plan folders berth.source.label berth.core execution id) := by
  have image := renders id
  rw [reloadRegion]
  cases found : berth.source.regions.find? fun region => region.id = id with
  | none =>
    rw [found, Option.map_none] at image
    rw [image]
    exact Action.Steps.throw _
  | some region =>
    obtain ⟨member, rfl⟩ := Source.mem_regions_of_find? found
    rw [found, Option.map_some] at image
    rw [image]
    refine (berth.writeImage_steps guides member).bind fun _ => ?_
    refine Action.Steps.bind (fun state => ?_) fun _ => berth.markReloaded_steps region.id
    exact keeps_of_files (keepCopies_steps plan folders berth.core execution _ state)

/-- **One source**, whichever of its regions are stale. -/
theorem reloadSource_steps (folders : Folders) (guides : plan.Guides berth.source.label berth.core
    berth.base berth.layout berth.context) (stale : OrderedSet RegionId) :
    Action.Steps berth.Keeps
      (reloadSource plan folders { berth.source with dirty := stale }) := by
  have makes : Source.Makes { berth.source with dirty := stale } berth.context berth.words
      berth.buffer := ⟨berth.makes.configuration, berth.makes.sending⟩
  obtain ⟨program, execution, generated, executed, renders⟩ := makes.generate_spec
  -- The specification is made and executed without fail, so only the writes are left.
  unfold reloadSource
  rw [guides.placed, guides.told]
  dsimp only
  rw [generated]
  refine Action.Steps.ofExcept_bind ?_
  rintro _ ⟨⟩
  rw [executed]
  refine Action.Steps.ofExcept_bind ?_
  rintro _ ⟨⟩
  refine Action.Steps.bind (fun state => keeps_of_same rfl rfl) fun _ => ?_
  refine Action.Steps.bind (Action.Steps.forM fun id _ => ?_) fun _ => Action.Steps.pure _
  exact berth.reloadRegion_steps folders guides renders id

/-- **One visit**, to the source itself or to a vertex that spares its layout. -/
theorem visit_keeps (folders : Folders) (guides : plan.Guides berth.source.label berth.core
    berth.base berth.layout berth.context) {name : String}
    (spares : name ≠ berth.source.label → ∀ place, berth.base.toNat ≤ place →
      place < berth.base.toNat + berth.layout.totalBytes.toNat →
      ((visit plan folders name).runOn state).2.site.machine.memory.byteAt berth.core.chip place =
        state.site.machine.memory.byteAt berth.core.chip place) :
    berth.Keeps state ((visit plan folders name).runOn state).2 := by
  intro seats
  by_cases own : name = berth.source.label
  · subst own
    obtain ⟨stale, filed⟩ := id seats.filed
    rw [runOn_visit filed]
    split
    · exact berth.reloadSource_steps folders guides stale state seats
    · exact ⟨seats, fun _ _ => rfl⟩
  · have beside := visit_beside plan folders name seats.keyed
    have same := beside.others berth.source.label (Ne.symm own)
    have table := berth.houses.table
    refine ⟨⟨beside.keyed seats.keyed, ?_, ?_⟩, ?_⟩
    · rw [same]
      exact seats.filed
    · refine (Memory.read_congr fun place low high => spares own place low ?_).trans seats.table
      rw [berth.layout.length_tableBytes] at high
      omega
    · intro place beyond
      have low := beyond.low
      exact spares own place (by omega) beyond.high

/-- **Visits in turn.** -/
theorem visitAll_keeps (guides : plan.Guides berth.source.label berth.core berth.base
    berth.layout berth.context) {names : List String} (summary : Summary)
    (spares : Spares plan summary.folders berth.source.label berth.core.chip berth.base.toNat
      (berth.base.toNat + berth.layout.totalBytes.toNat) names state) :
    berth.Keeps state ((visitAll plan summary names).runOn state).2 := by
  induction names generalizing state summary with
  | nil => exact Std.Refl.refl (r := berth.Keeps) state
  | cons name rest ih =>
    obtain ⟨first, later⟩ := spares
    have visited := berth.visit_keeps summary.folders guides first
    rw [visitAll, Action.runOn_bind]
    rcases ran : (visit plan summary.folders name).runOn state with ⟨result, between⟩
    rw [ran] at visited later
    cases result with
    | error fault => exact visited
    | ok count =>
      have rest := ih { summary with
        visited := summary.visited + 1
        reloaded := summary.reloaded + if count = 0 then 0 else 1
        regionsWritten := summary.regionsWritten + count } (later count rfl)
      exact IsTrans.trans (r := berth.Keeps) _ _ _ visited rest

/-- **A pass**, done or failed, touches no byte beyond the images of a source. -/
theorem pass_keeps (guides : plan.Guides berth.source.label berth.core berth.base
    berth.layout berth.context) {names : List String}
    (spares : PassSpares plan names berth.source.label berth.core.chip berth.base.toNat
      (berth.base.toNat + berth.layout.totalBytes.toNat) state) :
    berth.Keeps state ((pass plan names).runOn state).2 := by
  have opening : berth.Keeps state ((openFolders plan).runOn state).2 :=
    keeps_of_files (openFolders_steps plan state)
  rw [PassSpares] at spares
  rw [pass_eq, Action.runOn_bind]
  rcases opened : (openFolders plan).runOn state with ⟨result, ready⟩
  rw [opened] at opening spares
  cases result with
  | error fault => exact opening
  | ok folders =>
    exact IsTrans.trans (r := berth.Keeps) _ _ _ opening
      (berth.visitAll_keeps guides ⟨0, 0, 0, folders⟩ (spares folders rfl))

end Berth

theorem Holding.seats {source : Source} {core : Core} {base : UInt32} {layout : RegionLayout}
    {context : Context} {words : List UInt32} {buffer : Option SendBuffer} {state : State Machine}
    (held : Holding source core base layout context words buffer state) :
    (Berth.ofTracked held.tracked).Seats state :=
  ⟨held.keyed, ⟨source.dirty, held.filed⟩, held.tracked.table⟩

/-- A pass changes nothing of a source but which of its regions are stale. -/
theorem Tracks.exists_stale_of_pass {label : String} {core : Core} {base : UInt32}
    {layout : RegionLayout} {context : Context} {before : State Machine}
    (tracks : Tracks label core base layout context before) {plan : Plan} {names : List String}
    (guides : plan.Guides label core base layout context)
    (spares : PassSpares plan names label core.chip base.toNat
      (base.toNat + layout.totalBytes.toNat) before) {source : Source}
    (filed : before.vertices.get? label = some (.source source)) :
    ∃ stale, ((pass plan names).runOn before).2.vertices.get? label =
      some (.source { source with dirty := stale }) := by
  obtain ⟨former, words, buffer, rfl, held⟩ := tracks
  cases held.filed.symm.trans filed
  exact ((Berth.ofTracked held.tracked).pass_keeps guides spares held.seats).1.filed

end MeshControl.Reload
