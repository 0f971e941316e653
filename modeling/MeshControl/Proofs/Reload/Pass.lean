import MeshControl.Proofs.Reload.Frame
import MeshControl.Proofs.Vertex.Tracking

/-!
# Passes over a machine in software

A pass writes the stale regions of a source, each to its own place, and a region leaves the set
of stale ones only when all of its bytes are in memory. So a source stays tied to the memory of
its core (`Holding`) through every region, visit and pass, done or failed, and a pass that is
done has left none of its regions stale.
-/

namespace MeshControl

namespace Reload

open Machine

variable {source : Source} {core : Core} {base : UInt32} {layout : RegionLayout}
  {context : Context} {words : List UInt32} {buffer : Option SendBuffer}
  {state after : State Machine} {plan : Plan}

/-! ## One source -/

/-- A source is filed under its label and tied to the memory of its core. -/
structure Holding (source : Source) (core : Core) (base : UInt32) (layout : RegionLayout)
    (context : Context) (words : List UInt32) (buffer : Option SendBuffer)
    (state : State Machine) : Prop where
  keyed : Keyed state.vertices
  filed : state.vertices.get? source.label = some (.source source)
  tracked : source.Tracked core base layout context words buffer state.site.machine.memory

theorem Holding.of_files (held : Holding source core base layout context words buffer state)
    (same : SameButFiles state after) :
    Holding source core base layout context words buffer after := by
  obtain ⟨files, rfl⟩ := same
  exact ⟨held.keyed, held.filed, held.tracked⟩

/-- A region that holds its image leaves the stale ones. -/
theorem Holding.markReloaded (held : Holding source core base layout context words buffer state)
    {region : Region} (member : region ∈ source.regions)
    (fresh : source.Fresh core layout context words buffer state.site.machine.memory region) :
    Holding (source.markReloaded [region.id]) core base layout context words buffer
      ((Reload.markReloaded source.label region.id).runOn state).2 := by
  have beside := markReloaded_steps source.label region.id state
  rw [runOn_markReloaded held.filed] at beside ⊢
  constructor
  · exact beside.keyed held.keyed
  · exact OrderedMap.get?_insert_self ..
  · exact held.tracked.markReloaded member fresh

/-- What a plan says of one vertex: it is placed on `core`, its regions are found through the
pointer table at `base`, and they are made in `context`. -/
structure Plan.Serves (plan : Plan) (label : String) (core : Core) (base : UInt32)
    (context : Context) : Prop where
  placed : plan.placements.get? label = some core
  tables : ∃ bases, plan.locator = .pointerTables bases ∧ bases.get? core = some base
  told : plan.context = context

/-- A plan that serves a vertex, whichever way it finds the regions of a layout: through the
pointer table at `base`, or by their addresses. -/
structure Plan.Guides (plan : Plan) (label : String) (core : Core) (base : UInt32)
    (layout : RegionLayout) (context : Context) : Prop where
  placed : plan.placements.get? label = some core
  regions : (∃ bases, plan.locator = .pointerTables bases ∧ bases.get? core = some base) ∨
    ∃ addresses, plan.locator = .known addresses ∧ ∀ id address,
      layout.addresses.get? id = some address → addresses.get? (core, id) = some address
  told : plan.context = context

theorem Plan.Serves.guides {label : String} (serves : plan.Serves label core base context)
    (layout : RegionLayout) : plan.Guides label core base layout context :=
  ⟨serves.placed, .inl serves.tables, serves.told⟩

theorem Plan.Guides.finds {label : String} (guides : plan.Guides label core base layout context)
    {regions : List Region} (houses : layout.Houses base regions) {machine : Machine}
    (table : machine.memory.Holds core.chip base.toNat layout.tableBytes) {id : RegionId}
    (small : id < RegionId.limit) {address : UInt32}
    (found : layout.addresses.get? id = some address) :
    plan.locator.Finds core id address machine := by
  obtain ⟨bases, tables, based⟩ | ⟨addresses, known, covers⟩ := guides.regions
  · have total := houses.bounded
    have size := houses.table
    rw [tables]
    exact Locator.finds_pointerTables based table (by omega) small found
  · rw [known]
    exact Locator.finds_known (covers id address found) machine

/-- The images that a source makes. -/
def Renders (source : Source) (context : Context) (words : List UInt32)
    (buffer : Option SendBuffer) (execution : Spec.Execution) : Prop :=
  ∀ id, execution.image? id = (source.regions.find? fun region => region.id = id).map
    (source.imageOf context words buffer)

/-- A write to a stale region finds the region's own place, and keeps to it. -/
theorem Holding.writeImage (held : Holding source core base layout context words buffer state)
    (guides : plan.Guides source.label core base layout context) {region : Region}
    (member : region ∈ source.regions) (stale : source.dirty.contains region.id = true) :
    let ran := (Site.writeImage core (source.imageOf context words buffer region)
      plan.locator).runOn state.site.machine
    Holding source core base layout context words buffer
        { state with site := ⟨state.site.loader, ran.2⟩ } ∧
      ∀ report, ran.1 = .ok report →
        source.Fresh core layout context words buffer ran.2.memory region := by
  obtain ⟨address, place, -, -⟩ := held.tracked.houses.inside region member
  have finds : plan.locator.Finds core
      (source.imageOf context words buffer region).region.id address state.site.machine :=
    guides.finds held.tracked.houses held.tracked.table
      (UInt8.lt_iff_toNat_lt.2 (source.regions_numbered.1 region member)) place
  obtain ⟨frame, done⟩ := Site.writeImage_effect finds
  constructor
  · exact ⟨held.keyed, held.filed, held.tracked.of_write member place stale frame⟩
  · intro report answered found look
    rw [place] at look
    cases look
    exact (done report answered).2.2

/-- **One region.** A stale region is written and no longer stale, or the source is as it was
and still tied to the memory, however little of the region was stored. -/
theorem reloadRegion_effect (folders : Folders)
    (held : Holding source core base layout context words buffer state)
    (guides : plan.Guides source.label core base layout context) {execution : Spec.Execution}
    (renders : Renders source context words buffer execution) {id : RegionId}
    (stale : source.dirty.contains id = true) :
    let ran := (reloadRegion plan folders source.label core execution id).runOn state
    (∀ fault, ran.1 = .error fault →
        Holding source core base layout context words buffer ran.2) ∧
      (ran.1 = .ok () →
        Holding (source.markReloaded [id]) core base layout context words buffer ran.2) := by
  have image := renders id
  rw [reloadRegion]
  cases found : source.regions.find? fun region => region.id = id with
  | none =>
    rw [found, Option.map_none] at image
    rw [image]
    refine ⟨fun _ _ => held, ?_⟩
    intro done
    cases done
  | some region =>
    obtain ⟨member, rfl⟩ := Source.mem_regions_of_find? found
    rw [found, Option.map_some] at image
    rw [image]
    have effect := held.writeImage guides member stale
    dsimp only
    rw [Action.runOn_bind, runOn_onSite, Action.runOn_onMachine]
    rcases ran : (Site.writeImage core (source.imageOf context words buffer region)
      plan.locator).runOn state.site.machine with ⟨result, machine⟩
    rw [ran] at effect
    obtain ⟨between, done⟩ := effect
    cases result with
    | error fault =>
      refine ⟨fun _ _ => between, ?_⟩
      intro done
      cases done
    | ok report =>
      dsimp only
      rw [Action.runOn_bind]
      have files := keepCopies_steps plan folders core execution
        (source.imageOf context words buffer region)
        { state with site := ⟨state.site.loader, machine⟩ }
      rcases kept : (keepCopies plan folders core execution
        (source.imageOf context words buffer region)).runOn
          { state with site := ⟨state.site.loader, machine⟩ } with ⟨result, copied⟩
      rw [kept] at files
      have beforeMark := between.of_files files
      cases result with
      | error fault =>
        refine ⟨fun _ _ => beforeMark, ?_⟩
        intro done
        cases done
      | ok _ =>
        constructor
        · intro fault failed
          cases failed
        intro _
        apply beforeMark.markReloaded member
        obtain ⟨_, rfl⟩ := files
        exact done report rfl

/-- **Regions in turn.** Those up to the first fault are no longer stale. -/
theorem reloadRegions_effect (folders : Folders)
    (held : Holding source core base layout context words buffer state)
    (guides : plan.Guides source.label core base layout context) {execution : Spec.Execution}
    (renders : Renders source context words buffer execution) {ids : List RegionId}
    (distinct : ids.Nodup) (stale : ∀ id ∈ ids, source.dirty.contains id = true) :
    let ran := (ids.forM (reloadRegion plan folders source.label core execution)).runOn state
    ∃ done, Holding (source.markReloaded done) core base layout context words buffer ran.2 ∧
      (ran.1 = .ok () → done = ids) := by
  induction ids generalizing source state with
  | nil => exact ⟨[], held, fun _ => rfl⟩
  | cons id rest ih =>
    obtain ⟨later, distinct⟩ := List.nodup_cons.1 distinct
    obtain ⟨failed, wrote⟩ := reloadRegion_effect folders held guides renders
      (stale id (List.mem_cons_self ..))
    rw [Action.runOn_forM_cons, Action.runOn_bind]
    rcases ran : (reloadRegion plan folders source.label core execution id).runOn state with
      ⟨result, between⟩
    rw [ran] at failed wrote
    cases result with
    | error fault =>
      refine ⟨[], failed fault rfl, ?_⟩
      intro done
      cases done
    | ok _ =>
      have still : ∀ other ∈ rest, (source.markReloaded [id]).dirty.contains other = true := by
        intro other member
        show (source.dirty.erase id).contains other = true
        rw [OrderedSet.contains_erase, stale other (List.mem_cons_of_mem _ member), Bool.and_true,
          decide_eq_true_iff]
        rintro rfl
        exact later member
      obtain ⟨done, held, complete⟩ := ih (wrote rfl) guides renders distinct still
      refine ⟨id :: done, held, ?_⟩
      intro answered
      rw [complete answered]

/-- **One source.** -/
theorem reloadSource_effect (folders : Folders)
    (held : Holding source core base layout context words buffer state)
    (guides : plan.Guides source.label core base layout context) :
    let ran := (reloadSource plan folders source).runOn state
    ∃ done, Holding (source.markReloaded done) core base layout context words buffer ran.2 ∧
      ∀ count, ran.1 = .ok count → done = source.dirty.toList := by
  rw [reloadSource, guides.placed, guides.told]
  obtain ⟨program, execution, generated, executed, renders⟩ := held.tracked.makes.generate_spec
  dsimp only
  rw [Action.runOn_bind, generated, Action.runOn_ofExcept]
  dsimp only
  rw [Action.runOn_bind, executed, Action.runOn_ofExcept]
  dsimp only
  rw [Action.runOn_bind, runOn_onSite]
  rcases reserved : (Site.reserve core (execution.regions.map Site.Declaration.ofRegion)).runOn
    state.site with ⟨result, site⟩
  have machine : site.machine = state.site.machine :=
    (congrArg (fun ran => ran.2.machine) reserved).symm
  have ready : Holding source core base layout context words buffer { state with site } := by
    refine ⟨held.keyed, held.filed, ?_⟩
    show source.Tracked _ _ _ _ _ _ site.machine.memory
    rw [machine]
    exact held.tracked
  cases result with
  | error fault =>
    refine ⟨[], ready, ?_⟩
    intro count answered
    cases answered
  | ok _ =>
    dsimp only
    have listed : ∀ id ∈ source.dirty.toList, source.dirty.contains id = true :=
      fun id member => (source.dirty.mem_toList_iff id).1 member
    have distinct : source.dirty.toList.Nodup := source.dirty.members.keys_nodup
    obtain ⟨done, held, complete⟩ := reloadRegions_effect folders ready guides renders distinct
      listed
    rw [Action.runOn_bind]
    rcases wrote : (source.dirty.toList.forM
      (reloadRegion plan folders source.label core execution)).runOn { state with site } with
      ⟨result, after⟩
    rw [wrote] at held complete
    cases result with
    | error fault =>
      refine ⟨done, held, ?_⟩
      intro count answered
      cases answered
    | ok _ => exact ⟨done, held, fun _ _ => complete rfl⟩

/-! ## One visit -/

/-- The source of a label is tied to the memory of its core. -/
def Tracks (label : String) (core : Core) (base : UInt32) (layout : RegionLayout)
    (context : Context) (state : State Machine) : Prop :=
  ∃ source words buffer, source.label = label ∧
    Holding source core base layout context words buffer state

/-- No region of the source of a label is stale. -/
def Clean (label : String) (state : State Machine) : Prop :=
  ∃ source, state.vertices.get? label = some (.source source) ∧
    ∀ id, source.dirty.contains id = false

/-- What happens to other vertices, outside the layout, does not matter. -/
theorem Tracks.of_same {label : String} (tracks : Tracks label core base layout context state)
    (keyed : Keyed after.vertices)
    (filed : after.vertices.get? label = state.vertices.get? label)
    (bytes : ∀ place, base.toNat ≤ place → place < base.toNat + layout.totalBytes.toNat →
      after.site.machine.memory.byteAt core.chip place =
        state.site.machine.memory.byteAt core.chip place) :
    Tracks label core base layout context after := by
  obtain ⟨source, words, buffer, rfl, held⟩ := tracks
  exact ⟨source, words, buffer, rfl, keyed, filed.trans held.filed, held.tracked.of_same bytes⟩

/-- A visit to the source's own vertex. -/
theorem visit_own (folders : Folders) {label : String}
    (tracks : Tracks label core base layout context state)
    (guides : plan.Guides label core base layout context) :
    let ran := (visit plan folders label).runOn state
    Tracks label core base layout context ran.2 ∧ ∀ count, ran.1 = .ok count → Clean label ran.2 := by
  obtain ⟨source, words, buffer, rfl, held⟩ := tracks
  rw [runOn_visit held.filed]
  by_cases needs : source.needsReload = true
  · rw [if_pos needs]
    obtain ⟨done, held, complete⟩ := reloadSource_effect folders held guides
    refine ⟨⟨source.markReloaded done, words, buffer, rfl, held⟩, ?_⟩
    intro count answered
    refine ⟨source.markReloaded done, held.filed, ?_⟩
    intro id
    rw [complete count answered]
    exact source.dirty.contains_eraseAll_toList id
  · rw [if_neg needs]
    refine ⟨⟨source, words, buffer, rfl, held⟩, fun _ _ => ⟨source, held.filed, ?_⟩⟩
    intro id
    have empty : source.dirty.members.entries = [] := by
      rw [Source.needsReload, Bool.not_eq_true', Bool.not_eq_false] at needs
      exact List.isEmpty_iff.1 needs
    rw [OrderedSet.contains, OrderedMap.contains, OrderedMap.get?, empty]
    rfl

/-- **One visit.** A vertex that is visited is up to date, and one that is not stays as it was. -/
theorem visit_effect (folders : Folders) {label name : String}
    (tracks : Tracks label core base layout context state)
    (guides : plan.Guides label core base layout context)
    (spares : name ≠ label → ∀ place, base.toNat ≤ place →
      place < base.toNat + layout.totalBytes.toNat →
      ((visit plan folders name).runOn state).2.site.machine.memory.byteAt core.chip place =
        state.site.machine.memory.byteAt core.chip place) :
    let ran := (visit plan folders name).runOn state
    Tracks label core base layout context ran.2 ∧
      ∀ count, ran.1 = .ok count → name = label ∨ Clean label state → Clean label ran.2 := by
  by_cases own : name = label
  · subst own
    obtain ⟨tracked, done⟩ := visit_own folders tracks guides
    exact ⟨tracked, fun count answered _ => done count answered⟩
  · obtain ⟨source, words, buffer, rfl, held⟩ := id tracks
    have beside := visit_beside plan folders name held.keyed
    have same := beside.others source.label (Ne.symm own)
    refine ⟨tracks.of_same (beside.keyed held.keyed) same (spares own), ?_⟩
    rintro count answered (same' | ⟨clean, filed, none⟩)
    · exact absurd same' own
    · exact ⟨clean, same.trans filed, none⟩

/-! ## A pass -/

/-- No visit to another vertex changes the bytes from `start` up to `finish`. -/
def Spares (plan : Plan) (folders : Folders) (label : String) (chip : Chip) (start finish : Nat) :
    List String → State Machine → Prop
  | [], _ => True
  | name :: rest, state =>
    let ran := (visit plan folders name).runOn state
    (name ≠ label → ∀ place, start ≤ place → place < finish →
      ran.2.site.machine.memory.byteAt chip place = state.site.machine.memory.byteAt chip place) ∧
    ∀ count, ran.1 = .ok count → Spares plan folders label chip start finish rest ran.2

/-- **Visits in turn.** -/
theorem visitAll_effect {label : String} {names : List String} (summary : Summary)
    (tracks : Tracks label core base layout context state)
    (guides : plan.Guides label core base layout context)
    (spares : Spares plan summary.folders label core.chip base.toNat
      (base.toNat + layout.totalBytes.toNat) names state) :
    let ran := (visitAll plan summary names).runOn state
    Tracks label core base layout context ran.2 ∧
      ∀ total, ran.1 = .ok total → label ∈ names ∨ Clean label state → Clean label ran.2 := by
  induction names generalizing state summary with
  | nil =>
    refine ⟨tracks, ?_⟩
    intro total answered clean
    exact clean.resolve_left List.not_mem_nil
  | cons name rest ih =>
    obtain ⟨first, later⟩ := spares
    obtain ⟨tracked, done⟩ := visit_effect summary.folders tracks guides first
    rw [visitAll, Action.runOn_bind]
    rcases ran : (visit plan summary.folders name).runOn state with ⟨result, between⟩
    rw [ran] at tracked done later
    cases result with
    | error fault =>
      refine ⟨tracked, ?_⟩
      intro total answered
      cases answered
    | ok count =>
      obtain ⟨tracked, finished⟩ := ih { summary with
        visited := summary.visited + 1
        reloaded := summary.reloaded + if count = 0 then 0 else 1
        regionsWritten := summary.regionsWritten + count } tracked (later count rfl)
      refine ⟨tracked, ?_⟩
      intro total answered clean
      apply finished total answered
      rcases clean with member | clean
      · rcases List.mem_cons.1 member with rfl | member
        · exact .inr (done count rfl (.inl rfl))
        · exact .inl member
      · exact .inr (done count rfl (.inr clean))

/-- Make the folders of a pass. -/
def openFolders (plan : Plan) : Action (State Machine) Folders := do
  let images ← makeFolder plan.settings.imageParent
  let reports ← makeFolder plan.settings.reportParent
  return ⟨images, reports⟩

theorem runOn_openFolders (plan : Plan) (state : State Machine) :
    (openFolders plan).runOn state =
      ((makeFolders plan.settings state.files).1,
        { state with files := (makeFolders plan.settings state.files).2 }) := by
  rw [openFolders, runOn_withFolders]
  rcases makeFolders plan.settings state.files with ⟨result, files⟩
  cases result <;> rfl

theorem openFolders_steps (plan : Plan) : Action.Steps SameButFiles (openFolders plan) := by
  intro state
  rw [runOn_openFolders]
  exact ⟨_, rfl⟩

theorem pass_eq (plan : Plan) (names : List String) :
    (pass plan names : Action (State Machine) Summary) =
      openFolders plan >>= fun folders => visitAll plan ⟨0, 0, 0, folders⟩ names := by
  simp only [pass, openFolders, bind_assoc, pure_bind]

/-- No visit of a pass to another vertex changes the bytes from `start` up to `finish`. -/
def PassSpares (plan : Plan) (names : List String) (label : String) (chip : Chip)
    (start finish : Nat) (state : State Machine) : Prop :=
  ∀ folders, ((openFolders plan).runOn state).1 = .ok folders →
    Spares plan folders label chip start finish names ((openFolders plan).runOn state).2

/-- **A pass.** Done or failed, it keeps the source tied to the memory of its core; once it is
done, no region of a source that it was to visit is stale. -/
theorem pass_guided {label : String} {names : List String}
    (tracks : Tracks label core base layout context state)
    (guides : plan.Guides label core base layout context)
    (spares : PassSpares plan names label core.chip base.toNat
      (base.toNat + layout.totalBytes.toNat) state) :
    let ran := (pass plan names).runOn state
    Tracks label core base layout context ran.2 ∧
      ∀ total, ran.1 = .ok total → label ∈ names → Clean label ran.2 := by
  have files := openFolders_steps plan state
  rw [PassSpares] at spares
  rw [pass_eq, Action.runOn_bind]
  rcases opened : (openFolders plan).runOn state with ⟨result, ready⟩
  rw [opened] at files spares
  have readied : Tracks label core base layout context ready := by
    obtain ⟨source, words, buffer, named, held⟩ := tracks
    exact ⟨source, words, buffer, named, held.of_files files⟩
  cases result with
  | error fault =>
    refine ⟨readied, ?_⟩
    intro total answered
    cases answered
  | ok folders =>
    obtain ⟨tracked, clean⟩ := visitAll_effect ⟨0, 0, 0, folders⟩ readied guides
      (spares folders rfl)
    exact ⟨tracked, fun total answered member => clean total answered (.inl member)⟩

/-- The same for a plan that goes through the pointer table. -/
theorem pass_effect {label : String} {names : List String}
    (tracks : Tracks label core base layout context state)
    (serves : plan.Serves label core base context)
    (spares : PassSpares plan names label core.chip base.toNat
      (base.toNat + layout.totalBytes.toNat) state) :
    let ran := (pass plan names).runOn state
    Tracks label core base layout context ran.2 ∧
      ∀ total, ran.1 = .ok total → label ∈ names → Clean label ran.2 :=
  pass_guided tracks (serves.guides layout) spares

end Reload

end MeshControl
