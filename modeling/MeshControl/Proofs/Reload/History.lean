import MeshControl.Proofs.Reload.Pass

/-!
# Histories of a source

After its first load a source gets new schedules and new windows, and passes write its stale
regions, with writes that may fall short and passes that may fail. Whatever the order, a region
that is not known to be stale is up to date (`History.upToDate`).
-/

namespace MeshControl

open Machine

/-- The covered regions that a source fills hold what its specification now makes for them. -/
def Source.UpToDate (source : Source) (core : Core) (layout : RegionLayout) (context : Context)
    (memory : Memory) (covered : RegionId → Prop) : Prop :=
  ∃ program execution, source.generate context = .ok program ∧
    program.execute = .ok execution ∧
    ∀ region ∈ source.regions, region.unfilled = false → covered region.id →
      ∃ image address, execution.image? region.id = some image ∧
        layout.addresses.get? region.id = some address ∧
        memory.read core.chip address.toNat image.data.length = image.data

/-- Regions that are not known to be stale are up to date. -/
theorem Source.Tracked.upToDate_of_clean {source : Source} {core : Core} {base : UInt32}
    {layout : RegionLayout} {context : Context} {words : List UInt32}
    {buffer : Option SendBuffer} {memory : Memory}
    (tracked : source.Tracked core base layout context words buffer memory) :
    source.UpToDate core layout context memory fun id => source.dirty.contains id = false := by
  obtain ⟨program, execution, generated, executed, images⟩ := tracked.makes.generate_spec
  refine ⟨program, execution, generated, executed, ?_⟩
  intro region member fills clean
  obtain ⟨address, place, -, -⟩ := tracked.houses.inside region member
  have image : execution.image? region.id = some (source.imageOf context words buffer region) := by
    rw [images, find?_regions member, Option.map_some]
  exact ⟨_, address, image, place, tracked.clean region member fills clean address place⟩

namespace Reload

/-- The state with the source of a label changed. -/
def State.changeSource {σ : Type} (label : String) (change : Source → Source) (state : State σ) :
    State σ :=
  match state.vertices.get? label with
  | some (.source source) =>
    { state with vertices := state.vertices.insert label (.source (change source)) }
  | _ => state

section

variable (label : String) (core : Core) (base : UInt32) (layout : RegionLayout)

/-- Changes that do not reach a vertex or the bytes of its layout: writes that are told to fall
short, other vertices, memory of other cores, files, and declarations. -/
structure Elsewhere (before after : State Machine) : Prop where
  keyed : Keyed after.vertices
  filed : after.vertices.get? label = before.vertices.get? label
  bytes : ∀ place, base.toNat ≤ place → place < base.toNat + layout.totalBytes.toNat →
    after.site.machine.memory.byteAt core.chip place =
      before.site.machine.memory.byteAt core.chip place

/-- What may happen between runs to a source that is alone on its core. -/
inductive Step : State Machine → Context → State Machine → Context → Prop where
  | rescheduled (schedule : Schedule Float) {state : State Machine} {context : Context} :
    Step state context (state.changeSource label (·.reschedule schedule)) context
  /-- The window moves, and the source is told. -/
  | windowMoved (timing : Timing) {state : State Machine} {context : Context} :
    Step state context (state.changeSource label Source.windowChanged) { context with timing }
  | elsewhere {before after : State Machine} {context : Context}
    (apart : Elsewhere label core base layout before after) : Step before context after context
  /-- A pass, whether it is done or fails. -/
  | passed {plan : Plan} {names : List String} {state : State Machine} {context : Context}
    (serves : plan.Serves label core base context)
    (spares : PassSpares plan names label core.chip base.toNat
      (base.toNat + layout.totalBytes.toNat) state) :
    Step state context ((pass plan names).runOn state).2 context

/-- States that follow the first load of a source, with the context of the next run. -/
inductive History : State Machine → Context → Prop where
  | loaded {source : Source} {context : Context} {site after : Site Machine}
    {written : List Written} {state : State Machine} (named : source.label = label)
    (ran : (Site.load core base source.generator context).runOn site =
      (.ok (layout, written), after))
    (machine : state.site.machine = after.machine) (keyed : Keyed state.vertices)
    (filed : state.vertices.get? label = some (.source source)) : History state context
  | step {before after : State Machine} {early late : Context} (history : History before early)
    (next : Step label core base layout before early after late) : History after late

end

section

variable {label : String} {core : Core} {base : UInt32} {layout : RegionLayout}
  {state : State Machine} {context : Context}

/-- A source stays filed under its label when it is changed. -/
theorem Tracks.changeSource (tracks : Tracks label core base layout context state)
    {change : Source → Source} (named : ∀ source, (change source).label = source.label)
    {next : Context}
    (keeps : ∀ source words buffer memory,
      source.Tracked core base layout context words buffer memory →
      ∃ words buffer, (change source).Tracked core base layout next words buffer memory) :
    Tracks label core base layout next (state.changeSource label change) := by
  obtain ⟨source, words, buffer, rfl, held⟩ := tracks
  obtain ⟨words, buffer, tracked⟩ := keeps source words buffer _ held.tracked
  have changed : state.changeSource source.label change = { state with
      vertices := state.vertices.insert source.label (.source (change source)) } := by
    rw [State.changeSource, held.filed]
  rw [changed]
  refine ⟨change source, words, buffer, named source, ?_, ?_, tracked⟩
  · exact held.keyed.insert (named source)
  · rw [named]
    exact OrderedMap.get?_insert_self ..

/-- **One step** keeps the source tied to the memory of its core. -/
theorem Step.tracks {before after : State Machine} {early late : Context}
    (step : Step label core base layout before early after late)
    (tracks : Tracks label core base layout early before) :
    Tracks label core base layout late after := by
  cases step with
  | rescheduled schedule =>
    apply tracks.changeSource (fun source => source.label_reschedule schedule)
    intro source words buffer memory tracked
    obtain ⟨next, tracked⟩ := tracked.reschedule schedule
    exact ⟨words, next, tracked⟩
  | windowMoved timing =>
    have named : ∀ source, (Source.windowChanged source).label = source.label := fun _ => rfl
    apply tracks.changeSource named
    intro source words buffer memory tracked
    obtain ⟨next, tracked⟩ := tracked.windowChanged timing
    exact ⟨words, next, tracked⟩
  | elsewhere apart => exact tracks.of_same apart.keyed apart.filed apart.bytes
  | passed serves spares => exact (pass_effect tracks serves spares).1

/-- Through its whole history a source is tied to the memory of its core. -/
theorem History.tracks (history : History label core base layout state context) :
    Tracks label core base layout context state := by
  induction history with
  | loaded named ran machine keyed filed =>
    obtain ⟨words, buffer, tracked⟩ := Source.exists_tracked_of_load ran
    rw [← machine] at tracked
    exact ⟨_, words, buffer, named, keyed, named ▸ filed, tracked⟩
  | step _ next ih => exact next.tracks ih

/-- **A region that is not known to be stale is up to date**, in every state of the history of a
source; and after a pass that is done all of them are. -/
theorem History.upToDate (history : History label core base layout state context) :
    (∃ source, state.vertices.get? label = some (.source source) ∧
      source.UpToDate core layout context state.site.machine.memory
        fun id => source.dirty.contains id = false) ∧
    ∀ plan names summary after, plan.Serves label core base context →
      PassSpares plan names label core.chip base.toNat
        (base.toNat + layout.totalBytes.toNat) state →
      label ∈ names → (pass plan names).runOn state = (.ok summary, after) →
      ∃ source, after.vertices.get? label = some (.source source) ∧
        source.UpToDate core layout context after.site.machine.memory fun _ => True := by
  have tracks := history.tracks
  constructor
  · obtain ⟨source, words, buffer, rfl, held⟩ := tracks
    exact ⟨source, held.filed, held.tracked.upToDate_of_clean⟩
  · intro plan names summary after serves spares member ran
    obtain ⟨tracks, clean⟩ := pass_effect tracks serves spares
    rw [ran] at tracks clean
    obtain ⟨source, words, buffer, rfl, held⟩ := tracks
    obtain ⟨source', filed, none⟩ := clean summary rfl member
    rw [held.filed] at filed
    cases filed
    obtain ⟨program, execution, generated, executed, fresh⟩ := held.tracked.upToDate_of_clean
    refine ⟨source, held.filed, program, execution, generated, executed, ?_⟩
    intro region member fills _
    exact fresh region member fills (none region.id)

end

/-! ## A pass that is cut short, and the one that resumes it -/

namespace Sample

/-- The core of a small source. -/
def core : Core := ⟨⟨0, 0⟩, 1, by decide⟩

/-- Four keys that are sent and recorded. -/
def settings : Source.Settings where
  label := "poisson"
  count := 4
  key := some 0x10000
  schedule := some (.shared [])
  capacity := 16
  threshold := 8
  notification := some ⟨.loopback, 17896, none⟩
  recording := some ⟨32, 16⟩

/-- What is built from that. -/
def source : Source where
  label := "poisson"
  board := none
  live := none
  keys := ⟨4, some ⟨0x10000, 0xFFFFFFFC⟩, some ⟨0x10000, .upper⟩⟩
  checkKeys := false
  sending := some ⟨.shared [], 16, 8, ⟨.loopback, 17896, none⟩⟩
  recording := some ⟨32, 16⟩
  dirty := .empty

theorem built : Source.build settings = .ok source := rfl

/-- The context of the first run. -/
def early : Context where
  timing := .standard
  ipTags := [⟨none, 1, .loopback, 17896, true, "DEFAULT"⟩]

/-- The context of the second run. -/
def late : Context := { early with timing := Timing.standard.withWindow 10 (some 20) }

/-- The first load. -/
def firstLoad : Except Fault (RegionLayout × List Written) × Site Machine :=
  (Site.load core memoryBase source.generator early).runOn ⟨.empty, .start⟩

/-- Where the first load puts the regions. -/
def layout : RegionLayout :=
  ⟨memoryBase, .ofList [(0, 0x60000048), (1, 0x60000054), (2, 0x6000007C), (3, 0x6000008C),
    (4, 0x600000AC), (5, 0x600000B4)], 200⟩

/-- The source is loaded. -/
def ready (machine : Machine) : State Machine :=
  ⟨OrderedMap.empty.insert "poisson" (.source source), ⟨.empty, machine⟩, .host⟩

/-- The window has moved, and half of the next write to the timing is going to be lost. -/
def shortened (machine : Machine) : State Machine :=
  { (ready machine).changeSource "poisson" Source.windowChanged with
    site := ⟨.empty, machine.shorten ⟨0, 0⟩ 0x60000048⟩ }

/-- What the passes are told. -/
def plan : Plan :=
  ⟨⟨"images", "reports", false, "host"⟩, .pointerTables (.ofList [(core, memoryBase)]),
    .ofList [("poisson", core)], late⟩

/-- A first pass. -/
def attempt (machine : Machine) : Except Fault Summary × State Machine :=
  (pass plan ["poisson"]).runOn (shortened machine)

theorem serves : plan.Serves "poisson" core memoryBase late :=
  ⟨by decide, ⟨_, rfl, by decide⟩, rfl⟩

/-- No other vertex is visited. -/
theorem spares (state : State Machine) (start finish : Nat) :
    PassSpares plan ["poisson"] "poisson" core.chip start finish state :=
  fun _ _ => ⟨fun other => absurd rfl other, fun _ _ => trivial⟩

set_option maxRecDepth 20000 in
theorem loads : ∃ written, firstLoad = (.ok (layout, written), firstLoad.2) :=
  Site.exists_written_of_layout (by decide +kernel)

theorem history {written : List Written} {after : Site Machine}
    (ran : (Site.load core memoryBase source.generator early).runOn ⟨.empty, .start⟩ =
      (.ok (layout, written), after)) :
    History "poisson" core memoryBase layout (attempt after.machine).2 late := by
  have keyed : Keyed (ready after.machine).vertices := Keyed.empty.insert rfl
  have loaded : History "poisson" core memoryBase layout (ready after.machine) early :=
    .loaded rfl ran rfl keyed (OrderedMap.get?_insert_self ..)
  have moved := loaded.step (.windowMoved late.timing)
  have short : History "poisson" core memoryBase layout (shortened after.machine) late :=
    moved.step (.elsewhere ⟨keyed.insert rfl, rfl, fun _ _ _ => rfl⟩)
  exact short.step (.passed serves (spares _ _ _))

set_option maxRecDepth 20000 in
theorem attempt_fails : (attempt firstLoad.2.machine).1.isOk = false := by decide +kernel

set_option maxRecDepth 20000 in
theorem resumes :
    ((pass plan ["poisson"]).runOn (attempt firstLoad.2.machine).2).1.isOk = true := by
  decide +kernel

end Sample

/-- After a pass that was cut short, and after the one that resumes it. -/
theorem History.upToDate_resumed :
    let cut := Sample.attempt Sample.firstLoad.2.machine
    Source.build Sample.settings = .ok Sample.source ∧ cut.1.isOk = false ∧
      History "poisson" Sample.core memoryBase Sample.layout cut.2 Sample.late ∧
      (∃ source, cut.2.vertices.get? "poisson" = some (.source source) ∧
        source.UpToDate Sample.core Sample.layout Sample.late cut.2.site.machine.memory
          fun id => source.dirty.contains id = false) ∧
      ∃ summary after source,
        (pass Sample.plan ["poisson"]).runOn cut.2 = (.ok summary, after) ∧
        after.vertices.get? "poisson" = some (.source source) ∧
        source.UpToDate Sample.core Sample.layout Sample.late after.site.machine.memory
          fun _ => True := by
  obtain ⟨written, loaded⟩ := Sample.loads
  have history := Sample.history loaded
  have failed := Sample.attempt_fails
  have resumes := Sample.resumes
  -- From here on it does not matter what the loaded machine holds.
  generalize Sample.firstLoad.2.machine = machine at history failed resumes ⊢
  obtain ⟨now, later⟩ := History.upToDate history
  rcases resumed : (pass Sample.plan ["poisson"]).runOn (Sample.attempt machine).2 with
    ⟨result, after⟩
  rw [resumed] at resumes
  cases result with
  | error fault => cases resumes
  | ok summary =>
    obtain ⟨source, filed, fresh⟩ := later Sample.plan ["poisson"] summary after Sample.serves
      (Sample.spares _ _ _) (List.mem_singleton.2 rfl) resumed
    exact ⟨Sample.built, failed, history, now, summary, after, source, resumed, filed, fresh⟩

end Reload

end MeshControl
