import MeshControl.Proofs.Reload.Beyond
import MeshControl.Proofs.Reload.History
import MeshControl.Proofs.SendBuffer.Reading
import MeshControl.Proofs.Vertex.FirstFill

/-!
# What rewriting a send buffer leaves behind

A reload writes the image of a region and nothing behind it. So after a first load and any number
of changes with a pass after each, the send buffer of a source holds the image that the source
makes now, behind it the ends of earlier images that were longer, and then the zeros of the start
(`Rewritten.readsBack`). The blocks of the current image read back first. Others follow only where an
earlier image was longer.
-/

namespace MeshControl

open SendBuffer (Entry overlay readBlocks readTicks blocksOf)

namespace Source

/-- What the image of its send buffer holds that a source makes in a context. -/
def sendImage (source : Source) (context : Context) : Bytes :=
  match source.fillSendBuffer context with
  | .ok (some buffer) => (buffer.pack context.timing.first buffer.capacity.toNat).bytes
  | .ok none | .error _ => []

theorem Makes.data_sendBuffer {source : Source} {context : Context} {words : List UInt32}
    {buffer : Option SendBuffer} (makes : source.Makes context words buffer) {region : Region}
    (named : region.id = SourceRegion.sendBuffer.id) :
    (source.imageOf context words buffer region).data = source.sendImage context := by
  rw [sendImage, makes.sending]
  cases buffer with
  | none =>
    show Bytes.ofWords (source.wordsOf context words none region.id) = []
    rw [named]
    rfl
  | some buffer => exact source.data_imageOf_sendBuffer context words buffer region named

/-- A send buffer that is not stale holds its image. -/
theorem Tracked.holds_sendImage {source : Source} {core : Core} {base : UInt32}
    {layout : RegionLayout} {context : Context} {words : List UInt32} {buffer : Option SendBuffer}
    {memory : Machine.Memory}
    (tracked : source.Tracked core base layout context words buffer memory) {sending : Sending}
    (sends : source.sending = some sending)
    (clean : source.dirty.contains SourceRegion.sendBuffer.id = false) {address : UInt32}
    (found : layout.addresses.get? SourceRegion.sendBuffer.id = some address) :
    memory.Holds core.chip address.toNat (source.sendImage context) := by
  have fresh := tracked.clean _ (Has.sendBuffer sends).mem_regions rfl clean address found
  rw [tracked.makes.data_sendBuffer rfl] at fresh
  exact fresh

end Source

namespace Reload

open Machine

/-- The send buffer reads as its image, and behind that as it read before. -/
theorem Berth.read_sendBuffer {berth : Berth} {sending : Source.Sending}
    (sends : berth.source.sending = some sending) {address : UInt32}
    (found : berth.layout.addresses.get? SourceRegion.sendBuffer.id = some address)
    {early late : Memory}
    (holds : late.Holds berth.core.chip address.toNat (berth.source.sendImage berth.context))
    (same : ∀ place, berth.Beyond place →
      late.byteAt berth.core.chip place = early.byteAt berth.core.chip place) :
    late.read berth.core.chip address.toNat sending.capacity.toNat =
      berth.source.sendImage berth.context ++
        (early.read berth.core.chip address.toNat sending.capacity.toNat).drop
          (berth.source.sendImage berth.context).length := by
  have image : (berth.image (SourceRegion.sendBuffer.sized sending.capacity)).data =
      berth.source.sendImage berth.context := berth.makes.data_sendBuffer rfl
  rw [← image] at holds ⊢
  exact berth.read_region (Source.Has.sendBuffer sends).mem_regions found holds same

/-! ## Histories -/

/-- Over its whole size the send buffer of a source reads as images on top of each other. -/
def Layered (source : Source) (core : Core) (layout : RegionLayout) (images : List Bytes)
    (memory : Memory) : Prop :=
  ∃ sending address, source.sending = some sending ∧
    layout.addresses.get? SourceRegion.sendBuffer.id = some address ∧
    memory.read core.chip address.toNat sending.capacity.toNat =
      overlay sending.capacity.toNat images

section

variable (label : String) (core : Core) (base : UInt32) (layout : RegionLayout)

/-- What may happen to a source between two passes. -/
inductive Change : State Machine → Context → State Machine → Context → Prop where
  | rescheduled (schedule : Schedule Float) {state : State Machine} {context : Context} :
    Change state context (state.changeSource label (·.reschedule schedule)) context
  /-- The window moves, and the source is told. -/
  | windowMoved (timing : Timing) {state : State Machine} {context : Context} :
    Change state context (state.changeSource label Source.windowChanged) { context with timing }
  | elsewhere {before after : State Machine} {context : Context}
    (apart : Elsewhere label core base layout before after) : Change before context after context

/-- A source that was loaded on blank memory, then changed and written by a pass any number of
times. What is listed is the source and the context of each writing, the latest first. -/
inductive Rewritten : State Machine → Context → List (Source × Context) → Prop where
  | loaded {source : Source} {context : Context} {site after : Site Machine}
    {written : List Written} {state : State Machine} (named : source.label = label)
    (sends : source.sending ≠ none)
    (blank : ∀ chip place, site.machine.memory.byteAt chip place = 0)
    (ran : (Site.load core base source.generator context).runOn site =
      (.ok (layout, written), after))
    (machine : state.site.machine = after.machine) (keyed : Keyed state.vertices)
    (filed : state.vertices.get? label = some (.source source)) :
    Rewritten state context [(source, context)]
  | passed {before between after : State Machine} {early late : Context} {source : Source}
    {past : List (Source × Context)} {plan : Plan} {names : List String} {summary : Summary}
    (history : Rewritten before early past)
    (change : Change label core base layout before early between late)
    (guides : plan.Guides label core base layout late)
    (spares : PassSpares plan names label core.chip base.toNat
      (base.toNat + layout.totalBytes.toNat) between)
    (visited : label ∈ names) (ran : (pass plan names).runOn between = (.ok summary, after))
    (filed : after.vertices.get? label = some (.source source)) :
    Rewritten after late ((source, late) :: past)

/-- The source of a label is tied to the memory of its core, and its send buffer reads as images
on top of each other. -/
structure Layers (images : List Bytes) (context : Context) (state : State Machine) : Prop where
  tracks : Tracks label core base layout context state
  layered : ∃ source, state.vertices.get? label = some (.source source) ∧
    Layered source core layout images state.site.machine.memory

end

section

variable {label : String} {core : Core} {base : UInt32} {layout : RegionLayout}
  {before after state : State Machine} {early late context : Context} {images : List Bytes}

theorem Change.step (change : Change label core base layout before early after late) :
    Step label core base layout before early after late := by
  cases change with
  | rescheduled schedule => exact .rescheduled schedule
  | windowMoved timing => exact .windowMoved timing
  | elsewhere apart => exact .elsewhere apart

/-- A change that leaves the sending of a source as large as it was writes nothing. -/
theorem Layers.changeSource (layers : Layers label core base layout images early state)
    {change : Source → Source}
    (tracks : Tracks label core base layout late (state.changeSource label change))
    (keeps : ∀ source sending, source.sending = some sending →
      ∃ next, (change source).sending = some next ∧ next.capacity = sending.capacity) :
    Layers label core base layout images late (state.changeSource label change) := by
  refine ⟨tracks, ?_⟩
  obtain ⟨source, filed, sending, address, sends, found, read⟩ := layers.layered
  obtain ⟨next, sendsNext, capacity⟩ := keeps source sending sends
  have changed : state.changeSource label change = { state with
      vertices := state.vertices.insert label (.source (change source)) } := by
    rw [State.changeSource, filed]
  rw [changed]
  refine ⟨change source, OrderedMap.get?_insert_self .., next, address, sendsNext, found, ?_⟩
  rw [capacity]
  exact read

theorem Change.layers (change : Change label core base layout before early after late)
    (layers : Layers label core base layout images early before) :
    Layers label core base layout images late after := by
  have tracks := change.step.tracks layers.tracks
  -- New schedules and windows change the source and not the memory, everything else the reverse.
  cases change with
  | rescheduled schedule =>
    apply layers.changeSource tracks
    intro source sending sends
    rw [Source.reschedule_of_some schedule sends]
    exact ⟨_, rfl, rfl⟩
  | windowMoved timing =>
    apply layers.changeSource tracks
    intro source sending sends
    exact ⟨sending, sends, rfl⟩
  | elsewhere apart =>
    refine ⟨tracks, ?_⟩
    obtain ⟨source, filed, sending, address, sends, found, read⟩ := layers.layered
    obtain ⟨tracked, words, buffer, named, held⟩ := layers.tracks
    subst named
    rw [held.filed] at filed
    cases filed
    obtain ⟨place, look, low, high⟩ :=
      held.tracked.houses.inside _ (Source.Has.sendBuffer sends).mem_regions
    rw [show (SourceRegion.sendBuffer.sized sending.capacity).id = SourceRegion.sendBuffer.id
      from rfl, found] at look
    cases look
    refine ⟨source, apart.filed.trans held.filed, sending, address, sends, found, ?_⟩
    rw [← read]
    apply Memory.read_congr
    intro place above below
    apply apart.bytes
    · omega
    · have size : (SourceRegion.sendBuffer.sized sending.capacity).size = sending.capacity := rfl
      rw [size] at high
      omega

theorem Tracks.holds_sendImage (tracks : Tracks label core base layout context state)
    (clean : Clean label state) {source : Source}
    (filed : state.vertices.get? label = some (.source source)) {sending : Source.Sending}
    (sends : source.sending = some sending) {address : UInt32}
    (found : layout.addresses.get? SourceRegion.sendBuffer.id = some address) :
    state.site.machine.memory.Holds core.chip address.toNat (source.sendImage context) := by
  obtain ⟨tracked, words, buffer, rfl, held⟩ := tracks
  obtain ⟨cleaned, again, fresh⟩ := clean
  cases held.filed.symm.trans filed
  cases again.symm.trans filed
  exact held.tracked.holds_sendImage sends (fresh _) found

/-- **A pass** puts the image that the source makes now on top of what was there. -/
theorem Layers.pass (layers : Layers label core base layout images context before) {plan : Plan}
    {names : List String} {summary : Summary} {source : Source}
    (guides : plan.Guides label core base layout context)
    (spares : PassSpares plan names label core.chip base.toNat
      (base.toNat + layout.totalBytes.toNat) before)
    (visited : label ∈ names) (ran : (pass plan names).runOn before = (.ok summary, after))
    (filed : after.vertices.get? label = some (.source source)) :
    Layers label core base layout (source.sendImage context :: images) context after := by
  obtain ⟨tracks, clean⟩ := pass_guided layers.tracks guides spares
  rw [ran] at tracks clean
  refine ⟨tracks, source, filed, ?_⟩
  obtain ⟨former, was, sending, address, sends, found, read⟩ := layers.layered
  obtain ⟨first, words, buffer, rfl, held⟩ := layers.tracks
  rw [held.filed] at was
  cases was
  -- That the pass is done says what the region starts with, and `pass_keeps` what follows.
  obtain ⟨seats, same⟩ := (Berth.ofTracked held.tracked).pass_keeps guides spares held.seats
  rw [ran] at seats same
  obtain ⟨stale, still⟩ := seats.filed
  have now : source = { former with dirty := stale } :=
    Vertex.source.inj (Option.some.inj (filed.symm.trans still))
  subst now
  refine ⟨sending, address, sends, found, ?_⟩
  rw [overlay, ← read]
  have holds := tracks.holds_sendImage (clean summary rfl visited) filed sends found
  exact (Berth.ofTracked held.tracked).read_sendBuffer sends found holds same

/-- **A first load** on blank memory leaves the image, and zeros behind it. -/
theorem layers_of_load {source : Source} {site loaded : Site Machine} {written : List Written}
    (sends : source.sending ≠ none)
    (blank : ∀ chip place, site.machine.memory.byteAt chip place = 0)
    (ran : (Site.load core base source.generator context).runOn site =
      (.ok (layout, written), loaded))
    (machine : state.site.machine = loaded.machine) (keyed : Keyed state.vertices)
    (filed : state.vertices.get? source.label = some (.source source)) :
    Layers source.label core base layout [source.sendImage context] context state := by
  obtain ⟨words, buffer, tracked⟩ := Source.exists_tracked_of_load ran
  obtain ⟨sending, sends⟩ := Option.ne_none_iff_exists'.1 sends
  refine ⟨⟨source, words, buffer, rfl, keyed, filed, machine ▸ tracked⟩, source, filed, ?_⟩
  obtain ⟨address, found, -⟩ := tracked.houses.inside _ (Source.Has.sendBuffer sends).mem_regions
  refine ⟨sending, address, sends, found, ?_⟩
  -- A load writes all regions, so the source might as well have had no stale ones.
  obtain ⟨_, _, fresh⟩ : ∃ words buffer, Source.Tracked { source with dirty := .empty } core base
      layout context words buffer loaded.machine.memory := Source.exists_tracked_of_load ran
  have holds : loaded.machine.memory.Holds core.chip address.toNat (source.sendImage context) :=
    fresh.holds_sendImage sends rfl found
  have zeros : site.machine.memory.read core.chip address.toNat sending.capacity.toNat =
      overlay sending.capacity.toNat [] := by
    simp [Memory.read_eq_map, blank, overlay]
  rw [overlay, ← zeros, machine]
  apply (Berth.ofTracked tracked).read_sendBuffer sends found holds
  exact fun place beyond => (Berth.ofTracked tracked).load_keeps ran beyond

theorem Rewritten.layers {past : List (Source × Context)}
    (history : Rewritten label core base layout state context past) :
    Layers label core base layout (past.map fun made => made.1.sendImage made.2) context state := by
  induction history with
  | loaded named sends blank ran machine keyed filed =>
    subst named
    exact layers_of_load sends blank ran machine keyed filed
  | passed _ change guides spares visited ran filed ih =>
    exact (change.layers ih).pass guides spares visited ran filed

/-- The latest writing was of the source as it is now. -/
theorem Rewritten.exists_latest {past : List (Source × Context)}
    (history : Rewritten label core base layout state context past) :
    ∃ source earlier, past = (source, context) :: earlier ∧
      state.vertices.get? label = some (.source source) := by
  cases history with
  | loaded _ _ _ _ _ _ filed => exact ⟨_, [], rfl, filed⟩
  | passed _ _ _ _ _ _ filed => exact ⟨_, _, rfl, filed⟩

/-- What a region reads back as over its whole size, when the blocks of some ticks were the last
image written to it and `earlier` are the ones before. -/
structure ReadsBack (core : Core) (address : UInt32) (capacity : Nat) (taken : List Entry)
    (earlier : List Bytes) (machine : Machine) : Prop where
  bytes : machine.memory.read core.chip address.toNat capacity =
    overlay capacity (SendBuffer.encode taken :: earlier)
  answer : inMemory address capacity = true →
    ((Transport.read core.chip address capacity).runOn machine).1 =
      .ok (overlay capacity (SendBuffer.encode taken :: earlier))
  /-- The blocks of the ticks are read first. -/
  blocks : readBlocks (overlay capacity (SendBuffer.encode taken :: earlier)) = blocksOf taken ++
    readBlocks ((overlay capacity earlier).drop (SendBuffer.encode taken).length)
  /-- Nothing else is read if what earlier images left behind the last one is no block. -/
  alone : readBlocks (overlay capacity (SendBuffer.encode taken :: earlier)) = blocksOf taken ↔
    SendBuffer.firstBlock? ((overlay capacity earlier).drop (SendBuffer.encode taken).length) = none
  /-- And so if none of them was longer. -/
  ticks : (∀ image ∈ earlier, image.length ≤ (SendBuffer.encode taken).length) →
    readTicks (overlay capacity (SendBuffer.encode taken :: earlier)) = taken

theorem readsBack_of_read {address : UInt32} {capacity : Nat} {taken : List Entry}
    {earlier : List Bytes} {machine : Machine} (nonempty : ∀ entry ∈ taken, entry.2 ≠ [])
    (distinct : taken.Pairwise fun a b => a.1 ≠ b.1)
    (read : machine.memory.read core.chip address.toNat capacity =
      overlay capacity (SendBuffer.encode taken :: earlier)) :
    ReadsBack core address capacity taken earlier machine := by
  have blocks : readBlocks (overlay capacity (SendBuffer.encode taken :: earlier)) =
      blocksOf taken ++
        readBlocks ((overlay capacity earlier).drop (SendBuffer.encode taken).length) :=
    SendBuffer.readBlocks_encode_append ..
  refine ⟨read, ?_, blocks, ?_, ?_⟩
  · intro inside
    rw [(runOn_read core.chip address capacity machine).2, if_pos inside, read]
  · rw [blocks, List.append_right_eq_self, SendBuffer.readBlocks_eq_nil_iff]
  · intro short
    rw [SendBuffer.overlay_cons_of_short short]
    exact SendBuffer.readTicks_encode_append_zeros nonempty distinct _

/-- **What a send buffer reads back as** after any number of changes, each with a pass after it:
the ticks that the source packs now, on top of what the images before have left. -/
theorem Rewritten.readsBack {past : List (Source × Context)}
    (history : Rewritten label core base layout state context past) :
    ∃ source earlier sending buffer address taken left,
      past = (source, context) :: earlier ∧
      state.vertices.get? label = some (.source source) ∧
      source.sending = some sending ∧
      source.fillSendBuffer context = .ok (some buffer) ∧
      layout.addresses.get? SourceRegion.sendBuffer.id = some address ∧
      buffer.ticksFrom context.timing.first = taken ++ left ∧
      SendBuffer.Packed sending.capacity.toNat taken left
        (buffer.pack context.timing.first sending.capacity.toNat) ∧
      ReadsBack core address sending.capacity.toNat taken
        (earlier.map fun made => made.1.sendImage made.2) state.site.machine := by
  obtain ⟨source, earlier, rfl, filed⟩ := history.exists_latest
  obtain ⟨⟨tracked, words, made, named, held⟩, layered⟩ := history.layers
  obtain ⟨other, filedOther, sending, address, sends, found, read⟩ := layered
  subst named
  cases held.filed.symm.trans filed
  cases filedOther.symm.trans filed
  obtain ⟨none, -⟩ | ⟨again, buffer, same, rfl, capacity, full⟩ := held.tracked.makes.buffer_cases
  · rw [sends] at none
    cases none
  rw [sends] at same
  cases same
  obtain ⟨taken, left, split, packed, nonempty, distinct⟩ :=
    SendBuffer.exists_packed full context.timing.first sending.capacity.toNat
  have image : source.sendImage context = SendBuffer.encode taken := by
    rw [Source.sendImage, held.tracked.makes.sending]
    dsimp only
    rw [capacity, packed.bytes]
  rw [List.map_cons, image] at read
  refine ⟨source, earlier, sending, buffer, address, taken, left, rfl, filed, sends,
    held.tracked.makes.sending, found, split, packed, ?_⟩
  exact readsBack_of_read nonempty distinct read

end

/-! ## A schedule that shrinks -/

namespace Shrunk

/-- One key that is sent at two ticks. -/
def settings : Source.Settings where
  label := "poisson"
  count := 1
  key := some 0x10000
  schedule := some (.shared [1, 2])
  capacity := 64
  threshold := 64
  notification := some ⟨.loopback, 17896, none⟩

/-- What is built from that. -/
def source : Source where
  label := "poisson"
  board := none
  live := none
  keys := ⟨1, some ⟨0x10000, 0xFFFFFFFF⟩, some ⟨0x10000, .upper⟩⟩
  checkKeys := false
  sending := some ⟨.shared [1, 2], 64, 64, ⟨.loopback, 17896, none⟩⟩
  recording := none
  dirty := .empty

theorem built : Source.build settings = .ok source := rfl

/-- The context of all runs. -/
def context : Context where
  timing := .standard
  ipTags := [⟨none, 1, .loopback, 17896, true, "DEFAULT"⟩]

/-- The source with one tick left, which is another. -/
def changed : Source := source.reschedule (.shared [7])

/-- The first load. -/
def firstLoad : Except Fault (RegionLayout × List Written) × Site Machine :=
  (Site.load Sample.core memoryBase source.generator context).runOn ⟨.empty, .start⟩

/-- Where the first load puts the regions. -/
def layout : RegionLayout :=
  ⟨memoryBase, .ofList [(0, 0x60000048), (1, 0x60000054), (2, 0x6000007C), (5, 0x600000BC)], 208⟩

/-- The source is loaded. -/
def ready (machine : Machine) : State Machine :=
  ⟨OrderedMap.empty.insert "poisson" (.source source), ⟨.empty, machine⟩, .host⟩

/-- The source has its new schedule. -/
def shrunk (machine : Machine) : State Machine :=
  (ready machine).changeSource "poisson" (·.reschedule (.shared [7]))

/-- What the pass is told. -/
def plan : Plan :=
  ⟨⟨"images", "reports", false, "host"⟩, .pointerTables (.ofList [(Sample.core, memoryBase)]),
    .ofList [("poisson", Sample.core)], context⟩

/-- The pass after the change. -/
def rewrite (machine : Machine) : Except Fault Summary × State Machine :=
  (pass plan ["poisson"]).runOn (shrunk machine)

set_option maxRecDepth 20000 in
theorem loads : ∃ written, firstLoad = (.ok (layout, written), firstLoad.2) :=
  Site.exists_written_of_layout (by decide +kernel)

set_option maxRecDepth 20000 in
theorem rewrites : (rewrite firstLoad.2.machine).1.isOk = true := by decide +kernel

theorem history {written : List Written} {after : Site Machine} {summary : Summary}
    {state : State Machine} (loaded : firstLoad = (.ok (layout, written), after))
    (rewrote : rewrite after.machine = (.ok summary, state)) :
    ∃ stale, Rewritten "poisson" Sample.core memoryBase layout state context
      [({ changed with dirty := stale }, context), (source, context)] := by
  have keyed : Keyed (ready after.machine).vertices := Keyed.empty.insert rfl
  rw [firstLoad] at loaded
  have first : Rewritten "poisson" Sample.core memoryBase layout (ready after.machine) context
      [(source, context)] :=
    .loaded rfl nofun Memory.byteAt_blank loaded rfl keyed (OrderedMap.get?_insert_self ..)
  have change : Change "poisson" Sample.core memoryBase layout (ready after.machine) context
      (shrunk after.machine) context := by
    rw [shrunk]
    exact .rescheduled (.shared [7])
  have guides : plan.Guides "poisson" Sample.core memoryBase layout context :=
    ⟨by decide, .inl ⟨_, rfl, by decide⟩, rfl⟩
  have spares : PassSpares plan ["poisson"] "poisson" Sample.core.chip memoryBase.toNat
      (memoryBase.toNat + layout.totalBytes.toNat) (shrunk after.machine) :=
    fun _ _ => ⟨fun other => absurd rfl other, fun _ _ => trivial⟩
  have filed : (shrunk after.machine).vertices.get? "poisson" = some (.source changed) := rfl
  have tracks := (change.layers first.layers).tracks
  obtain ⟨stale, still⟩ := tracks.exists_stale_of_pass guides spares filed
  rw [rewrite] at rewrote
  rw [rewrote] at still
  exact ⟨stale, first.passed change guides spares (List.mem_singleton.2 rfl) rewrote still⟩

/-- There is such a run. -/
theorem exists_rewritten : ∃ state stale, Rewritten "poisson" Sample.core memoryBase layout state
    context [({ changed with dirty := stale }, context), (source, context)] := by
  obtain ⟨written, loaded⟩ := loads
  have ok := rewrites
  generalize firstLoad.2 = after at loaded ok
  rcases rewrote : rewrite after.machine with ⟨result, state⟩
  rw [rewrote] at ok
  cases result with
  | error fault => cases ok
  | ok summary => exact ⟨state, history loaded rewrote⟩

theorem sendImage_source : source.sendImage context =
    SendBuffer.encode [(1, [0x10000]), (2, [0x10000])] := by
  decide +kernel

/-- The image of the changed source covers the first block of the one before. -/
theorem overlay_changed : overlay 64 [changed.sendImage context, source.sendImage context] =
    SendBuffer.encode [(7, [0x10000]), (2, [0x10000])] ++ List.replicate 40 0 := by
  decide +kernel

theorem fillSendBuffer_changed : changed.fillSendBuffer context =
    .ok (some ⟨64, .ofList [(7, [0x10000])], 1⟩) := by
  decide +kernel

end Shrunk

/-- What is read after a longer image was written over. -/
theorem Rewritten.readsBack_shrunk :
    Source.build Shrunk.settings = .ok Shrunk.source ∧
      ∃ state past, Rewritten "poisson" Sample.core memoryBase Shrunk.layout state Shrunk.context
        past ∧
      ReadsBack Sample.core 0x6000007C 64 [(7, [0x10000])]
        [SendBuffer.encode [(1, [0x10000]), (2, [0x10000])]] state.site.machine := by
  obtain ⟨state, stale, history⟩ := Shrunk.exists_rewritten
  obtain ⟨source, earlier, sending, buffer, address, taken, left, same, -, sends, filled, found,
    split, packed, reads⟩ := history.readsBack
  cases same
  cases sends
  cases found
  cases filled.symm.trans Shrunk.fillSendBuffer_changed
  have count : taken.length = 1 := packed.tickCount.symm
  obtain ⟨entry, rfl⟩ := List.length_eq_one_iff.1 count
  have first : entry = (7, [0x10000]) := (List.cons.inj split).1.symm
  subst first
  rw [List.map_singleton, Shrunk.sendImage_source] at reads
  exact ⟨Shrunk.built, state, _, history, reads⟩

/-- **A block of an earlier schedule** is read after the blocks of the present one. -/
theorem Rewritten.exists_stale_block :
    ∃ state past source bytes,
      Rewritten "poisson" Sample.core memoryBase Shrunk.layout state Shrunk.context past ∧
      state.vertices.get? "poisson" = some (.source source) ∧
      source.fillSendBuffer Shrunk.context = .ok (some ⟨64, .ofList [(7, [0x10000])], 1⟩) ∧
      Shrunk.layout.addresses.get? SourceRegion.sendBuffer.id = some 0x6000007C ∧
      ((Transport.read Sample.core.chip 0x6000007C 64).runOn state.site.machine).1 = .ok bytes ∧
      readTicks bytes = [(7, [0x10000]), (2, [0x10000])] := by
  obtain ⟨state, stale, history⟩ := Shrunk.exists_rewritten
  obtain ⟨source, earlier, same, filed⟩ := history.exists_latest
  obtain ⟨other, filedOther, sending, address, sends, found, read⟩ := history.layers.layered
  cases same
  cases filedOther.symm.trans filed
  cases sends
  cases found
  change state.site.machine.memory.read Sample.core.chip _ 64 =
    overlay 64 [Shrunk.changed.sendImage Shrunk.context, Shrunk.source.sendImage Shrunk.context]
    at read
  rw [Shrunk.overlay_changed] at read
  refine ⟨state, _, _, SendBuffer.encode [(7, [0x10000]), (2, [0x10000])] ++ List.replicate 40 0,
    history, filed, Shrunk.fillSendBuffer_changed, rfl, ?_, ?_⟩
  · rw [(runOn_read ..).2, if_pos (by decide)]
    exact congrArg Except.ok read
  · exact SendBuffer.readTicks_encode_append_zeros (by decide) (by decide) 40

end Reload

end MeshControl
