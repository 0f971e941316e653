import MeshControl.Proofs.SendBuffer.Windows
import MeshControl.Proofs.Vertex.Specification
import MeshControl.Proofs.Vertex.Tracking

/-!
# Running a source in windows

A run of a source can be cut into windows, and its send buffer is filled anew for each of them.
What it sends then is what it would send in one run (`SendsInTurn`). The length of the run is made
apart from the send buffer, and the core is told it in the timing region: it covers every tick
that is sent (`TellsLength`), and the lengths of the windows add up to that of the whole.

All this holds however times are read as ticks.
-/

namespace MeshControl

/-- The same context with another window. -/
def Context.during (context : Context) (first : Tick) (last : Option Tick) : Context :=
  { context with timing := context.timing.withWindow first last }

namespace Source

/-- The keys to send in the window of the context if `tickOf` says which tick a time falls to. -/
def fillSendBufferBy (source : Source) (tickOf : Float → Option Tick) (context : Context) :
    Except Fault (Option SendBuffer) :=
  match source.sending with
  | none => .ok none
  | some sending =>
    match (source.routedKeys context).pattern with
    | none => .error (.specification (.noBaseKey source.label))
    | some pattern =>
      .ok (some ((SendBuffer.empty sending.capacity).fill tickOf context.timing sending.schedule
        pattern.key source.sendCount).1)

/-- A source reads times by the timing of its context, in which the window plays no part. -/
theorem fillSendBuffer_during (source : Source) (context : Context) (first : Tick)
    (last : Option Tick) :
    source.fillSendBuffer (context.during first last) =
      source.fillSendBufferBy context.timing.tickOf (context.during first last) :=
  rfl

/-- From `first` to `last` the same ticks are sent with the same keys as first up to `middle` and
then from there on. -/
def SendsInTurn (source : Source) (tickOf : Float → Option Tick) (context : Context)
    (first middle : Tick) (last : Option Tick) : Prop :=
  ∃ early late whole : SendBuffer,
    source.fillSendBufferBy tickOf (context.during first (some middle)) = .ok (some early) ∧
    source.fillSendBufferBy tickOf (context.during middle last) = .ok (some late) ∧
    source.fillSendBufferBy tickOf (context.during first last) = .ok (some whole) ∧
    whole.ticks.entries = early.ticks.entries ++ late.ticks.entries

/-- The third word of the timing region is the length of the run, and all ticks that are sent lie
within that length of the first. -/
structure TellsLength (source : Source) (sending : Sending) (tickOf : Float → Option Tick)
    (context : Context) (first last : Tick) : Prop where
  /-- There is a specification if there is a tag for notifications. -/
  made : (∃ tag ∈ context.ipTags,
      tag.host = sending.notification.host ∧ tag.port = sending.notification.port) →
    ∃ program, source.generate (context.during first (some last)) = .ok program
  told : ∀ program, source.generate (context.during first (some last)) = .ok program →
    ∃ execution image length buffer, program.execute = .ok execution ∧
      execution.image? SourceRegion.timing.id = some image ∧
      image.data = Bytes.ofWords [context.timing.stepMicros, context.timing.scale, length] ∧
      length = (context.during first (some last)).timing.runLength ∧
      source.fillSendBufferBy tickOf (context.during first (some last)) = .ok (some buffer) ∧
      ∀ entry ∈ buffer.ticks.entries,
        first ≤ entry.1 ∧ entry.1.toNat < first.toNat + length.toNat

variable {source : Source} {sending : Sending} {context : Context} {pattern : Key.Pattern}

/-- The send buffer of a source with a schedule and a key. -/
theorem fillSendBufferBy_during (sends : source.sending = some sending)
    (keyed : (source.routedKeys context).pattern = some pattern) (tickOf : Float → Option Tick)
    (first : Tick) (last : Option Tick) :
    source.fillSendBufferBy tickOf (context.during first last) =
      .ok (some ((SendBuffer.empty sending.capacity).fill tickOf
        (context.timing.withWindow first last) sending.schedule pattern.key
          source.sendCount).1) := by
  have routed : (source.routedKeys (context.during first last)).pattern = some pattern := keyed
  rw [fillSendBufferBy, sends]
  dsimp only
  rw [routed]
  rfl

theorem sendsInTurn (sends : source.sending = some sending)
    (keyed : (source.routedKeys context).pattern = some pattern) (tickOf : Float → Option Tick)
    {first middle : Tick} {last : Option Tick} (early : first ≤ middle)
    (late : ∀ limit ∈ last, middle ≤ limit) :
    source.SendsInTurn tickOf context first middle last :=
  ⟨_, _, _, fillSendBufferBy_during sends keyed tickOf first (some middle),
    fillSendBufferBy_during sends keyed tickOf middle last,
    fillSendBufferBy_during sends keyed tickOf first last,
    SendBuffer.entries_fill_append _ _ _ _ _ _ early late⟩

/-- The image of the timing region holds the words that tell the core the timing. -/
theorem image?_timing {program : Spec.Program} (made : source.generate context = .ok program) :
    ∃ execution image, program.execute = .ok execution ∧
      execution.image? SourceRegion.timing.id = some image ∧
      image.data = Bytes.ofWords context.timingWords := by
  obtain ⟨words, buffer, makes⟩ := exists_makes_of_generate made
  obtain ⟨program', execution, generated, executed, images⟩ := makes.generate_spec
  rw [made] at generated
  cases generated
  have found := images SourceRegion.timing.id
  have listed : (source.regions.find? fun region => region.id = SourceRegion.timing.id) =
      some (SourceRegion.timing.sized 12) :=
    find?_regions Has.timing.mem_regions
  rw [listed, Option.map_some] at found
  exact ⟨execution, _, executed, found, rfl⟩

theorem tellsLength (sends : source.sending = some sending)
    (keyed : (source.routedKeys context).pattern = some pattern) (tickOf : Float → Option Tick)
    (first last : Tick) : source.TellsLength sending tickOf context first last := by
  constructor
  · intro tagged
    have unkeyed : ¬ (source.keys.pattern = none ∧ context.routed = none) := by
      rw [← pattern_routedKeys, keyed]
      exact Option.some_ne_none _
    have outcome := source.generate_cases (context.during first (some last))
    have lacks : source.lacks (context.during first (some last)) = none := by
      rw [lacks, sends]
      exact (if_neg unkeyed).trans (if_pos tagged)
    rw [lacks] at outcome
    obtain ⟨words, buffer, makes⟩ := outcome
    obtain ⟨program, -, generated, -⟩ := makes.generate_spec
    exact ⟨program, generated⟩
  · intro program made
    obtain ⟨execution, image, executed, found, data⟩ := image?_timing made
    refine ⟨execution, image, _, _, executed, found, data, rfl,
      fillSendBufferBy_during sends keyed tickOf first (some last), ?_⟩
    rintro ⟨tick, keys⟩ member
    exact context.timing.lt_add_runLength ((SendBuffer.mem_entries_fill ..).1 member).1

/-- **Running in windows sends the same as running once.** A source has a schedule and a base key,
and times fall to ticks in any way, such as that of its own timing. If its run is cut at a tick,
bounded or not, it sends in the whole what it sends in the first part, followed by what it sends in
the second. In each bounded window the core is told a length that all ticks sent keep to, and the
lengths of the parts add up to that of the whole. -/
theorem sends_window_by_window (sends : source.sending = some sending)
    (keyed : (source.routedKeys context).pattern = some pattern) (tickOf : Float → Option Tick)
    {a b c : Tick} (early : a ≤ b) (late : b ≤ c) :
    (∀ first last, source.fillSendBuffer (context.during first last) =
        source.fillSendBufferBy context.timing.tickOf (context.during first last)) ∧
      source.SendsInTurn tickOf context a b (some c) ∧
      source.SendsInTurn tickOf context a b none ∧
      (∀ first last, source.TellsLength sending tickOf context first last) ∧
      (context.during a (some c)).timing.runLength.toNat =
        (context.during a (some b)).timing.runLength.toNat +
          (context.during b (some c)).timing.runLength.toNat := by
  refine ⟨source.fillSendBuffer_during context, sendsInTurn sends keyed tickOf early ?_,
    sendsInTurn sends keyed tickOf early nofun, tellsLength sends keyed tickOf,
    context.timing.runLength_add early late⟩
  rintro limit ⟨⟩
  exact late

/-- The recorder sends at the ticks 1 and 2. If its run of 100 ticks is cut at 2, it sends the
second of them in the second part, which is told to take 98 ticks. -/
theorem sends_window_by_window_recorder :
    ∃ whole program execution image,
      Vertex.Recorder.source.fillSendBuffer (Vertex.Recorder.context.during 0 (some 100)) =
        .ok (some whole) ∧
      whole.ticks.entries = [(1, [0x10000])] ++ [(2, [0x10001])] ∧
      Vertex.Recorder.source.generate (Vertex.Recorder.context.during 2 (some 100)) =
        .ok program ∧
      program.execute = .ok execution ∧
      execution.image? SourceRegion.timing.id = some image ∧
      image.data = Bytes.ofWords [1000, 1, 98] := by
  obtain ⟨own, ⟨early, late, whole, first, second, both, joined⟩, -, tells, -⟩ :=
    sends_window_by_window (show Vertex.Recorder.source.sending = some _ from rfl)
      (show (Vertex.Recorder.source.routedKeys Vertex.Recorder.context).pattern = some _ from rfl)
      Vertex.Recorder.context.timing.tickOf
      (by decide : (0 : Tick) ≤ 2) (by decide : (2 : Tick) ≤ 100)
  have firstIs : Vertex.Recorder.source.fillSendBuffer (Vertex.Recorder.context.during 0 (some 2)) =
      .ok (some ⟨64, .ofList [(1, [0x10000])], 1⟩) := by decide +kernel
  have secondIs : Vertex.Recorder.source.fillSendBuffer
      (Vertex.Recorder.context.during 2 (some 100)) =
        .ok (some ⟨64, .ofList [(2, [0x10001])], 1⟩) := by decide +kernel
  rw [own, first] at firstIs
  rw [own, second] at secondIs
  cases firstIs
  cases secondIs
  obtain ⟨program, made⟩ := (tells 2 100).made ⟨_, List.mem_cons_self, rfl, rfl⟩
  obtain ⟨execution, image, length, -, executed, found, data, rfl, -⟩ := (tells 2 100).told _ made
  exact ⟨whole, program, execution, image, both, joined, made, executed, found, data⟩

end Source

end MeshControl
