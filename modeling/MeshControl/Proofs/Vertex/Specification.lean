import MeshControl.Proofs.Vertex.FirstFill
import MeshControl.Vertex.Basic

/-!
# Specifications against region tables

What a vertex needs is a key and a tag of the right kind. If it has what it needs, it makes a
specification, and this executes to an image for each region of its table, with nothing in those
that the core fills, the others full, and the send buffer as it was packed (`Specified`). If it
lacks something, the fault says what (`lacks`). Nothing else can go wrong: the sizes in the table,
the lengths of the word lists and the commands agree for every choice of the optional parts.

Main statement: `Vertex.specification_matches_table`.
-/

namespace MeshControl

/-! ## What vertices lack -/

/-- A look-up of a tag finds one if there is one. -/
theorem Context.find?_cases (context : Context) {kind : IpTag → Bool} {wanted : IpTag → Prop}
    (means : ∀ tag, kind tag = true ↔ wanted tag) :
    (∃ tag, context.ipTags.find? kind = some tag ∧ ∃ tag ∈ context.ipTags, wanted tag) ∨
      context.ipTags.find? kind = none ∧ ¬ ∃ tag ∈ context.ipTags, wanted tag := by
  cases found : context.ipTags.find? kind with
  | some tag =>
    have suits := (means tag).1 (List.find?_some found)
    exact .inl ⟨tag, rfl, tag, List.mem_of_find?_eq_some found, suits⟩
  | none =>
    refine .inr ⟨rfl, ?_⟩
    rintro ⟨tag, member, suits⟩
    exact List.find?_eq_none.1 found tag member ((means tag).2 suits)

namespace Source

/-- What keeps a source from making a specification. One with a schedule needs a base key, fixed or
from routing, and a tag for its notifications. -/
def lacks (source : Source) (context : Context) : Option Fault :=
  match source.sending with
  | none => none
  | some sending =>
    if source.keys.pattern = none ∧ context.routed = none then
      some (.specification (.noBaseKey source.label))
    else if ∃ tag ∈ context.ipTags,
        tag.host = sending.notification.host ∧ tag.port = sending.notification.port then none
    else some (.configuration (.missingNotificationTag source.label))

end Source

namespace Gatherer

/-- What keeps a gatherer from making a specification. It needs a tag of its traffic class and
port. -/
def lacks (gatherer : Gatherer) (context : Context) : Option Fault :=
  if ∃ tag ∈ context.ipTags, tag.traffic = traffic ∧ tag.port = gatherer.port then none
  else some (.configuration (.missingNotificationTag gatherer.label))

end Gatherer

namespace Vertex

/-- What keeps a vertex from making a specification. -/
def lacks (vertex : Vertex) (context : Context) : Option Fault :=
  match vertex with
  | .source origin => origin.lacks context
  | .gatherer sink => sink.lacks context
  | .plain _ => none

/-- The regions that the core fills. -/
def coreRegions : Vertex → List RegionId
  | .source _ => [SourceRegion.recordingBuffer.id, SourceRegion.provenance.id]
  | .gatherer _ => [Gatherer.provenanceRegion]
  | .plain _ => []

/-- The regions that a specification fills to their end. -/
def fullRegions : Vertex → List RegionId
  | .source origin => [SourceRegion.timing.id, SourceRegion.configuration.id] ++
      (origin.recording.map fun _ => SourceRegion.recordingState.id).toList
  | .gatherer _ => [Gatherer.timingRegion, Gatherer.configurationRegion]
  | .plain _ => []

/-- What the specification of a vertex executes to. -/
structure Specified (vertex : Vertex) (generator : Site.Generator Context) (context : Context)
    (execution : Spec.Execution) : Prop where
  /-- Every region of the table has an image of its number and size. -/
  tabled : ∀ {id size label}, (id, size, label) ∈ generator.declarations →
    ∃ image, execution.image? id = some image ∧ image.region.id = id ∧ image.region.size = size
  /-- There are no other images. -/
  only : ∀ {id image}, execution.image? id = some image →
    ∃ label, (id, image.region.size, label) ∈ generator.declarations
  unfilled : ∀ {id image}, execution.image? id = some image →
    (image.region.unfilled = true ↔ id ∈ vertex.coreRegions)
  empty : ∀ {id image}, execution.image? id = some image → image.region.unfilled = true →
    image.data = []
  full : ∀ id ∈ vertex.fullRegions, ∃ image, execution.image? id = some image ∧
    image.data.length = image.region.size.toNat
  /-- The send buffer holds what was packed for it, byte for byte. -/
  sendBuffer : ∀ {source sending}, vertex = .source source → source.sending = some sending →
    ∃ buffer image, source.fillSendBuffer context = .ok (some buffer) ∧
      execution.image? SourceRegion.sendBuffer.id = some image ∧
      image.data = (buffer.pack context.timing.first sending.capacity.toNat).bytes

/-- A table of regions and the words that each of them is filled with, in accordance with what kind
of vertex it is for. -/
structure Table (vertex : Vertex) (regions : List Region) (words : RegionId → List UInt32) :
    Prop where
  distinct : (regions.map Region.id).Nodup
  unfilled : ∀ region ∈ regions, region.unfilled = true ↔ region.id ∈ vertex.coreRegions
  empty : ∀ region ∈ regions, region.unfilled = true → words region.id = []
  full : ∀ id ∈ vertex.fullRegions, ∃ region ∈ regions, region.id = id ∧
    4 * (words id).length = region.size.toNat

/-- A specification that fills the regions of a table as it should, and the send buffer too, if
there is one. -/
theorem Table.specified {vertex : Vertex} {regions : List Region} {words : RegionId → List UInt32}
    (table : vertex.Table regions words) {execution : Spec.Execution}
    (fills : execution.Fills regions fun id => Bytes.ofWords (words id))
    (generate : Context → Except Fault Spec.Program) {context : Context}
    (sends : ∀ {source sending}, vertex = .source source → source.sending = some sending →
      SourceRegion.sendBuffer.sized sending.capacity ∈ regions ∧
        ∃ buffer, source.fillSendBuffer context = .ok (some buffer) ∧
          Bytes.ofWords (words SourceRegion.sendBuffer.id) =
            (buffer.pack context.timing.first sending.capacity.toNat).bytes) :
    vertex.Specified ⟨regions.map Site.Declaration.ofRegion, generate⟩ context execution := by
  refine
    { tabled := ?_, only := ?_, unfilled := ?_, empty := ?_, full := ?_, sendBuffer := ?_ }
  · intro id size label listed
    obtain ⟨region, member, same⟩ := List.mem_map.1 listed
    cases same
    exact ⟨_, fills.image?_of_mem table.distinct member, rfl, rfl⟩
  · intro id image found
    obtain ⟨region, member, rfl, rfl⟩ := fills.exists_region found
    exact ⟨region.label, List.mem_map_of_mem member⟩
  · intro id image found
    obtain ⟨region, member, rfl, rfl⟩ := fills.exists_region found
    exact table.unfilled region member
  · intro id image found leaves
    obtain ⟨region, member, rfl, rfl⟩ := fills.exists_region found
    show Bytes.ofWords (words region.id) = []
    rw [table.empty region member leaves]
    rfl
  · intro id listed
    obtain ⟨region, member, rfl, size⟩ := table.full id listed
    refine ⟨_, fills.image?_of_mem table.distinct member, ?_⟩
    rw [Bytes.length_ofWords]
    exact size
  · intro source sending kind some
    obtain ⟨member, buffer, filled, packed⟩ := sends kind some
    exact ⟨buffer, _, filled, fills.image?_of_mem table.distinct member, packed⟩

end Vertex

/-! ## Sources -/

namespace Source

open Spec

variable {source : Source} {context : Context}

/-- Routing gives a key where none is fixed. -/
theorem pattern_routedKeys (source : Source) (context : Context) :
    (source.routedKeys context).pattern = none ↔
      source.keys.pattern = none ∧ context.routed = none := by
  unfold routedKeys
  cases context.routed with
  | none => exact (and_iff_left rfl).symm
  | some assigned =>
    dsimp only
    unfold Key.Allocation.route
    cases fixed : source.keys.pattern with
    | none => simp
    | some pattern => simp [fixed]

/-- Up to the send buffer, every specification of a source can be made. -/
theorem generate_eq (source : Source) (context : Context) :
    ∃ writer contents, writer.Holds source.regions contents ∧
      source.generate context = (do
        let writer ← source.writeSendBuffer context writer
        let writer ← source.writeRecordingState writer
        let writer ← source.writeConfiguration context writer
        return writer.finish) := by
  obtain ⟨small, distinct⟩ := source.regions_numbered
  obtain ⟨declared, reserved, holds⟩ := Writer.Holds.reserveAll small distinct
  obtain ⟨timed, wroteTiming, holds⟩ := writeTiming_holds context holds
  refine ⟨timed, _, holds, ?_⟩
  rw [generate, reserved]
  show (writeTiming context declared >>= _) = _
  rw [wroteTiming]
  rfl

/-- Without a base key there is no specification. -/
theorem generate_of_noBuffer {fault : Fault} (fails : source.fillSendBuffer context = .error fault) :
    source.generate context = .error fault := by
  obtain ⟨writer, contents, -, made⟩ := source.generate_eq context
  rw [made, writeSendBuffer, fails]
  rfl

/-- Without a tag for notifications there is none. -/
theorem generate_of_noConfiguration {buffer : Option SendBuffer} {fault : Fault}
    (filled : source.fillSendBuffer context = .ok buffer)
    (fails : source.configurationWords context = .error fault) :
    source.generate context = .error fault := by
  obtain ⟨writer, contents, holds, made⟩ := source.generate_eq context
  obtain ⟨sent, wroteSend, holds⟩ := writeSendBuffer_holds filled holds
  obtain ⟨recorded, wroteRecording, holds⟩ := writeRecordingState_holds holds
  obtain ⟨focused, switched, -, -⟩ :=
    (holds.comment "configuration").switchFocus Has.configuration.id_mem
  rw [made, wroteSend]
  show (source.writeRecordingState sent >>= _) = _
  rw [wroteRecording]
  show (source.writeConfiguration context recorded >>= _) = _
  rw [writeConfiguration, switched, fails]
  rfl

/-- The fault of a source that lacks a tag, or its words. -/
theorem configurationWords_cases (source : Source) (context : Context) :
    (∃ words, source.configurationWords context = .ok words ∧
        ∀ sending, source.sending = some sending → ∃ tag ∈ context.ipTags,
          tag.host = sending.notification.host ∧ tag.port = sending.notification.port) ∨
      ∃ sending, source.sending = some sending ∧
        (¬ ∃ tag ∈ context.ipTags,
          tag.host = sending.notification.host ∧ tag.port = sending.notification.port) ∧
        source.configurationWords context =
          .error (.configuration (.missingNotificationTag source.label)) := by
  unfold configurationWords
  cases source.sending with
  | none => exact .inl ⟨_, rfl, nofun⟩
  | some sending =>
    dsimp only
    unfold findNotificationTag
    obtain ⟨tag, found, tagged⟩ | ⟨found, untagged⟩ := context.find?_cases fun tag =>
      show (tag.host = sending.notification.host && tag.port = sending.notification.port) = true ↔
          tag.host = sending.notification.host ∧ tag.port = sending.notification.port by
        rw [Bool.and_eq_true, decide_eq_true_iff, decide_eq_true_iff]
    · rw [found]
      refine .inl ⟨_, rfl, ?_⟩
      rintro _ ⟨⟩
      exact tagged
    · rw [found]
      exact .inr ⟨sending, rfl, untagged, rfl⟩

/-- The fault of a source that lacks a key, or its send buffer. -/
theorem fillSendBuffer_cases (source : Source) (context : Context) :
    (∃ buffer, source.fillSendBuffer context = .ok buffer ∧
        ((source.sending).isSome → ¬ (source.keys.pattern = none ∧ context.routed = none))) ∨
      (source.sending).isSome ∧ (source.keys.pattern = none ∧ context.routed = none) ∧
        source.fillSendBuffer context = .error (.specification (.noBaseKey source.label)) := by
  rw [← pattern_routedKeys]
  unfold fillSendBuffer
  cases source.sending with
  | none => exact .inl ⟨none, rfl, nofun⟩
  | some sending =>
    dsimp only
    cases (source.routedKeys context).pattern with
    | none => exact .inr ⟨rfl, rfl, rfl⟩
    | some pattern => exact .inl ⟨_, rfl, fun _ => Option.some_ne_none pattern⟩

/-- **A source makes a specification exactly if it lacks nothing**, and otherwise the fault is what
it lacks. -/
theorem generate_cases (source : Source) (context : Context) :
    match source.lacks context with
    | some fault => source.generate context = .error fault
    | none => ∃ words buffer, source.Makes context words buffer := by
  unfold lacks
  -- the send buffer is made ahead of the configuration, so a missing key comes first
  obtain ⟨buffer, filled, keyed⟩ | ⟨sends, unkeyed, failed⟩ := source.fillSendBuffer_cases context
  · obtain ⟨words, configured, tagged⟩ | ⟨sending, some, untagged, failed⟩ :=
      source.configurationWords_cases context
    · have makes : ∃ words buffer, source.Makes context words buffer :=
        ⟨words, buffer, configured, filled⟩
      cases some : source.sending with
      | none => exact makes
      | some sending =>
        dsimp only
        rw [some] at keyed
        rw [if_neg (keyed rfl), if_pos (tagged sending some)]
        exact makes
    · rw [some] at keyed ⊢
      dsimp only
      rw [if_neg (keyed rfl), if_neg untagged]
      exact generate_of_noConfiguration filled failed
  · obtain ⟨sending, some⟩ := Option.isSome_iff_exists.1 sends
    rw [some]
    dsimp only
    rw [if_pos unkeyed]
    exact generate_of_noBuffer failed

variable {words : List UInt32} {buffer : Option SendBuffer}

theorem unfilled_iff (source : Source) (part : SourceRegion) :
    part.unfilled = true ↔ part.id ∈ (Vertex.source source).coreRegions := by
  show part.unfilled = true ↔
    part.id ∈ [SourceRegion.recordingBuffer.id, SourceRegion.provenance.id]
  cases part <;> decide

theorem wordsOf_unfilled {part : SourceRegion} (leaves : part.unfilled = true) :
    source.wordsOf context words buffer part.id = [] := by
  cases part with
  | recordingBuffer => rfl
  | provenance => rfl
  | timing => cases leaves
  | configuration => cases leaves
  | sendBuffer => cases leaves
  | recordingState => cases leaves

/-- The timing, the configuration and the state of a recording take all of their regions. -/
theorem Makes.full (makes : source.Makes context words buffer) :
    ∀ id ∈ (Vertex.source source).fullRegions, ∃ region ∈ source.regions, region.id = id ∧
      4 * (source.wordsOf context words buffer id).length = region.size.toNat := by
  intro id listed
  simp only [Vertex.fullRegions, List.mem_append, List.mem_cons, List.not_mem_nil, or_false,
    Option.mem_toList, Option.map_eq_some_iff] at listed
  rcases listed with (rfl | rfl) | ⟨recording, some, rfl⟩
  · exact ⟨_, Has.timing.mem_regions, rfl, rfl⟩
  · refine ⟨_, Has.configuration.mem_regions, rfl, ?_⟩
    show 4 * words.length = 40
    rw [makes.length_words]
  · refine ⟨_, (Has.recordingState some).mem_regions, rfl, ?_⟩
    show 4 * source.recordingWords.length = 8
    rw [recordingWords, some]
    rfl

theorem Makes.table (makes : source.Makes context words buffer) :
    (Vertex.source source).Table source.regions (source.wordsOf context words buffer) := by
  refine ⟨source.regions_numbered.2, ?_, ?_, makes.full⟩
  · intro region member
    obtain ⟨part, size, -, rfl⟩ := exists_has_of_mem_regions member
    exact source.unfilled_iff part
  · intro region member leaves
    obtain ⟨part, size, -, rfl⟩ := exists_has_of_mem_regions member
    exact wordsOf_unfilled leaves

/-- **What a source's specification executes to.** -/
theorem Makes.specified (makes : source.Makes context words buffer) :
    ∃ program execution, source.generate context = .ok program ∧
      program.execute = .ok execution ∧
      (Vertex.source source).Specified source.generator context execution := by
  obtain ⟨program, execution, generated, executed, fills⟩ := makes.generate_spec
  refine ⟨program, execution, generated, executed, makes.table.specified fills source.generate ?_⟩
  rintro _ sending ⟨⟩ some
  obtain ⟨none, -⟩ | ⟨other, filled, same, rfl, capacity, -⟩ := makes.buffer_cases
  · rw [some] at none
    cases none
  · rw [some] at same
    cases same
    refine ⟨(Has.sendBuffer some).mem_regions, filled, makes.sending, ?_⟩
    rw [← capacity]
    exact SendBuffer.ofWords_words_packTicks ..

end Source

/-! ## Gatherers -/

namespace Gatherer

open Spec

variable {words : List UInt32}

theorem regions_numbered :
    (∀ region ∈ regions, region.id.toNat < 16) ∧ (regions.map Region.id).Nodup := by
  decide

/-- The words that a region is filled with. -/
def wordsOf (context : Context) (words : List UInt32) (id : RegionId) : List UInt32 :=
  if id = timingRegion then context.timingWords
  else if id = configurationRegion then words
  else []

/-- The timing goes to its region, and the configuration to another. -/
theorem given_timing (context : Context) (id : RegionId) :
    ([] ++ if timingRegion = id then Bytes.ofWords context.timingWords else []) =
      Bytes.ofWords (wordsOf context [] id) := by
  unfold wordsOf
  by_cases timing : id = timingRegion
  · rw [if_pos timing.symm, if_pos timing]
    rfl
  · rw [if_neg (Ne.symm timing), if_neg timing, ite_self]
    rfl

theorem given_configuration (context : Context) (words : List UInt32) (id : RegionId) :
    (Bytes.ofWords (wordsOf context [] id) ++
        if configurationRegion = id then Bytes.ofWords words else []) =
      Bytes.ofWords (wordsOf context words id) := by
  unfold wordsOf
  by_cases timing : id = timingRegion
  · subst timing
    rw [if_pos rfl, if_pos rfl, if_neg (by decide), List.append_nil]
  · rw [if_neg timing, if_neg timing, ite_self]
    by_cases configuration : id = configurationRegion
    · rw [if_pos configuration.symm, if_pos configuration]
      rfl
    · rw [if_neg (Ne.symm configuration), if_neg configuration, List.append_nil]

/-- Up to the configuration, every specification of a gatherer can be made. -/
theorem generate_eq (gatherer : Gatherer) (context : Context) :
    ∃ writer : Writer, writer.focus = some configurationRegion ∧
      writer.Holds regions (fun id => Bytes.ofWords (wordsOf context [] id)) ∧
      gatherer.generate context = (do
        let writer ← writer.writeArray (← gatherer.configurationWords context)
        return writer.finish) := by
  obtain ⟨small, distinct⟩ := regions_numbered
  obtain ⟨declared, reserved, holds⟩ := Writer.Holds.reserveAll small distinct
  obtain ⟨focused, switched, focus, holds⟩ :=
    holds.switchFocus (by decide : timingRegion ∈ regions.map Region.id)
  have short : context.timingWords.length < 2 ^ 32 := (by decide : 3 < 2 ^ 32)
  obtain ⟨timed, wrote, holds⟩ := holds.writeArray focus short
  obtain ⟨refocused, switchedAgain, focusAgain, holds⟩ :=
    holds.switchFocus (by decide : configurationRegion ∈ regions.map Region.id)
  refine ⟨refocused, focusAgain, ?_, ?_⟩
  · rw [← funext (given_timing context)]
    exact holds
  · rw [generate, reserved]
    show (declared.switchFocus timingRegion >>= _) = _
    rw [switched]
    show (focused.writeArray context.timingWords >>= _) = _
    rw [wrote]
    show (timed.switchFocus configurationRegion >>= _) = _
    rw [switchedAgain]
    rfl

/-- There are twelve words of configuration. -/
theorem length_words {gatherer : Gatherer} {context : Context}
    (configured : gatherer.configurationWords context = .ok words) : words.length = 12 := by
  obtain ⟨tag, -, made⟩ := exists_of_bind_eq_ok configured
  cases made
  rw [List.length_append]
  cases gatherer.halfPrefix <;> rfl

/-- The fault of a gatherer that lacks its tag, or its words. -/
theorem configurationWords_cases (gatherer : Gatherer) (context : Context) :
    (∃ words, gatherer.configurationWords context = .ok words ∧
        ∃ tag ∈ context.ipTags, tag.traffic = traffic ∧ tag.port = gatherer.port) ∨
      (¬ ∃ tag ∈ context.ipTags, tag.traffic = traffic ∧ tag.port = gatherer.port) ∧
        gatherer.configurationWords context =
          .error (.configuration (.missingNotificationTag gatherer.label)) := by
  unfold configurationWords findTag
  obtain ⟨tag, found, tagged⟩ | ⟨found, untagged⟩ := context.find?_cases fun tag =>
    show (tag.traffic = traffic && tag.port = gatherer.port) = true ↔
        tag.traffic = traffic ∧ tag.port = gatherer.port by
      rw [Bool.and_eq_true, decide_eq_true_iff, decide_eq_true_iff]
  · rw [found]
    exact .inl ⟨_, rfl, tagged⟩
  · rw [found]
    exact .inr ⟨untagged, rfl⟩

theorem table (gatherer : Gatherer) (context : Context) (long : words.length = 12) :
    (Vertex.gatherer gatherer).Table regions (wordsOf context words) := by
  refine ⟨regions_numbered.2, ?_, ?_, ?_⟩
  · intro region member
    show region.unfilled = true ↔ region.id ∈ [provenanceRegion]
    revert member
    revert region
    decide
  · intro region member leaves
    simp only [regions, List.mem_cons, List.not_mem_nil, or_false] at member
    rcases member with rfl | rfl | rfl
    · cases leaves
    · cases leaves
    · rfl
  · intro id listed
    simp only [Vertex.fullRegions, List.mem_cons, List.not_mem_nil, or_false] at listed
    rcases listed with rfl | rfl
    · exact ⟨⟨timingRegion, 12, "SYSTEM", false⟩, by simp [regions], rfl, rfl⟩
    · refine ⟨⟨configurationRegion, 48, "CONFIG", false⟩, by simp [regions], rfl, ?_⟩
      show 4 * words.length = 48
      rw [long]

/-- **What a gatherer's specification executes to**, if its configuration can be made. -/
theorem generate_fills {gatherer : Gatherer} {context : Context}
    (configured : gatherer.configurationWords context = .ok words) :
    ∃ program execution, gatherer.generate context = .ok program ∧
      program.execute = .ok execution ∧
      execution.Fills regions fun id => Bytes.ofWords (wordsOf context words id) := by
  have long := length_words configured
  obtain ⟨writer, focus, holds, made⟩ := gatherer.generate_eq context
  obtain ⟨last, wrote, holds⟩ := holds.writeArray focus (by omega : words.length < 2 ^ 32)
  rw [funext (given_configuration context words)] at holds
  obtain ⟨execution, executed, fills⟩ := holds.execute fun region member => by
    rw [Bytes.length_ofWords]
    simp only [regions, List.mem_cons, List.not_mem_nil, or_false] at member
    rcases member with rfl | rfl | rfl
    · exact Nat.le_refl 12
    · show 4 * words.length ≤ 48
      omega
    · exact Nat.zero_le _
  refine ⟨last.finish, execution, ?_, executed, fills⟩
  rw [made, configured]
  show (writer.writeArray words >>= _) = _
  rw [wrote]
  rfl

/-- A specification is only made where its configuration is. -/
theorem exists_words_of_generate {gatherer : Gatherer} {context : Context}
    {program : Spec.Program} (made : gatherer.generate context = .ok program) :
    ∃ words, gatherer.configurationWords context = .ok words := by
  obtain ⟨writer, -, -, same⟩ := gatherer.generate_eq context
  rw [same] at made
  obtain ⟨words, configured, -⟩ := exists_of_bind_eq_ok made
  exact ⟨words, configured⟩

/-- **A gatherer makes a specification exactly if it lacks nothing**, and otherwise the fault is
what it lacks. -/
theorem generate_cases (gatherer : Gatherer) (context : Context) :
    match gatherer.lacks context with
    | some fault => gatherer.generate context = .error fault
    | none => ∃ program execution, gatherer.generate context = .ok program ∧
        program.execute = .ok execution ∧
        (Vertex.gatherer gatherer).Specified gatherer.generator context execution := by
  unfold lacks
  obtain ⟨words, configured, tagged⟩ | ⟨untagged, failed⟩ :=
    gatherer.configurationWords_cases context
  · rw [if_pos tagged]
    have table := gatherer.table context (length_words configured)
    obtain ⟨program, execution, generated, executed, fills⟩ := generate_fills configured
    exact ⟨program, execution, generated, executed,
      table.specified fills gatherer.generate nofun⟩
  · obtain ⟨writer, -, -, made⟩ := gatherer.generate_eq context
    rw [if_neg untagged, made, failed]
    rfl

end Gatherer

/-! ## Vertices -/

namespace Vertex

/-- The regions of a vertex, by number. -/
def regions : Vertex → List Region
  | .source origin => origin.regions
  | .gatherer _ => Gatherer.regions
  | .plain _ => []

/-- A specification that a vertex makes fills the regions of its table and no others. -/
theorem exists_fills_of_generate {vertex : Vertex} {generator : Site.Generator Context}
    (kind : vertex.generator? = some generator) {context : Context} {program : Spec.Program}
    (made : generator.generate context = .ok program) :
    ∃ execution contents, program.execute = .ok execution ∧
      execution.Fills vertex.regions contents := by
  cases vertex with
  | source origin =>
    cases kind
    obtain ⟨words, buffer, makes⟩ := Source.exists_makes_of_generate made
    obtain ⟨other, execution, generated, executed, fills⟩ := makes.generate_spec
    cases generated.symm.trans made
    exact ⟨execution, fun id => Bytes.ofWords (origin.wordsOf context words buffer id), executed,
      fills⟩
  | gatherer sink =>
    cases kind
    obtain ⟨words, configured⟩ := Gatherer.exists_words_of_generate made
    obtain ⟨other, execution, generated, executed, fills⟩ := Gatherer.generate_fills configured
    cases generated.symm.trans made
    exact ⟨execution, _, executed, fills⟩
  | plain label => cases kind

/-- **Specifications match region tables.** Whatever a vertex with regions is like and whatever the
context is, it makes a specification exactly if it lacks nothing, and fails with what it lacks
otherwise; and a specification that it makes can be executed, to an image for each region of its
table and of that size, with no bytes in those that the core fills, the timing, the configuration
and the state of a recording full, and the ticks that fit in the send buffer. -/
theorem specification_matches_table (vertex : Vertex) (context : Context)
    {generator : Site.Generator Context} (kind : vertex.generator? = some generator) :
    match vertex.lacks context with
    | some fault => generator.generate context = .error fault
    | none => ∃ program execution, generator.generate context = .ok program ∧
        program.execute = .ok execution ∧ vertex.Specified generator context execution := by
  cases vertex with
  | source origin =>
    cases kind
    have outcome := origin.generate_cases context
    show match origin.lacks context with
      | some fault => origin.generate context = .error fault
      | none => _
    cases lacks : origin.lacks context with
    | some fault =>
      rw [lacks] at outcome
      exact outcome
    | none =>
      rw [lacks] at outcome
      obtain ⟨words, buffer, makes⟩ := outcome
      exact makes.specified
  | gatherer sink =>
    cases kind
    exact sink.generate_cases context
  | plain label => cases kind

namespace Recorder

/-- Three keys with a schedule, and a record of what is sent. -/
def settings : Source.Settings where
  label := "recorder"
  count := 3
  key := some 0x10000
  checkKeys := true
  schedule := some (.perKey [[1], [2], []])
  capacity := 64
  threshold := 16
  notification := some ⟨.loopback, 17896, none⟩
  recording := some ⟨1024, 512⟩

/-- What is built from that. -/
def source : Source where
  label := "recorder"
  board := none
  live := none
  keys := ⟨3, some ⟨0x10000, 0xFFFFFFFC⟩, some ⟨0x10000, .upper⟩⟩
  checkKeys := true
  sending := some ⟨.perKey [[1], [2], []], 64, 16, ⟨.loopback, 17896, none⟩⟩
  recording := some ⟨1024, 512⟩
  dirty := .empty

/-- A run with a tag for the notifications of the source. -/
def context : Context where
  timing := ⟨1000, 1, 0, some 100⟩
  ipTags := [{ board := none, slot := 2, host := .loopback, port := 17896, strip := true }]

theorem built : Source.build settings = .ok source := rfl

theorem lacks_nothing : (Vertex.source source).lacks context = none := by
  decide +kernel

end Recorder

/-- The source lacks nothing, and the state of its recording takes its whole region. -/
theorem specification_matches_table_recorder :
    Source.build Recorder.settings = .ok Recorder.source ∧
      (Vertex.source Recorder.source).generator? = some Recorder.source.generator ∧
      ∃ program execution image, Recorder.source.generator.generate Recorder.context = .ok program ∧
        program.execute = .ok execution ∧
        execution.image? SourceRegion.recordingState.id = some image ∧
        image.region.size = 8 ∧ image.data.length = 8 := by
  have made := specification_matches_table (.source Recorder.source) Recorder.context rfl
  rw [Recorder.lacks_nothing] at made
  obtain ⟨program, execution, generated, executed, specified⟩ := made
  obtain ⟨image, found, full⟩ := specified.full SourceRegion.recordingState.id (by decide)
  have listed : (SourceRegion.recordingState.id, 8, SourceRegion.recordingState.label) ∈
      Recorder.source.generator.declarations := by decide
  obtain ⟨same, again, -, size⟩ := specified.tabled listed
  rw [found] at again
  cases again
  rw [size] at full
  exact ⟨Recorder.built, rfl, program, execution, image, generated, executed, found, size, full⟩

end Vertex

end MeshControl
