import MeshControl.Proofs.Bytes
import MeshControl.Proofs.Outcome
import MeshControl.Proofs.SendBuffer.Packing
import MeshControl.Proofs.Spec.Filling
import MeshControl.Vertex.Source

/-!
# What the specification of a source holds

A source makes a specification whenever its configuration and its send buffer can be made
(`Source.Makes`), and every region then holds the words that `Source.wordsOf` gives for it
(`Source.generate_spec`). What each region depends on can be read off there.
-/

namespace MeshControl

namespace SendBuffer

/-- Packed ticks fit the space they were packed for. -/
theorem length_pack_le {buffer : SendBuffer} (full : buffer.NoEmptyTick) (tick : Tick)
    (space : Nat) : (buffer.pack tick space).bytes.length ≤ space := by
  obtain ⟨taken, left, -, packed, nonempty, -⟩ := exists_packed full tick space
  rw [packed.bytes, length_encode nonempty]
  exact packed.fits

end SendBuffer

namespace Source

/-- The regions whose numbers a source uses are different, and the table has room for them. -/
theorem regions_numbered (source : Source) :
    (∀ region ∈ source.regions, region.id.toNat < 16) ∧
      (source.regions.map Region.id).Nodup := by
  unfold regions
  cases source.sending with
  | none =>
    cases source.recording with
    | none => exact ⟨by simp [SourceRegion.sized, SourceRegion.id], by decide⟩
    | some recording =>
      exact ⟨by simp [SourceRegion.sized, SourceRegion.id], by
        simp [SourceRegion.sized, SourceRegion.id]⟩
  | some sending =>
    cases source.recording with
    | none =>
      exact ⟨by simp [SourceRegion.sized, SourceRegion.id], by
        simp [SourceRegion.sized, SourceRegion.id]⟩
    | some recording =>
      exact ⟨by simp [SourceRegion.sized, SourceRegion.id], by
        simp [SourceRegion.sized, SourceRegion.id]⟩

/-- The parts of a source's memory, with their sizes. -/
inductive Has (source : Source) : SourceRegion → UInt32 → Prop where
  | timing : Has source .timing 12
  | configuration : Has source .configuration 40
  | sendBuffer {sending : Sending} (some : source.sending = some sending) :
    Has source .sendBuffer sending.capacity
  | recordingBuffer {recording : Recording} (some : source.recording = some recording) :
    Has source .recordingBuffer recording.bufferSize
  | recordingState {recording : Recording} (some : source.recording = some recording) :
    Has source .recordingState 8
  | provenance : Has source .provenance (UInt32.ofNat (Provenance.blockSize 0))

theorem Has.mem_regions {source : Source} {part : SourceRegion} {size : UInt32}
    (has : source.Has part size) : part.sized size ∈ source.regions := by
  cases has with
  | timing => simp [regions]
  | configuration => simp [regions]
  | sendBuffer some => simp [regions, some]
  | recordingBuffer some => simp [regions, some]
  | recordingState some => simp [regions, some]
  | provenance => simp [regions]

/-- The regions of a source are its parts. -/
theorem exists_has_of_mem_regions {source : Source} {region : Region}
    (member : region ∈ source.regions) :
    ∃ part size, source.Has part size ∧ region = part.sized size := by
  simp only [regions, List.mem_append, List.mem_cons, List.not_mem_nil, or_false,
    Option.mem_toList, Option.map_eq_some_iff] at member
  rcases member with (((rfl | rfl) | ⟨sending, some, rfl⟩) | recorded) | rfl
  · exact ⟨_, _, .timing, rfl⟩
  · exact ⟨_, _, .configuration, rfl⟩
  · exact ⟨_, _, .sendBuffer some, rfl⟩
  · cases some : source.recording with
    | none =>
      rw [some] at recorded
      cases recorded
    | some recording =>
      rw [some] at recorded
      simp only [List.mem_cons, List.not_mem_nil, or_false] at recorded
      rcases recorded with rfl | rfl
      · exact ⟨_, _, .recordingBuffer some, rfl⟩
      · exact ⟨_, _, .recordingState some, rfl⟩
  · exact ⟨_, _, .provenance, rfl⟩

/-- The writer of a specification may turn to every part. -/
theorem Has.id_mem {source : Source} {part : SourceRegion} {size : UInt32}
    (has : source.Has part size) : part.id ∈ source.regions.map Region.id :=
  List.mem_map_of_mem has.mem_regions

/-- The configuration and the send buffer of a source in a context. -/
structure Makes (source : Source) (context : Context) (words : List UInt32)
    (buffer : Option SendBuffer) : Prop where
  configuration : source.configurationWords context = .ok words
  sending : source.fillSendBuffer context = .ok buffer

/-- The words of a send buffer at the start of a run. -/
def sendWords (context : Context) : Option SendBuffer → List UInt32
  | none => []
  | some buffer => Bytes.words (buffer.pack context.timing.first buffer.capacity.toNat).bytes

/-- The words in which a recording begins. -/
def recordingWords (source : Source) : List UInt32 :=
  match source.recording with
  | none => []
  | some recording => [recording.bufferSize, recording.sizeBeforeReceive]

/-- The words that a region is filled with. -/
def wordsOf (source : Source) (context : Context) (words : List UInt32)
    (buffer : Option SendBuffer) (id : RegionId) : List UInt32 :=
  if id = SourceRegion.timing.id then context.timingWords
  else if id = SourceRegion.configuration.id then words
  else if id = SourceRegion.sendBuffer.id then sendWords context buffer
  else if id = SourceRegion.recordingState.id then source.recordingWords
  else []

variable {source : Source} {context : Context} {words : List UInt32} {buffer : Option SendBuffer}

/-- There are ten words of configuration. -/
theorem Makes.length_words (makes : source.Makes context words buffer) : words.length = 10 := by
  have made := makes.configuration
  unfold configurationWords at made
  cases sending : source.sending with
  | none =>
    simp only [sending] at made
    cases made
    simp only [List.length_append]
    cases (source.routedKeys context).overlay <;> cases (source.routedKeys context).pattern <;> rfl
  | some setting =>
    simp only [sending] at made
    obtain ⟨tag, -, made⟩ := exists_of_bind_eq_ok made
    cases made
    simp only [List.length_append]
    cases (source.routedKeys context).overlay <;> cases (source.routedKeys context).pattern <;> rfl

/-- Where the send buffer of a source comes from. -/
theorem buffer_cases (made : source.fillSendBuffer context = .ok buffer) :
    (source.sending = none ∧ buffer = none) ∨
      ∃ sending filled, source.sending = some sending ∧ buffer = some filled ∧
        filled.capacity = sending.capacity ∧ filled.NoEmptyTick := by
  unfold fillSendBuffer at made
  split at made
  · rename_i none
    cases made
    exact .inl ⟨none, rfl⟩
  · rename_i sending some
    split at made
    · cases made
    · cases made
      refine .inr ⟨sending, _, some, rfl, ?_, ?_⟩
      · exact SendBuffer.capacity_addAll ..
      · exact (SendBuffer.Reachable.empty sending.capacity).fill _ _ _ _ _ |>.noEmptyTick

theorem Makes.buffer_cases (makes : source.Makes context words buffer) :
    (source.sending = none ∧ buffer = none) ∨
      ∃ sending filled, source.sending = some sending ∧ buffer = some filled ∧
        filled.capacity = sending.capacity ∧ filled.NoEmptyTick :=
  Source.buffer_cases makes.sending

/-- The words of a send buffer fit its region. -/
theorem sendWords_le (made : source.fillSendBuffer context = .ok buffer) :
    ∀ sending, source.sending = some sending →
      4 * (sendWords context buffer).length ≤ sending.capacity.toNat := by
  intro sending some
  obtain ⟨none, -⟩ | ⟨other, filled, same, rfl, capacity, full⟩ := buffer_cases made
  · rw [some] at none
    cases none
  rw [some] at same
  cases same
  rw [sendWords, capacity]
  have packed := SendBuffer.length_pack_le full context.timing.first sending.capacity.toNat
  have whole := Bytes.length_words_le
    (filled.pack context.timing.first sending.capacity.toNat).bytes
  omega

/-! ## One part of the specification after the other -/

section Parts

open Spec

variable {writer : Writer} {contents : RegionId → Bytes}

/-- What the regions hold once one of them was given some words. -/
def given (contents : RegionId → Bytes) (region : SourceRegion) (words : List UInt32) :
    RegionId → Bytes :=
  fun id => contents id ++ if region.id = id then Bytes.ofWords words else []

theorem given_nil (contents : RegionId → Bytes) (region : SourceRegion) :
    given contents region [] = contents := by
  funext id
  rw [given, show Bytes.ofWords [] = [] from rfl, ite_self, List.append_nil]

theorem writeTiming_holds (context : Context) (holds : writer.Holds source.regions contents) :
    ∃ next, writeTiming context writer = .ok next ∧
      next.Holds source.regions (given contents .timing context.timingWords) :=
  (holds.comment "timing").fill Has.timing.id_mem (by decide : 3 < 2 ^ 32)

theorem writeSendBuffer_holds (made : source.fillSendBuffer context = .ok buffer)
    (holds : writer.Holds source.regions contents) :
    ∃ next, source.writeSendBuffer context writer = .ok next ∧
      next.Holds source.regions (given contents .sendBuffer (sendWords context buffer)) := by
  unfold writeSendBuffer
  rw [made]
  obtain ⟨-, rfl⟩ | ⟨sending, filled, present, rfl, -, -⟩ := buffer_cases made
  · refine ⟨writer, rfl, ?_⟩
    rw [sendWords, given_nil]
    exact holds
  · have room := sendWords_le made sending present
    have limit := sending.capacity.toNat_lt
    obtain ⟨focused, switched, focus, held⟩ :=
      (holds.comment s!"send buffer: {(filled.pack context.timing.first
        filled.capacity.toNat).tickCount} ticks").switchFocus (Has.sendBuffer present).id_mem
    show ∃ next, (Writer.switchFocus _ _ >>= fun writer =>
      if (sendWords context (some filled)).isEmpty then return writer
      else writer.writeArray (sendWords context (some filled))) = .ok next ∧ _
    rw [switched]
    show ∃ next, (if (sendWords context (some filled)).isEmpty then _
      else focused.writeArray (sendWords context (some filled))) = .ok next ∧ _
    cases empty : (sendWords context (some filled)).isEmpty with
    | true =>
      rw [List.isEmpty_iff.1 empty, given_nil]
      exact ⟨focused, rfl, held⟩
    | false => exact held.writeArray focus (by omega)

theorem writeRecordingState_holds (holds : writer.Holds source.regions contents) :
    ∃ next, source.writeRecordingState writer = .ok next ∧
      next.Holds source.regions (given contents .recordingState source.recordingWords) := by
  unfold writeRecordingState recordingWords
  cases some : source.recording with
  | none =>
    refine ⟨writer, rfl, ?_⟩
    rw [given_nil]
    exact holds
  | some recording => exact holds.fill (Has.recordingState some).id_mem (by decide : 2 < 2 ^ 32)

theorem writeConfiguration_holds (makes : source.Makes context words buffer)
    (holds : writer.Holds source.regions contents) :
    ∃ next, source.writeConfiguration context writer = .ok next ∧
      next.Holds source.regions (given contents .configuration words) := by
  have length := makes.length_words
  unfold writeConfiguration
  rw [makes.configuration]
  exact (holds.comment "configuration").fill Has.configuration.id_mem (by omega)

/-- The parts of a specification fill different regions. -/
theorem given_all (source : Source) (context : Context) (words : List UInt32)
    (buffer : Option SendBuffer) (id : RegionId) :
    given (given (given (given (fun _ => []) .timing context.timingWords)
      .sendBuffer (sendWords context buffer)) .recordingState source.recordingWords)
      .configuration words id = Bytes.ofWords (source.wordsOf context words buffer id) := by
  unfold given wordsOf
  by_cases timing : id = SourceRegion.timing.id
  · subst timing
    simp [SourceRegion.id]
  by_cases configuration : id = SourceRegion.configuration.id
  · subst configuration
    simp [SourceRegion.id]
  by_cases sendBuffer : id = SourceRegion.sendBuffer.id
  · subst sendBuffer
    simp [SourceRegion.id]
  by_cases recordingState : id = SourceRegion.recordingState.id
  · subst recordingState
    simp [SourceRegion.id]
  rw [if_neg (Ne.symm timing), if_neg (Ne.symm sendBuffer), if_neg (Ne.symm recordingState),
    if_neg (Ne.symm configuration), if_neg timing, if_neg configuration, if_neg sendBuffer,
    if_neg recordingState]
  rfl

end Parts

/-- No region is given more words than it has room for. -/
theorem Makes.wordsOf_fit (makes : source.Makes context words buffer) :
    ∀ region ∈ source.regions,
      4 * (source.wordsOf context words buffer region.id).length ≤ region.size.toNat := by
  have length := makes.length_words
  intro region member
  obtain ⟨part, size, has, rfl⟩ := exists_has_of_mem_regions member
  cases has with
  | timing => exact Nat.le_refl 12
  | configuration =>
    show 4 * words.length ≤ 40
    omega
  | sendBuffer some => exact sendWords_le makes.sending _ some
  | recordingBuffer some => exact Nat.zero_le _
  | recordingState some =>
    have two : source.recordingWords.length = 2 := by rw [recordingWords, some]; rfl
    show 4 * source.recordingWords.length ≤ 8
    omega
  | provenance => exact Nat.zero_le _

/-- The image of a region that holds the words it should. -/
def imageOf (source : Source) (context : Context) (words : List UInt32)
    (buffer : Option SendBuffer) (region : Region) : Spec.Image :=
  ⟨{ region with label := Spec.Progress.plainLabel region.id },
    Bytes.ofWords (source.wordsOf context words buffer region.id)⟩

/-- **What a source's specification holds.** -/
theorem Makes.generate_spec (makes : source.Makes context words buffer) :
    ∃ program execution, source.generate context = .ok program ∧
      program.execute = .ok execution ∧
      ∀ id, execution.image? id = (source.regions.find? fun region => region.id = id).map
        (source.imageOf context words buffer) := by
  obtain ⟨small, distinct⟩ := source.regions_numbered
  obtain ⟨declared, reserved, holds⟩ := Spec.Writer.Holds.reserveAll small distinct
  obtain ⟨timed, wroteTiming, holds⟩ := writeTiming_holds context holds
  obtain ⟨sent, wroteSend, holds⟩ := writeSendBuffer_holds makes.sending holds
  obtain ⟨recorded, wroteRecording, holds⟩ := writeRecordingState_holds holds
  obtain ⟨configured, wroteConfiguration, holds⟩ := writeConfiguration_holds makes holds
  have generated : source.generate context = .ok configured.finish := by
    rw [generate, reserved]
    show (writeTiming context declared >>= _) = _
    rw [wroteTiming]
    show (source.writeSendBuffer context timed >>= _) = _
    rw [wroteSend]
    show (source.writeRecordingState sent >>= _) = _
    rw [wroteRecording]
    show (source.writeConfiguration context recorded >>= _) = _
    rw [wroteConfiguration]
    rfl
  have contents : (given (given (given (given (fun _ => []) .timing context.timingWords)
      .sendBuffer (sendWords context buffer)) .recordingState source.recordingWords)
      .configuration words) = fun id => Bytes.ofWords (source.wordsOf context words buffer id) :=
    funext fun id => given_all source context words buffer id
  rw [contents] at holds
  obtain ⟨execution, executed, images⟩ := holds.execute fun region member => by
    rw [Bytes.length_ofWords]
    exact makes.wordsOf_fit region member
  exact ⟨_, execution, generated, executed, images⟩

/-- A specification is only made where its parts are. -/
theorem exists_makes_of_generate {program : Spec.Program}
    (made : source.generate context = .ok program) :
    ∃ words buffer, source.Makes context words buffer := by
  obtain ⟨declared, -, made⟩ := exists_of_bind_eq_ok made
  obtain ⟨timed, -, made⟩ := exists_of_bind_eq_ok made
  obtain ⟨sent, sending, made⟩ := exists_of_bind_eq_ok made
  obtain ⟨recorded, -, made⟩ := exists_of_bind_eq_ok made
  obtain ⟨configured, configuring, -⟩ := exists_of_bind_eq_ok made
  obtain ⟨buffer, filled, -⟩ := exists_of_bind_eq_ok sending
  obtain ⟨focused, -, configuring⟩ := exists_of_bind_eq_ok configuring
  obtain ⟨words, configuration, -⟩ := exists_of_bind_eq_ok configuring
  exact ⟨words, buffer, configuration, filled⟩

end Source

end MeshControl
