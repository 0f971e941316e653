import MeshControl.Proofs.Vertex.Generation

/-!
# What a change makes stale

A new schedule changes the words of the send buffer and of nothing else; a new window changes
those of the timing and, where there is one, of the send buffer. Neither changes the regions
that a source has, nor whether its specification can be made.
-/

namespace MeshControl.Source

variable {source : Source} {context : Context} {words : List UInt32} {buffer : Option SendBuffer}

/-- Ask for a new schedule and go on as before if it is refused. -/
def reschedule (source : Source) (schedule : Schedule Float) : Source :=
  match source.setSchedule schedule with
  | .ok next => next
  | .error _ => source

theorem reschedule_of_none (schedule : Schedule Float) (none : source.sending = none) :
    source.reschedule schedule = source := by
  rw [reschedule, setSchedule, none]

theorem reschedule_of_some (schedule : Schedule Float) {sending : Sending}
    (present : source.sending = some sending) :
    source.reschedule schedule = { source with
      sending := some { sending with schedule }
      dirty := source.dirty.insert SourceRegion.sendBuffer.id } := by
  rw [reschedule, setSchedule, present]

/-- A send buffer can be made where there is a key to send, whatever is sent when. -/
theorem exists_fillSendBuffer_iff (source : Source) (context : Context) :
    (∃ buffer, source.fillSendBuffer context = .ok buffer) ↔
      (source.sending ≠ none → (source.routedKeys context).pattern ≠ none) := by
  unfold fillSendBuffer
  cases source.sending with
  | none => exact ⟨fun _ sends => (sends rfl).elim, fun _ => ⟨_, rfl⟩⟩
  | some sending =>
    cases (source.routedKeys context).pattern with
    | none =>
      constructor
      · rintro ⟨buffer, made⟩
        cases made
      · intro keyed
        exact (keyed (Option.some_ne_none _) rfl).elim
    | some pattern => exact ⟨fun _ _ => Option.some_ne_none _, fun _ => ⟨_, rfl⟩⟩

/-! ## A new schedule -/

@[simp] theorem regions_reschedule (source : Source) (schedule : Schedule Float) :
    (source.reschedule schedule).regions = source.regions := by
  cases present : source.sending with
  | none => rw [reschedule_of_none schedule present]
  | some sending =>
    rw [reschedule_of_some schedule present, regions, regions, present]
    rfl

@[simp] theorem label_reschedule (source : Source) (schedule : Schedule Float) :
    (source.reschedule schedule).label = source.label := by
  cases present : source.sending with
  | none => rw [reschedule_of_none schedule present]
  | some sending => rw [reschedule_of_some schedule present]

theorem Makes.reschedule (makes : source.Makes context words buffer)
    (schedule : Schedule Float) :
    ∃ next, (source.reschedule schedule).Makes context words next := by
  cases present : source.sending with
  | none =>
    rw [reschedule_of_none schedule present]
    exact ⟨buffer, makes⟩
  | some sending =>
    rw [reschedule_of_some schedule present]
    have keyed := (source.exists_fillSendBuffer_iff context).1 ⟨buffer, makes.sending⟩
    obtain ⟨next, made⟩ := (exists_fillSendBuffer_iff { source with
      sending := some { sending with schedule }
      dirty := source.dirty.insert SourceRegion.sendBuffer.id } context).2
      fun _ => keyed (by rw [present]; exact Option.some_ne_none _)
    refine ⟨next, ?_, made⟩
    have configuration := makes.configuration
    unfold configurationWords at configuration ⊢
    simp only [present] at configuration
    exact configuration

/-- Only the send buffer depends on the schedule. -/
theorem wordsOf_reschedule (source : Source) (context : Context) (words : List UInt32)
    (buffer next : Option SendBuffer) (schedule : Schedule Float) {id : RegionId}
    (other : id ≠ SourceRegion.sendBuffer.id) :
    (source.reschedule schedule).wordsOf context words next id =
      source.wordsOf context words buffer id := by
  have recording : (source.reschedule schedule).recordingWords = source.recordingWords := by
    cases present : source.sending with
    | none => rw [reschedule_of_none schedule present]
    | some sending =>
      rw [reschedule_of_some schedule present]
      rfl
  rw [wordsOf, wordsOf, if_neg other, if_neg other, recording]

theorem contains_reschedule (source : Source) (schedule : Schedule Float) {id : RegionId}
    (clean : (source.reschedule schedule).dirty.contains id = false) :
    source.dirty.contains id = false ∧
      (source.sending ≠ none → id ≠ SourceRegion.sendBuffer.id) := by
  cases present : source.sending with
  | none =>
    rw [reschedule_of_none schedule present] at clean
    exact ⟨clean, fun sends => (sends rfl).elim⟩
  | some sending =>
    rw [reschedule_of_some schedule present] at clean
    dsimp only at clean
    rw [OrderedSet.contains_insert, Bool.or_eq_false_iff, decide_eq_false_iff_not] at clean
    exact ⟨clean.2, fun _ => Ne.symm clean.1⟩

/-! ## A new window -/

theorem Makes.windowChanged (makes : source.Makes context words buffer) (timing : Timing) :
    ∃ next, source.windowChanged.Makes { context with timing } words next := by
  have keyed := (source.exists_fillSendBuffer_iff context).1 ⟨buffer, makes.sending⟩
  obtain ⟨next, made⟩ :=
    (source.windowChanged.exists_fillSendBuffer_iff { context with timing }).2 keyed
  exact ⟨next, makes.configuration, made⟩

theorem contains_windowChanged (source : Source) {id : RegionId}
    (clean : source.windowChanged.dirty.contains id = false) :
    source.dirty.contains id = false ∧ id ≠ SourceRegion.timing.id ∧
      (source.sending ≠ none → id ≠ SourceRegion.sendBuffer.id) := by
  unfold Source.windowChanged at clean
  dsimp only at clean
  cases present : source.sending with
  | none =>
    rw [present, Option.isSome_none] at clean
    simp only [Bool.false_eq_true, if_false] at clean
    rw [OrderedSet.contains_insert, Bool.or_eq_false_iff, decide_eq_false_iff_not] at clean
    exact ⟨clean.2, Ne.symm clean.1, fun sends => (sends rfl).elim⟩
  | some sending =>
    rw [present, Option.isSome_some] at clean
    simp only [if_true] at clean
    rw [OrderedSet.contains_insert, OrderedSet.contains_insert, Bool.or_eq_false_iff,
      Bool.or_eq_false_iff, decide_eq_false_iff_not, decide_eq_false_iff_not] at clean
    exact ⟨clean.2.2, Ne.symm clean.2.1, fun _ => Ne.symm clean.1⟩

/-- Only the timing and the send buffer depend on the window. -/
theorem wordsOf_windowChanged (makes : source.Makes context words buffer) {timing : Timing}
    {next : Option SendBuffer}
    (makesNext : source.windowChanged.Makes { context with timing } words next) {id : RegionId}
    (notTiming : id ≠ SourceRegion.timing.id)
    (notSent : source.sending ≠ none → id ≠ SourceRegion.sendBuffer.id) :
    source.windowChanged.wordsOf { context with timing } words next id =
      source.wordsOf context words buffer id := by
  rw [wordsOf, wordsOf, if_neg notTiming, if_neg notTiming]
  by_cases sent : id = SourceRegion.sendBuffer.id
  · obtain ⟨-, rfl⟩ | ⟨sending, filled, present, -⟩ := makes.buffer_cases
    · obtain ⟨-, rfl⟩ | ⟨sending, filled, present, -⟩ := makesNext.buffer_cases
      · rfl
      · exact (notSent (by rw [show source.sending = some sending from present]
                           exact Option.some_ne_none _) sent).elim
    · exact (notSent (by rw [present]; exact Option.some_ne_none _) sent).elim
  · rw [if_neg sent, if_neg sent]
    rfl

end MeshControl.Source
