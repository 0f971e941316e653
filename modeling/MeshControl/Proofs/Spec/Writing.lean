import MeshControl.Proofs.Spec.Draft

/-!
# Executing a written specification

A writer and the draft of the same calls stay in step (`Draft.Written`), and so do the draft
and the execution of its commands (`Draft.Foretells`). Both relations hold at the start and
are preserved by every call. The main theorem, `execute_ofCalls`, puts them together: a
written specification executes to what its calls meant.
-/

namespace MeshControl.Spec

theorem Progress.run_append (progress : Progress) (first second : List Located) :
    progress.run (first ++ second) = (progress.run first).bind fun reached => reached.run second := by
  induction first generalizing progress with
  | nil => rfl
  | cons located first ih =>
    rw [List.cons_append, run, run]
    cases progress.step located with
    | error cause => rfl
    | ok reached => exact ih reached

/-- The bytes of a word, lowest first. -/
theorem ofWord_eq_littleEndian (value : UInt32) :
    Bytes.ofWord value = littleEndian 4 value.toNat := by
  simp only [Bytes.ofWord, littleEndian, Nat.div_div_eq_div_mul, Nat.reduceMul]

/-- A write stores the lowest bytes of its value, as many as its width says. -/
theorem take_ofWord (value : UInt32) (width : Width) :
    (Bytes.ofWord value).take width.size = lowBytes value width := by
  rw [ofWord_eq_littleEndian]
  cases width <;> rfl

theorem Progress.step_write (progress : Progress) (position : Nat) (value : UInt32)
    (width : Width) (repeats : UInt8) :
    progress.step ⟨position, .write value width repeats⟩ =
      progress.append position (List.replicate repeats.toNat (lowBytes value width)).flatten := by
  rw [← take_ofWord]
  rfl

theorem Progress.step_writeArray (progress : Progress) (position : Nat) (values : List UInt32) :
    progress.step ⟨position, .writeArray values⟩ =
      progress.append position (values.flatMap fun value => littleEndian 4 value.toNat) := by
  rw [← funext ofWord_eq_littleEndian]
  rfl

namespace Draft

/-! ## Running the commands of a draft -/

/-- The outcome of the commands of a draft. -/
def outcome (draft : Draft) : Except SpecificationFault Progress :=
  Progress.start.run (locate 0 (draft.commands.map Prod.snd))

/-- The words of a draft. -/
def words (draft : Draft) : List UInt32 := encodeAll (draft.commands.map Prod.snd)

theorem words_issue (draft : Draft) (command : Command) :
    (draft.issue command).words = draft.words ++ command.encode := by
  rw [words, issue, List.map_append, encodeAll_append, List.map_singleton, encodeAll_cons,
    encodeAll_nil, List.append_nil]
  rfl

theorem outcome_issue (draft : Draft) (command : Command) :
    (draft.issue command).outcome =
      draft.outcome.bind fun reached => reached.step ⟨draft.words.length, command⟩ := by
  rw [outcome, issue, List.map_append, locate_append, Progress.run_append, List.map_singleton,
    locate, locate, Nat.zero_add]
  show draft.outcome.bind _ = draft.outcome.bind _
  congr 1
  funext reached
  rw [Progress.run]
  show (reached.step ⟨draft.words.length, command⟩).bind _ = _
  cases reached.step ⟨draft.words.length, command⟩ <;> rfl

/-- A draft knows how its commands run: to its images and its focus, or to the first region
that is written past its end. -/
def Foretells (draft : Draft) : Except SpecificationFault Progress → Prop
  | .ok reached =>
    reached.focus = draft.focus ∧ (∀ id, reached.images.get? id = draft.image? id) ∧
      ∀ region, ¬ draft.Overflows region
  | .error cause => ∃ region, draft.Overflows region ∧ cause = .pastEnd region.id region.size

/-- A failed run stays failed. -/
theorem Foretells.add_of_error {draft : Draft} {cause : SpecificationFault} (call : Call)
    (told : draft.Foretells (.error cause)) : (draft.add call).Foretells (.error cause) := by
  obtain ⟨region, spilled, same⟩ := told
  exact ⟨region, spilled.add call, same⟩

theorem image?_eq_none {draft : Draft} {id : RegionId} :
    draft.image? id = none ↔ draft.region? id = none :=
  Option.map_eq_none_iff

/-- A declaration starts an empty image. -/
theorem Foretells.reserve {draft : Draft} (sound : draft.Sound) {reached : Progress}
    (told : draft.Foretells (.ok reached)) {region : Region} {position : Nat}
    (accepted : draft.Accepts (.reserve region)) :
    (draft.add (.reserve region)).Foretells
      (reached.step ⟨position, .reserve region.id region.size region.unfilled⟩) := by
  obtain ⟨focus, images, fits⟩ := told
  have undeclared : draft.region? region.id = none := accepted.2
  have fresh : reached.images.contains region.id = false := by
    rw [OrderedMap.contains, images, image?_eq_none.2 undeclared]
    rfl
  rw [Progress.step]
  simp only [fresh, Bool.false_eq_true, if_false]
  refine ⟨focus, fun id => ?_, ?_⟩
  · rw [OrderedMap.get?_insert, images, image?, image?, region?_reserve]
    by_cases same : region.id = id
    · subst same
      rw [if_pos rfl, if_pos rfl, undeclared, Option.none_or, Option.map_some]
      have nothing : (draft.add (.reserve region)).dataOf region.id = [] :=
        sound.dataOf_undeclared undeclared
      rw [nothing]
    · rw [if_neg same, if_neg same, Option.or_none]
      rfl
  · rintro other ⟨found, length⟩
    rw [region?_reserve] at found
    cases old : draft.region? other.id with
    | some declared =>
      rw [old, Option.some_or] at found
      exact fits other ⟨old.trans found, length⟩
    | none =>
      have nothing : (draft.add (.reserve region)).dataOf other.id = [] :=
        sound.dataOf_undeclared old
      rw [nothing] at length
      exact absurd length (Nat.not_lt_zero _)

/-- A change of focus goes to a declared region. -/
theorem Foretells.focus {draft : Draft} {reached : Progress}
    (told : draft.Foretells (.ok reached)) {region : RegionId} {position : Nat}
    (accepted : draft.Accepts (.focus region)) :
    (draft.add (.focus region)).Foretells (reached.step ⟨position, .focus region⟩) := by
  obtain ⟨focus, images, fits⟩ := told
  have reserved : reached.images.contains region = true := by
    rw [OrderedMap.contains, images, Option.isSome_iff_ne_none, ne_eq, image?_eq_none]
    exact accepted
  rw [Progress.step]
  simp only [reserved, if_true]
  exact ⟨rfl, images, fits⟩

/-- A write adds its bytes to the image in focus, or overflows it. -/
theorem Foretells.store {draft : Draft} (sound : draft.Sound) {reached : Progress}
    (told : draft.Foretells (.ok reached)) (command : Command) (data : Bytes) (position : Nat)
    (focused : draft.focus ≠ none) :
    (draft.store command data).Foretells (reached.append position data) := by
  obtain ⟨focus, images, fits⟩ := told
  obtain ⟨id, target⟩ := Option.ne_none_iff_exists'.1 focused
  obtain ⟨region, declared⟩ := Option.ne_none_iff_exists'.1 (sound.focused id target)
  have named : region.id = id := id_of_region? declared
  subst named
  have present : reached.focus.bind reached.images.get? =
      some ⟨{ region with label := Progress.plainLabel region.id }, draft.dataOf region.id⟩ := by
    rw [focus, target, Option.bind_some, images, image?, declared]
    rfl
  have grown : (draft.store command data).dataOf region.id = draft.dataOf region.id ++ data := by
    rw [dataOf_store, if_pos target]
  rw [Progress.append, present]
  by_cases room : (draft.dataOf region.id).length + data.length ≤ region.size.toNat
  · simp only [room, if_true]
    refine ⟨focus, fun id => ?_, ?_⟩
    · rw [OrderedMap.get?_insert, images, image?, image?]
      by_cases same : region.id = id
      · subst same
        have kept : (draft.store command data).region? region.id = some region := declared
        rw [if_pos rfl, kept, grown, Option.map_some]
      · have other : (draft.store command data).dataOf id = draft.dataOf id := by
          rw [dataOf_store, if_neg (by rw [target]; exact fun e => same (Option.some.inj e)),
            List.append_nil]
        rw [if_neg same, other]
        rfl
    · rintro other ⟨found, length⟩
      by_cases same : region.id = other.id
      · have equal : some region = some other := declared.symm.trans (same ▸ found)
        rw [← Option.some.inj equal, grown, List.length_append] at length
        omega
      · rw [dataOf_store, if_neg (by rw [target]; exact fun e => same (Option.some.inj e)),
          List.append_nil] at length
        exact fits other ⟨found, length⟩
  · simp only [room, if_false]
    refine ⟨region, ⟨declared, ?_⟩, rfl⟩
    rw [grown, List.length_append]
    omega

/-- **An accepted call keeps the forecast right.** -/
theorem foretells_add {draft : Draft} (sound : draft.Sound)
    (told : draft.Foretells draft.outcome) {call : Call} (accepted : draft.Accepts call) :
    (draft.add call).Foretells (draft.add call).outcome := by
  -- Every call but a comment runs one more command, after a run that may have failed already.
  have extend : ∀ command, (draft.add call).outcome = (draft.issue command).outcome →
      (∀ reached position, draft.outcome = .ok reached →
        (draft.add call).Foretells (reached.step ⟨position, command⟩)) →
      (draft.add call).Foretells (draft.add call).outcome := by
    intro command issued step
    rw [issued, outcome_issue]
    cases ran : draft.outcome with
    | error cause => exact Foretells.add_of_error call (ran ▸ told)
    | ok reached => exact step reached _ ran
  cases call with
  | reserve region =>
    exact extend _ rfl fun reached position ran =>
      Foretells.reserve sound (ran ▸ told) accepted
  | focus region =>
    exact extend _ rfl fun reached position ran => Foretells.focus (ran ▸ told) accepted
  | value value =>
    refine extend (.write value .word 1) rfl fun reached position ran => ?_
    rw [Progress.step_write, UInt8.toNat_one, List.replicate_one, List.flatten_singleton]
    exact Foretells.store sound (ran ▸ told) _ _ position accepted
  | repeated value repeats width =>
    refine extend (.write value width repeats) rfl fun reached position ran => ?_
    rw [Progress.step_write]
    exact Foretells.store sound (ran ▸ told) _ _ position accepted.1
  | array values =>
    refine extend (.writeArray values) rfl fun reached position ran => ?_
    rw [Progress.step_writeArray]
    exact Foretells.store sound (ran ▸ told) _ _ position accepted.1
  | comment text => exact told

/-! ## The writer -/

/-- The comments ahead of the command at a position, or of the next command there. -/
def commentsFrom (position : Nat) (pending : List String) :
    List (List String × Command) → Nat → List String
  | [], place => if place = position then pending else []
  | (comments, command) :: rest, place =>
    if place = position then comments
    else commentsFrom (position + 1 + command.extra) pending rest place

/-- The number of words of some commands. -/
def extent (commands : List (List String × Command)) : Nat :=
  (encodeAll (commands.map Prod.snd)).length

theorem extent_cons (comments : List String) (command : Command)
    (rest : List (List String × Command)) :
    extent ((comments, command) :: rest) = 1 + command.extra + extent rest := by
  rw [extent, List.map_cons, encodeAll_cons, List.length_append, Command.length_encode]
  rfl

/-- Comments wait at the end of the words. -/
theorem commentsFrom_end (position : Nat) (pending : List String)
    (commands : List (List String × Command)) :
    commentsFrom position pending commands (position + extent commands) = pending := by
  induction commands generalizing position with
  | nil => exact if_pos rfl
  | cons head rest ih =>
    obtain ⟨comments, command⟩ := head
    rw [commentsFrom, extent_cons, if_neg (by omega), ← Nat.add_assoc, ← Nat.add_assoc]
    exact ih _

/-- What waits at the end is seen nowhere else. -/
theorem commentsFrom_of_ne {position place : Nat} (pending other : List String)
    {commands : List (List String × Command)} (inside : place ≠ position + extent commands) :
    commentsFrom position pending commands place =
      commentsFrom position other commands place := by
  induction commands generalizing position with
  | nil =>
    have elsewhere : place ≠ position := inside
    rw [commentsFrom, commentsFrom, if_neg elsewhere, if_neg elsewhere]
  | cons head rest ih =>
    obtain ⟨comments, command⟩ := head
    rw [extent_cons] at inside
    rw [commentsFrom, commentsFrom, ih (by omega)]

/-- A command takes the comments that wait for it. -/
theorem commentsFrom_issue (position place : Nat) (pending : List String) (command : Command)
    (commands : List (List String × Command)) :
    commentsFrom position [] (commands ++ [(pending, command)]) place =
      commentsFrom position pending commands place := by
  induction commands generalizing position with
  | nil =>
    rw [List.nil_append, commentsFrom, commentsFrom, commentsFrom]
    by_cases here : place = position
    · rw [if_pos here, if_pos here]
    · rw [if_neg here, if_neg here, ite_self]
  | cons head rest ih =>
    obtain ⟨comments, other⟩ := head
    rw [List.cons_append, commentsFrom, commentsFrom, ih]

/-- A writer holds what the draft of its calls says. -/
structure Written (draft : Draft) (writer : Writer) : Prop where
  words : writer.words = draft.words
  regions : ∀ id, writer.regions.get? id = draft.region? id
  focus : writer.focus = draft.focus
  comments : ∀ position, (writer.comments.get? (4 * position)).getD [] =
    commentsFrom 0 draft.pending draft.commands position

theorem Written.blank : blank.Written .empty where
  words := rfl
  regions _ := rfl
  focus := rfl
  comments _ := (ite_self _).symm

theorem Written.put {draft : Draft} {writer : Writer} (written : draft.Written writer)
    (command : Command) : (draft.issue command).Written (writer.put command) where
  words := by rw [Writer.put, written.words, words_issue]
  regions := written.regions
  focus := written.focus
  comments position := by
    rw [issue, commentsFrom_issue]
    exact written.comments position

theorem Written.contains {draft : Draft} {writer : Writer} (written : draft.Written writer)
    (id : RegionId) : writer.regions.contains id = (draft.region? id).isSome := by
  rw [OrderedMap.contains, written.regions]

theorem Written.reserve {draft : Draft} {writer : Writer} (written : draft.Written writer)
    (region : Region) :
    (draft.Accepts (.reserve region) →
      ∃ next, writer.call (.reserve region) = .ok next ∧
        (draft.add (.reserve region)).Written next) ∧
    (¬ draft.Accepts (.reserve region) → ∃ fault, writer.call (.reserve region) = .error fault) := by
  have limit : region.id < RegionId.limit ↔ region.id.toNat < 16 := UInt8.lt_iff_toNat_lt
  rw [Writer.call, Writer.reserve, written.contains]
  constructor
  · intro accepted
    obtain ⟨declarable, undeclared⟩ := accepted
    rw [if_neg (not_not.2 (limit.2 declarable)), undeclared]
    have put := written.put (.reserve region.id region.size region.unfilled)
    refine ⟨_, rfl, ⟨put.words, fun id => ?_, put.focus, put.comments⟩⟩
    rw [OrderedMap.get?_insert, region?_reserve]
    by_cases same : region.id = id
    · subst same
      rw [if_pos rfl, if_pos rfl, undeclared, Option.none_or]
    · rw [if_neg same, if_neg same, Option.or_none]
      exact written.regions id
  · intro refused
    by_cases declarable : region.id.toNat < 16
    · have declared : draft.region? region.id ≠ none := fun none => refused ⟨declarable, none⟩
      rw [if_neg (not_not.2 (limit.2 declarable)),
        if_pos (Option.isSome_iff_ne_none.2 declared)]
      exact ⟨_, rfl⟩
    · rw [if_pos (mt limit.1 declarable)]
      exact ⟨_, rfl⟩

theorem Written.switchFocus {draft : Draft} {writer : Writer} (written : draft.Written writer)
    (region : RegionId) :
    (draft.Accepts (.focus region) →
      ∃ next, writer.call (.focus region) = .ok next ∧
        (draft.add (.focus region)).Written next) ∧
    (¬ draft.Accepts (.focus region) → ∃ fault, writer.call (.focus region) = .error fault) := by
  rw [Writer.call, Writer.switchFocus, written.contains]
  constructor
  · intro accepted
    rw [if_pos (Option.isSome_iff_ne_none.2 accepted)]
    exact ⟨_, rfl, ⟨(written.put _).words, written.regions, rfl, (written.put _).comments⟩⟩
  · intro refused
    rw [if_neg (mt Option.isSome_iff_ne_none.1 refused)]
    exact ⟨_, rfl⟩

theorem Written.requireFocus {draft : Draft} {writer : Writer} (written : draft.Written writer) :
    (draft.focus ≠ none → writer.requireFocus = .ok ()) ∧
      (draft.focus = none → writer.requireFocus = .error (.specification .noFocus)) := by
  rw [Writer.requireFocus, written.focus]
  cases draft.focus with
  | none => exact ⟨fun focused => (focused rfl).elim, fun _ => rfl⟩
  | some region => exact ⟨fun _ => rfl, fun absent => nomatch absent⟩

theorem Written.store {draft : Draft} {writer : Writer} (written : draft.Written writer)
    (command : Command) (data : Bytes) :
    (draft.store command data).Written (writer.put command) :=
  ⟨(written.put command).words, written.regions, written.focus, (written.put command).comments⟩

theorem Written.repeated {draft : Draft} {writer : Writer} (written : draft.Written writer)
    (value : UInt32) (repeats : UInt8) (width : Width) :
    (draft.Accepts (.repeated value repeats width) →
      writer.writeRepeated value repeats width = .ok (writer.put (.write value width repeats))) ∧
    (¬ draft.Accepts (.repeated value repeats width) →
      ∃ fault, writer.writeRepeated value repeats width = .error fault) := by
  rw [Writer.writeRepeated]
  constructor
  · intro accepted
    rw [written.requireFocus.1 accepted.1]
    exact if_neg accepted.2
  · intro refused
    cases focus : draft.focus with
    | none => exact ⟨_, by rw [written.requireFocus.2 focus]; rfl⟩
    | some region =>
      have focused : draft.focus ≠ none := by rw [focus]; exact Option.some_ne_none _
      have never : repeats = 0 := not_not.1 fun some => refused ⟨focused, some⟩
      rw [written.requireFocus.1 focused]
      exact ⟨_, if_pos never⟩

theorem Written.array {draft : Draft} {writer : Writer} (written : draft.Written writer)
    (values : List UInt32) :
    (draft.Accepts (.array values) →
      writer.writeArray values = .ok (writer.put (.writeArray values))) ∧
    (¬ draft.Accepts (.array values) → ∃ fault, writer.writeArray values = .error fault) := by
  rw [Writer.writeArray]
  constructor
  · intro accepted
    rw [written.requireFocus.1 accepted.1]
    exact if_neg (Nat.not_le.2 accepted.2)
  · intro refused
    cases focus : draft.focus with
    | none => exact ⟨_, by rw [written.requireFocus.2 focus]; rfl⟩
    | some region =>
      have focused : draft.focus ≠ none := by rw [focus]; exact Option.some_ne_none _
      have long : UInt32.size ≤ values.length := Nat.not_lt.1 fun short => refused ⟨focused, short⟩
      rw [written.requireFocus.1 focused]
      exact ⟨_, if_pos long⟩

theorem Written.comment {draft : Draft} {writer : Writer} (written : draft.Written writer)
    (text : String) : (draft.add (.comment text)).Written (writer.comment text) where
  words := written.words
  regions := written.regions
  focus := written.focus
  comments position := by
    have ending : writer.words.length = 0 + extent draft.commands := by
      rw [written.words, Nat.zero_add]
      rfl
    rw [Writer.comment, ending]
    dsimp only
    rw [OrderedMap.get?_insert, written.comments, add]
    by_cases here : position = 0 + extent draft.commands
    · rw [if_pos (by rw [here]), here, commentsFrom_end, commentsFrom_end, Option.getD_some]
    · rw [if_neg (by omega), commentsFrom_of_ne _ draft.pending here]
      exact written.comments position

/-- **A call succeeds exactly when the draft accepts it, and keeps the two in step.** -/
theorem Written.call {draft : Draft} {writer : Writer} (written : draft.Written writer)
    (call : Call) :
    (draft.Accepts call → ∃ next, writer.call call = .ok next ∧ (draft.add call).Written next) ∧
      (¬ draft.Accepts call → ∃ fault, writer.call call = .error fault) := by
  cases call with
  | reserve region => exact written.reserve region
  | focus region => exact written.switchFocus region
  | value value =>
    have once := written.repeated value 1 .word
    have accepts : draft.Accepts (.value value) ↔ draft.Accepts (.repeated value 1 .word) :=
      ⟨fun focused => ⟨focused, by decide⟩, And.left⟩
    exact ⟨fun accepted => ⟨_, once.1 (accepts.1 accepted), written.store _ _⟩,
      fun refused => once.2 (mt accepts.2 refused)⟩
  | repeated value repeats width =>
    have repeated := written.repeated value repeats width
    exact ⟨fun accepted => ⟨_, repeated.1 accepted, written.store _ _⟩, repeated.2⟩
  | array values =>
    have array := written.array values
    exact ⟨fun accepted => ⟨_, array.1 accepted, written.store _ _⟩, array.2⟩
  | comment text =>
    exact ⟨fun _ => ⟨_, rfl, written.comment text⟩, fun refused => (refused trivial).elim⟩

/-- A writer, the draft of its calls and the execution of its commands agree. -/
structure InStep (draft : Draft) (writer : Writer) : Prop where
  sound : draft.Sound
  written : draft.Written writer
  foretold : draft.Foretells draft.outcome

theorem InStep.blank : Draft.blank.InStep .empty where
  sound := .blank
  written := .blank
  foretold := by
    refine ⟨rfl, fun id => rfl, ?_⟩
    rintro region ⟨found, -⟩
    cases found

theorem InStep.attempt {draft : Draft} {writer : Writer} (agree : draft.InStep writer)
    (call : Call) : (draft.attempt call).InStep (writer.attempt call) := by
  obtain ⟨sound, written, told⟩ := agree
  rw [Draft.attempt, Writer.attempt]
  by_cases accepted : draft.Accepts call
  · obtain ⟨next, made, follows⟩ := (written.call call).1 accepted
    rw [if_pos accepted, made]
    exact ⟨sound.add accepted, follows, foretells_add sound told accepted⟩
  · obtain ⟨fault, failed⟩ := (written.call call).2 accepted
    rw [if_neg accepted, failed]
    exact ⟨sound, written, told⟩

theorem InStep.foldl {draft : Draft} {writer : Writer} (agree : draft.InStep writer)
    (calls : List Call) :
    (calls.foldl Draft.attempt draft).InStep (calls.foldl Writer.attempt writer) := by
  induction calls generalizing draft writer with
  | nil => exact agree
  | cons call calls ih => exact ih (agree.attempt call)

theorem lines_eq (program : Program) {position : Nat} {comments : List String}
    (annotated : (program.comments.get? (4 * position)).getD [] = comments) (opcode : Opcode)
    (details : String) :
    program.lines position opcode details =
      commentLines comments ++ [line position opcode details] := by
  rw [Program.lines, annotated]
  rfl

theorem listing_eq (program : Program) (pending : List String)
    (commands : List (List String × Command)) (position : Nat)
    (annotated : ∀ place, position ≤ place → (program.comments.get? (4 * place)).getD [] =
      commentsFrom position pending commands place) :
    program.listing (locate position (commands.map Prod.snd)) (position + extent commands) =
      linesFrom position pending commands := by
  induction commands generalizing position with
  | nil => exact lines_eq program ((annotated position (Nat.le_refl _)).trans (if_pos rfl)) _ _
  | cons head rest ih =>
    obtain ⟨comments, command⟩ := head
    have here : (program.comments.get? (4 * position)).getD [] = comments :=
      (annotated position (Nat.le_refl _)).trans (if_pos rfl)
    have later := ih (position + 1 + command.extra) fun place after => by
      rw [annotated place (by omega), commentsFrom, if_neg (by omega)]
    rw [linesFrom, ← later, extent_cons, ← Nat.add_assoc, ← Nat.add_assoc, List.map_cons, locate,
      Program.listing, List.flatMap_cons, lines_eq program here, List.append_assoc,
      List.append_assoc]
    rfl

/-! ## The execution -/

/-- A finished specification runs as its commands do, and lists what the draft lists. -/
theorem InStep.run_finish {draft : Draft} {writer : Writer} (agree : draft.InStep writer) :
    writer.finish.run = draft.outcome.bind fun reached =>
      .ok ⟨reached.images, draft.listing⟩ := by
  obtain ⟨sound, written, -⟩ := agree
  have fit : ∀ command ∈ draft.commands.map Prod.snd, command.Encodable := by
    intro command member
    obtain ⟨annotated, held, rfl⟩ := List.mem_map.1 member
    exact sound.encodable annotated held
  have whole : writer.finish.bytes.length % 4 = 0 := by
    rw [Writer.finish, Bytes.length_ofWords]
    omega
  have scanned : scan 0 (Bytes.words writer.finish.bytes) =
      (locate 0 (draft.commands.map Prod.snd), .finished (0 + extent draft.commands)) := by
    rw [Writer.finish, Bytes.words_ofWords, written.words]
    exact scan_encode 0 fit
  have listed := listing_eq writer.finish draft.pending draft.commands 0 fun place _ =>
    written.comments place
  rw [listing, ← listed, Program.run, scanned]
  simp only [whole]
  rfl

/-- A draft that fits its regions executes to what it says. -/
theorem InStep.execute_of_fits {draft : Draft} {writer : Writer} (agree : draft.InStep writer)
    (fits : ∀ region, ¬ draft.Overflows region) :
    ∃ execution, writer.finish.execute = .ok execution ∧
      (∀ id, execution.image? id = draft.image? id) ∧ execution.listing = draft.listing := by
  rw [Program.execute, agree.run_finish]
  cases outcome : draft.outcome with
  | error cause =>
    obtain ⟨region, spilled, -⟩ := outcome ▸ agree.foretold
    exact (fits region spilled).elim
  | ok reached =>
    obtain ⟨-, images, -⟩ := outcome ▸ agree.foretold
    exact ⟨_, rfl, images, rfl⟩

end Draft

end MeshControl.Spec
