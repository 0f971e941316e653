import Mathlib.Data.List.Induction
import MeshControl.Proofs.Spec.Grammar
import MeshControl.Proofs.Spec.Images
import MeshControl.Proofs.Spec.Writing

/-!
# Which specifications execute

A specification is any bytes with any comments. It executes exactly if its words are a sentence
whose commands are lawful: each has what it needs of those before it, and no region receives more
than its size. Its images are then what the commands make when nothing is checked, and nothing
else in the specification plays a part (`Program.execute_recognizes`).
-/

namespace MeshControl.Spec

/-- The bytes that a command stores. -/
def Command.stored : Command → Bytes
  | .nop | .reserve .. | .focus _ => []
  | .write value width repeats => (List.replicate repeats.toNat (lowBytes value width)).flatten
  | .writeArray values => values.flatMap fun value => littleEndian 4 value.toNat

namespace Progress

/-- Bytes at the end of the image in focus, with or without room for them. -/
def extend (progress : Progress) (data : Bytes) : Progress :=
  match progress.focus.bind progress.images.get? with
  | none => progress
  | some image =>
    { progress with
      images := progress.images.insert image.region.id { image with data := image.data ++ data } }

/-- What a command does when nothing is checked. -/
def advance (progress : Progress) (command : Command) : Progress :=
  match command with
  | .nop => progress
  | .reserve region size unfilled =>
    { progress with
      images := progress.images.insert region
        ⟨⟨region, size, plainLabel region, unfilled⟩, []⟩ }
  | .focus region => { progress with focus := some region }
  | .write .. | .writeArray _ => progress.extend command.stored

/-- No image has more bytes than its region. -/
def Roomy (progress : Progress) : Prop :=
  ∀ id image, progress.images.get? id = some image → image.data.length ≤ image.region.size.toNat

end Progress

/-- What commands make of an empty set of images when nothing is checked. -/
def made (commands : List Command) : Progress := commands.foldl Progress.advance .start

/-- What a command needs of those before it: a region is reserved once, and before it has focus,
and a write has a region in focus. -/
def Command.Follows (before : List Command) : Command → Prop
  | .nop => True
  | .reserve region _ _ => ∀ size unfilled, .reserve region size unfilled ∉ before
  | .focus region => ∃ size unfilled, .reserve region size unfilled ∈ before
  | .write .. | .writeArray _ => ∃ region, .focus region ∈ before

/-- Every command has what it needs of those before it. -/
def InOrder (commands : List Command) : Prop :=
  ∀ before command after, commands = before ++ command :: after → command.Follows before

/-- Commands that execute. -/
structure Lawful (commands : List Command) : Prop where
  ordered : InOrder commands
  roomy : (made commands).Roomy

/-! ## What commands make -/

theorem made_concat (before : List Command) (command : Command) :
    made (before ++ [command]) = (made before).advance command := by
  rw [made, List.foldl_append]
  rfl

theorem inOrder_concat_iff {before : List Command} {command : Command} :
    InOrder (before ++ [command]) ↔ InOrder before ∧ command.Follows before := by
  constructor
  · intro ordered
    refine ⟨fun first other after split => ?_, ordered before command [] rfl⟩
    apply ordered first other (after ++ [command])
    rw [split, List.append_assoc, List.cons_append]
  · rintro ⟨ordered, follows⟩ first other after split
    rcases List.eq_nil_or_concat after with rfl | ⟨middle, last, rfl⟩
    · obtain ⟨rfl, same⟩ := List.append_inj' split rfl
      cases same
      exact follows
    · rw [List.concat_eq_append, ← List.cons_append, ← List.append_assoc] at split
      obtain ⟨rfl, -⟩ := List.append_inj' split rfl
      exact ordered first other middle rfl

theorem InOrder.left {before after : List Command} (ordered : InOrder (before ++ after)) :
    InOrder before := by
  intro first command middle split
  apply ordered first command (middle ++ after)
  rw [split, List.append_assoc, List.cons_append]

theorem InOrder.follows {before after : List Command} {command : Command}
    (ordered : InOrder (before ++ command :: after)) : command.Follows before :=
  ordered before command after rfl

/-- The image in focus and its number. -/
theorem Progress.extend_cases (progress : Progress) (data : Bytes) :
    progress.extend data = progress ∨
      ∃ region image, progress.focus = some region ∧ progress.images.get? region = some image ∧
        progress.extend data = { progress with
          images := progress.images.insert image.region.id
            { image with data := image.data ++ data } } := by
  rw [extend]
  cases focus : progress.focus with
  | none => exact .inl rfl
  | some region =>
    rw [Option.bind_some]
    cases found : progress.images.get? region with
    | none => exact .inl rfl
    | some image => exact .inr ⟨region, image, rfl, found, rfl⟩

theorem made_filed (commands : List Command) {id : RegionId} {image : Image}
    (found : (made commands).images.get? id = some image) : image.region.id = id := by
  induction commands using List.reverseRecOn generalizing id image with
  | nil => cases found
  | append_singleton before command ih =>
    -- Whatever is put into the images goes under its own number.
    have filed : ∀ new : Image,
        ((made before).images.insert new.region.id new).get? id = some image →
          image.region.id = id := by
      intro new look
      rw [OrderedMap.get?_insert] at look
      by_cases same : new.region.id = id
      · rw [if_pos same] at look
        cases look
        exact same
      · rw [if_neg same] at look
        exact ih look
    rw [made_concat] at found
    cases command with
    | nop | focus => exact ih found
    | reserve region size unfilled =>
      exact filed ⟨⟨region, size, Progress.plainLabel region, unfilled⟩, []⟩ found
    | write | writeArray =>
      rw [Progress.advance] at found
      rcases (made before).extend_cases _ with same | ⟨region, target, -, -, same⟩
      · rw [same] at found
        exact ih found
      · rw [same] at found
        exact filed { target with data := target.data ++ _ } found

/-- More bytes in an image make no new one. -/
theorem Progress.contains_extend (commands : List Command) (data : Bytes) (id : RegionId) :
    ((made commands).extend data).images.contains id = (made commands).images.contains id := by
  rcases (made commands).extend_cases data with same | ⟨region, image, -, found, same⟩
  · rw [same]
  · rw [same, OrderedMap.contains, OrderedMap.contains, OrderedMap.get?_insert]
    by_cases here : image.region.id = id
    · rw [if_pos here, ← here, made_filed commands found, found]
      rfl
    · rw [if_neg here]

/-- The images are those of the regions that were reserved. -/
theorem contains_made_iff (commands : List Command) (id : RegionId) :
    (made commands).images.contains id = true ↔
      ∃ size unfilled, .reserve id size unfilled ∈ commands := by
  induction commands using List.reverseRecOn with
  | nil => exact ⟨nofun, nofun⟩
  | append_singleton before command ih =>
    have step : (made (before ++ [command])).images.contains id = true ↔
        (made before).images.contains id = true ∨
          ∃ size unfilled, command = .reserve id size unfilled := by
      rw [made_concat]
      cases command with
      | nop | focus => exact ⟨.inl, fun either => either.resolve_right nofun⟩
      | write | writeArray =>
        rw [Progress.advance, Progress.contains_extend]
        exact ⟨.inl, fun either => either.resolve_right nofun⟩
      | reserve region size unfilled =>
        rw [Progress.advance, OrderedMap.contains, OrderedMap.get?_insert]
        by_cases same : region = id
        · rw [if_pos same, same]
          exact ⟨fun _ => .inr ⟨size, unfilled, rfl⟩, fun _ => rfl⟩
        · rw [if_neg same]
          refine ⟨.inl, fun either => either.resolve_right ?_⟩
          rintro ⟨_, _, equal⟩
          cases equal
          exact same rfl
    rw [step, ih]
    constructor
    · rintro (⟨size, unfilled, member⟩ | ⟨size, unfilled, rfl⟩)
      · exact ⟨size, unfilled, List.mem_append_left _ member⟩
      · exact ⟨size, unfilled, List.mem_append_right _ (List.mem_singleton.2 rfl)⟩
    · rintro ⟨size, unfilled, member⟩
      rcases List.mem_append.1 member with early | last
      · exact .inl ⟨size, unfilled, early⟩
      · exact .inr ⟨size, unfilled, (List.mem_singleton.1 last).symm⟩

theorem Progress.focus_extend (progress : Progress) (data : Bytes) :
    (progress.extend data).focus = progress.focus := by
  rcases progress.extend_cases data with same | ⟨_, _, -, -, same⟩
  · rw [same]
  · rw [same]

/-- A region has focus once one was given it. -/
theorem exists_focus_made_iff (commands : List Command) :
    (∃ region, (made commands).focus = some region) ↔ ∃ region, .focus region ∈ commands := by
  induction commands using List.reverseRecOn with
  | nil => exact ⟨nofun, nofun⟩
  | append_singleton before command ih =>
    have keep : (∀ region, command ≠ .focus region) →
        ((∃ region, (made before).focus = some region) ↔
          ∃ region, .focus region ∈ before ++ [command]) := by
      intro other
      rw [ih]
      refine ⟨fun ⟨region, member⟩ => ⟨region, List.mem_append_left _ member⟩, ?_⟩
      rintro ⟨region, member⟩
      rcases List.mem_append.1 member with early | last
      · exact ⟨region, early⟩
      · exact absurd (List.mem_singleton.1 last).symm (other region)
    rw [made_concat]
    cases command with
    | nop => exact keep nofun
    | reserve => exact keep nofun
    | write | writeArray =>
      rw [Progress.advance, Progress.focus_extend]
      exact keep nofun
    | focus region =>
      exact ⟨fun _ => ⟨region, List.mem_append_right _ (List.mem_singleton.2 rfl)⟩,
        fun _ => ⟨region, rfl⟩⟩

/-- The region in focus was reserved. -/
theorem InOrder.contains_focus {commands : List Command} (ordered : InOrder commands)
    {region : RegionId} (focus : (made commands).focus = some region) :
    (made commands).images.contains region = true := by
  induction commands using List.reverseRecOn with
  | nil => cases focus
  | append_singleton before command ih =>
    obtain ⟨earlier, follows⟩ := inOrder_concat_iff.1 ordered
    have kept : (made before).images.contains region = true →
        (made (before ++ [command])).images.contains region = true := by
      rw [contains_made_iff, contains_made_iff]
      rintro ⟨size, unfilled, member⟩
      exact ⟨size, unfilled, List.mem_append_left _ member⟩
    apply kept
    rw [made_concat] at focus
    cases command with
    | nop | reserve => exact ih earlier focus
    | write | writeArray =>
      rw [Progress.advance, Progress.focus_extend] at focus
      exact ih earlier focus
    | focus other =>
      cases focus
      exact (contains_made_iff before region).2 follows

/-- An image keeps its region and loses no byte. -/
theorem exists_made_concat {before : List Command} {command : Command}
    (follows : command.Follows before) {id : RegionId} {image : Image}
    (found : (made before).images.get? id = some image) :
    ∃ later, (made (before ++ [command])).images.get? id = some later ∧
      later.region = image.region ∧ image.data.length ≤ later.data.length := by
  have same : (made before).images.get? id = some image →
      ∃ later, (made before).images.get? id = some later ∧
        later.region = image.region ∧ image.data.length ≤ later.data.length :=
    fun found => ⟨image, found, rfl, Nat.le_refl _⟩
  rw [made_concat]
  cases command with
  | nop | focus => exact same found
  | reserve region size unfilled =>
    have different : region ≠ id := by
      rintro rfl
      obtain ⟨size, unfilled, member⟩ := (contains_made_iff before region).1
        (Option.isSome_iff_exists.2 ⟨image, found⟩)
      exact follows size unfilled member
    rw [Progress.advance, OrderedMap.get?_insert, if_neg different]
    exact same found
  | write | writeArray =>
    rw [Progress.advance]
    rcases (made before).extend_cases _ with alone | ⟨region, target, -, look, grown⟩
    · rw [alone]
      exact same found
    · rw [grown, OrderedMap.get?_insert]
      have filed := made_filed before look
      by_cases here : target.region.id = id
      · rw [if_pos here]
        rw [filed] at here
        rw [here, found] at look
        cases look
        exact ⟨_, rfl, rfl, by rw [List.length_append]; omega⟩
      · rw [if_neg here]
        exact same found

theorem InOrder.exists_made {before after : List Command} (ordered : InOrder (before ++ after))
    {id : RegionId} {image : Image} (found : (made before).images.get? id = some image) :
    ∃ later, (made (before ++ after)).images.get? id = some later ∧
      later.region = image.region ∧ image.data.length ≤ later.data.length := by
  induction after generalizing before image with
  | nil =>
    rw [List.append_nil]
    exact ⟨image, found, rfl, Nat.le_refl _⟩
  | cons command after ih =>
    obtain ⟨next, look, region, length⟩ := exists_made_concat ordered.follows found
    rw [List.append_cons] at ordered ⊢
    obtain ⟨later, look, region', length'⟩ := ih ordered look
    exact ⟨later, look, region'.trans region, Nat.le_trans length length'⟩

/-- Commands that leave room at the end left room before. -/
theorem InOrder.roomy_left {before after : List Command} (ordered : InOrder (before ++ after))
    (roomy : (made (before ++ after)).Roomy) : (made before).Roomy := by
  intro id image found
  obtain ⟨later, look, region, length⟩ := ordered.exists_made found
  have room := roomy id later look
  rw [region] at room
  omega

/-! ## Running commands -/

/-- Bytes go into the image in focus if there is one, and room for them. -/
theorem append_made_eq_ok_iff {before : List Command} (ordered : InOrder before)
    (roomy : (made before).Roomy) {position : Nat} {data : Bytes} {next : Progress} :
    (made before).append position data = .ok next ↔
      (∃ region, .focus region ∈ before) ∧ ((made before).extend data).Roomy ∧
        next = (made before).extend data := by
  rw [← exists_focus_made_iff, Progress.append, Progress.extend]
  cases focus : (made before).focus with
  | none =>
    constructor
    · rintro ⟨⟩
    · rintro ⟨⟨region, ⟨⟩⟩, -⟩
  | some region =>
    obtain ⟨image, found⟩ := Option.isSome_iff_exists.1 (ordered.contains_focus focus)
    rw [Option.bind_some, found]
    dsimp only
    have filed := made_filed before found
    have room : image.data.length + data.length ≤ image.region.size.toNat ↔
        Progress.Roomy { made before with
          images := (made before).images.insert image.region.id
            { image with data := image.data ++ data } } := by
      constructor
      · intro fits id other look
        rw [OrderedMap.get?_insert] at look
        by_cases same : image.region.id = id
        · rw [if_pos same] at look
          cases look
          rw [List.length_append]
          exact fits
        · rw [if_neg same] at look
          exact roomy id other look
      · intro roomy
        have fits := roomy _ _ (OrderedMap.get?_insert_self ..)
        rw [List.length_append] at fits
        exact fits
    constructor
    · intro ok
      split at ok
      · rename_i fits
        cases ok
        exact ⟨⟨region, rfl⟩, room.1 fits, rfl⟩
      · cases ok
    · rintro ⟨-, roomy, rfl⟩
      exact if_pos (room.2 roomy)

/-- **One command** succeeds if it has what it needs and leaves room. -/
theorem step_made_eq_ok_iff {before : List Command} (ordered : InOrder before)
    (roomy : (made before).Roomy) (position : Nat) {command : Command} {next : Progress} :
    (made before).step ⟨position, command⟩ = .ok next ↔
      command.Follows before ∧ (made (before ++ [command])).Roomy ∧
        next = made (before ++ [command]) := by
  rw [made_concat]
  cases command with
  | nop =>
    constructor
    · rintro ⟨⟩
      exact ⟨trivial, roomy, rfl⟩
    · rintro ⟨-, -, rfl⟩
      rfl
  | reserve region size unfilled =>
    rw [Progress.step, Progress.advance]
    have room : Progress.Roomy { made before with
        images := (made before).images.insert region
          ⟨⟨region, size, Progress.plainLabel region, unfilled⟩, []⟩ } := by
      intro id image look
      rw [OrderedMap.get?_insert] at look
      by_cases same : region = id
      · rw [if_pos same] at look
        cases look
        exact Nat.zero_le _
      · rw [if_neg same] at look
        exact roomy id image look
    have once := contains_made_iff before region
    dsimp only
    by_cases taken : (made before).images.contains region = true
    · rw [if_pos taken]
      obtain ⟨size', unfilled', member⟩ := once.1 taken
      constructor
      · rintro ⟨⟩
      · rintro ⟨follows, -⟩
        exact absurd member (follows size' unfilled')
    · rw [if_neg taken]
      constructor
      · rintro ⟨⟩
        exact ⟨fun size unfilled member => taken (once.2 ⟨size, unfilled, member⟩), room, rfl⟩
      · rintro ⟨-, -, rfl⟩
        rfl
  | focus region =>
    rw [Progress.step, Progress.advance]
    dsimp only
    rw [Command.Follows, ← contains_made_iff]
    by_cases present : (made before).images.contains region = true
    · rw [if_pos present]
      constructor
      · rintro ⟨⟩
        exact ⟨present, roomy, rfl⟩
      · rintro ⟨-, -, rfl⟩
        rfl
    · rw [if_neg present]
      constructor
      · rintro ⟨⟩
      · rintro ⟨follows, -⟩
        exact absurd follows present
  | write value width repeats =>
    rw [Progress.step_write]
    exact append_made_eq_ok_iff ordered roomy
  | writeArray values =>
    rw [Progress.step_writeArray]
    exact append_made_eq_ok_iff ordered roomy

/-- **Commands in turn.** -/
theorem run_made_eq_ok_iff {before : List Command} (ordered : InOrder before)
    (roomy : (made before).Roomy) {commands : List Located} {last : Progress} :
    (made before).run commands = .ok last ↔
      Lawful (before ++ commands.map Located.command) ∧
        last = made (before ++ commands.map Located.command) := by
  induction commands generalizing before with
  | nil =>
    rw [List.map_nil, List.append_nil, Progress.run]
    constructor
    · rintro ⟨⟩
      exact ⟨⟨ordered, roomy⟩, rfl⟩
    · rintro ⟨-, rfl⟩
      rfl
  | cons located rest ih =>
    obtain ⟨position, command⟩ := located
    rw [List.map_cons, List.append_cons, Progress.run]
    constructor
    · intro ok
      obtain ⟨next, step, ok⟩ := exists_of_bind_eq_ok ok
      obtain ⟨follows, room, rfl⟩ := (step_made_eq_ok_iff ordered roomy position).1 step
      exact (ih (inOrder_concat_iff.2 ⟨ordered, follows⟩) room).1 ok
    · rintro ⟨lawful, same⟩
      have first := lawful.ordered.left
      have room := lawful.ordered.roomy_left lawful.roomy
      have step := (step_made_eq_ok_iff ordered roomy position).2
        ⟨(inOrder_concat_iff.1 first).2, room, rfl⟩
      rw [step]
      exact (ih first room).2 ⟨lawful, same⟩

/-! ## Specifications -/

namespace Program

variable {program : Program} {execution : Execution}

theorem execute_eq_ok_iff :
    program.execute = .ok execution ↔
      program.bytes.length % 4 = 0 ∧ ∃ commands finish,
        Sentence 0 (Bytes.words program.bytes) commands finish ∧
        Lawful (commands.map Located.command) ∧
        execution = ⟨(made (commands.map Located.command)).images,
          program.listing commands finish⟩ := by
  have start : InOrder [] := by
    intro before command after split
    cases before <;> cases split
  have empty : (made []).Roomy := by
    intro id image found
    cases found
  have runs : program.execute = .ok execution ↔ program.run = .ok execution := by
    rw [execute]
    cases program.run with
    | error fault =>
      constructor
      · rintro ⟨⟩
      · rintro ⟨⟩
    | ok answer =>
      constructor
      · rintro ⟨⟩
        rfl
      · rintro ⟨⟩
        rfl
  rw [runs]
  constructor
  · intro ok
    rcases scanned : scan 0 (Bytes.words program.bytes) with ⟨commands, ending⟩
    unfold run at ok
    rw [scanned] at ok
    obtain ⟨whole, ok⟩ := not_of_guard_eq_ok ok
    obtain ⟨last, ran, ok⟩ := exists_of_bind_eq_ok ok
    cases ending with
    | broken fault => cases ok
    | finished finish =>
      cases ok
      obtain ⟨lawful, same⟩ := (run_made_eq_ok_iff start empty).1 ran
      subst same
      exact ⟨not_not.1 whole, commands, finish, scan_eq_finished_iff.1 scanned, lawful, rfl⟩
  · rintro ⟨whole, commands, finish, sentence, lawful, rfl⟩
    have ran : Progress.start.run commands = .ok (made (commands.map Located.command)) :=
      (run_made_eq_ok_iff start empty).2 ⟨lawful, rfl⟩
    rw [run, scan_eq_finished_iff.2 sentence]
    simp only [whole]
    rw [ran]
    rfl

/-- A listing looks up the comments of its own commands only. -/
theorem listing_congr (program other : Program) {commands : List Located} {finish : Nat}
    (same : ∀ place ∈ finish :: commands.map Located.position,
      other.comments.get? (4 * place) = program.comments.get? (4 * place)) :
    other.listing commands finish = program.listing commands finish := by
  have lines : ∀ place ∈ finish :: commands.map Located.position, ∀ opcode details,
      other.lines place opcode details = program.lines place opcode details := by
    intro place member opcode details
    rw [Program.lines, Program.lines, same place member]
  rw [listing, listing, lines finish (List.mem_cons_self ..)]
  congr 1
  rw [List.flatMap_def, List.flatMap_def]
  congr 1
  apply List.map_congr_left
  intro located member
  exact lines _ (List.mem_cons_of_mem _ (List.mem_map_of_mem member)) _ _

/-- **A specification executes exactly if it is a sentence of lawful commands.** Otherwise it fails
with a fault of the specification. Its images are what the commands make, none larger than its
region, and its listing has the lines of the commands. Words behind the operands of the end
marker, what these operands are, and comments elsewhere than at a command make no difference. -/
theorem execute_recognizes (program : Program) :
    (∀ fault, program.execute = .error fault → ∃ cause, fault = .specification cause) ∧
    ((∃ execution, program.execute = .ok execution) ↔
      program.bytes.length % 4 = 0 ∧ ∃ commands finish,
        Sentence 0 (Bytes.words program.bytes) commands finish ∧
        Lawful (commands.map Located.command)) ∧
    ∀ execution, program.execute = .ok execution →
      ∃ commands before marker rest,
        Bytes.words program.bytes = before ++ marker :: rest ∧
        Sentence 0 (before ++ marker :: rest) commands before.length ∧
        execution.images = (made (commands.map Located.command)).images ∧
        execution.listing = program.listing commands before.length ∧
        (∀ id image, execution.image? id = some image →
          image.data.length ≤ image.region.size.toNat) ∧
        ∀ others comments, field marker 28 4 ≤ others.length →
          (∀ place ∈ before.length :: commands.map Located.position,
            comments.get? (4 * place) = program.comments.get? (4 * place)) →
          execute ⟨Bytes.ofWords (before ++ marker :: others), comments⟩ = .ok execution := by
  refine ⟨?_, ⟨?_, ?_⟩, ?_⟩
  · intro fault failed
    rw [execute] at failed
    cases ran : program.run with
    | error cause =>
      rw [ran] at failed
      cases failed
      exact ⟨cause, rfl⟩
    | ok execution =>
      rw [ran] at failed
      cases failed
  · rintro ⟨execution, ok⟩
    obtain ⟨whole, commands, finish, sentence, lawful, -⟩ := execute_eq_ok_iff.1 ok
    exact ⟨whole, commands, finish, sentence, lawful⟩
  · rintro ⟨whole, commands, finish, sentence, lawful⟩
    exact ⟨_, execute_eq_ok_iff.2 ⟨whole, commands, finish, sentence, lawful, rfl⟩⟩
  · intro execution ok
    obtain ⟨whole, commands, finish, sentence, lawful, rfl⟩ := execute_eq_ok_iff.1 ok
    obtain ⟨before, marker, rest, words, place, free⟩ := sentence.exists_marker
    rw [Nat.zero_add] at place
    subst place
    refine ⟨commands, before, marker, rest, words, words ▸ sentence, rfl, rfl, lawful.roomy, ?_⟩
    intro others comments enough same
    apply execute_eq_ok_iff.2
    refine ⟨?_, commands, before.length, ?_, lawful, ?_⟩
    · rw [Bytes.length_ofWords]
      omega
    · rw [Bytes.words_ofWords]
      exact free others enough
    · rw [listing_congr program ⟨_, comments⟩ same]

end Program

end MeshControl.Spec
