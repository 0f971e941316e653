import MeshControl.Proofs.Outcome
import MeshControl.Proofs.Spec.Scanning

/-!
# The language of specifications

Which words are a command (`Spells`), and which are commands up to an end marker (`Sentence`), by
the places of the fields alone. Scanning accepts this language and no other
(`scan_eq_finished_iff`), and it never looks behind the operands of the end marker
(`Sentence.exists_marker`).
-/

namespace MeshControl.Spec

/-- The number in `width` bits of a word, the lowest of them at `low`. -/
def field (word : UInt32) (low width : Nat) : Nat := word.toNat / 2 ^ low % 2 ^ width

/-- The words of one command: the first has its opcode and says how many operands follow, and the
first operand of an array says how many words follow them. -/
inductive Spells : List UInt32 → Command → Prop where
  | nop {word : UInt32} {operands : List UInt32} (opcode : field word 20 8 = 0x01)
    (announced : field word 28 4 = operands.length) : Spells (word :: operands) .nop
  | reserve {word size : UInt32} {others : List UInt32} {region : RegionId} {unfilled : Bool}
    (opcode : field word 20 8 = 0x02) (announced : field word 28 4 = (size :: others).length)
    (named : region.toNat = field word 0 5) (declarable : region.toNat < 16)
    (flagged : unfilled = decide (field word 7 1 = 1)) :
    Spells (word :: size :: others) (.reserve region size unfilled)
  | focus {word : UInt32} {operands : List UInt32} {region : RegionId}
    (opcode : field word 20 8 = 0x50) (announced : field word 28 4 = operands.length)
    (named : region.toNat = field word 8 4) : Spells (word :: operands) (.focus region)
  | write {word value : UInt32} {others : List UInt32} {width : Width} {repeats : UInt8}
    (opcode : field word 20 8 = 0x42) (announced : field word 28 4 = (value :: others).length)
    (wide : width.code.toNat = field word 12 2) (counted : repeats.toNat = field word 0 8) :
    Spells (word :: value :: others) (.write value width repeats)
  | writeArray {word count : UInt32} {others values : List UInt32}
    (opcode : field word 20 8 = 0x43) (announced : field word 28 4 = (count :: others).length)
    (whole : values.length = count.toNat) :
    Spells (word :: count :: (others ++ values)) (.writeArray values)

/-- Words that are commands, the first of them at `position`, up to the end marker at `finish`,
and its operands. What follows is not looked at. -/
inductive Sentence : Nat → List UInt32 → List Located → Nat → Prop where
  | stop {position : Nat} {marker : UInt32} {rest : List UInt32}
    (opcode : field marker 20 8 = 0xFF) (announced : field marker 28 4 ≤ rest.length) :
    Sentence position (marker :: rest) [] position
  | more {position finish : Nat} {words rest : List UInt32} {command : Command}
    {commands : List Located} (spelled : Spells words command)
    (later : Sentence (position + words.length) rest commands finish) :
    Sentence position (words ++ rest) (⟨position, command⟩ :: commands) finish

/-! ## Decoding one command -/

theorem operandsOf_eq_field (word : UInt32) : (operandsOf word).toNat = field word 28 4 := by
  have bound := word.toNat_lt
  rw [toNat_operandsOf, field]
  omega

theorem Opcode.ofCode?_eq_some_iff {code : UInt8} {opcode : Opcode} :
    ofCode? code = some opcode ↔ code = opcode.code := by
  constructor
  · intro found
    have matching := List.find?_some found
    exact (of_decide_eq_true matching).symm
  · rintro rfl
    exact ofCode?_code opcode

theorem ofCode?_opcodeOf_iff (word : UInt32) (opcode : Opcode) :
    Opcode.ofCode? (opcodeOf word) = some opcode ↔ field word 20 8 = opcode.code.toNat := by
  rw [Opcode.ofCode?_eq_some_iff, ← UInt8.toNat_inj, toNat_opcodeOf]
  rfl

theorem Width.ofCode?_eq_some_iff {code : UInt32} {width : Width} :
    ofCode? code = some width ↔ code = width.code := by
  constructor
  · intro found
    unfold ofCode? at found
    split at found
    · cases found
      assumption
    · split at found
      · cases found
        assumption
      · split at found
        · cases found
          assumption
        · cases found
  · rintro rfl
    exact ofCode?_code width

theorem ofCode?_widthCodeOf_iff {word : UInt32} {width : Width} :
    Width.ofCode? (widthCodeOf word) = some width ↔ width.code.toNat = field word 12 2 := by
  rw [Width.ofCode?_eq_some_iff, ← UInt32.toNat_inj, toNat_widthCodeOf]
  exact eq_comm

theorem firstOperand_eq_ok_iff {position : Nat} {operands : List UInt32} {operand : UInt32} :
    firstOperand position operands = .ok operand ↔ ∃ others, operands = operand :: others := by
  cases operands with
  | nil => exact ⟨nofun, nofun⟩
  | cons first others =>
    constructor
    · rintro ⟨⟩
      exact ⟨others, rfl⟩
    · rintro ⟨_, same⟩
      cases same
      rfl

theorem reservedRegionOf_eq_iff {word : UInt32} {region : RegionId} :
    reservedRegionOf word = region ↔ region.toNat = field word 0 5 := by
  rw [← UInt8.toNat_inj, toNat_reservedRegionOf, field, Nat.pow_zero, Nat.div_one]
  exact eq_comm

theorem focusOf_eq_iff {word : UInt32} {region : RegionId} :
    focusOf word = region ↔ region.toNat = field word 8 4 := by
  rw [← UInt8.toNat_inj, toNat_focusOf]
  exact eq_comm

theorem repeatsOf_eq_iff {word : UInt32} {repeats : UInt8} :
    repeatsOf word = repeats ↔ repeats.toNat = field word 0 8 := by
  rw [← UInt8.toNat_inj, toNat_repeatsOf, field, Nat.pow_zero, Nat.div_one]
  exact eq_comm

theorem unfilledOf_eq_field (word : UInt32) :
    unfilledOf word = decide (field word 7 1 = 1) :=
  unfilledOf_eq word

/-- What a word begins has all of its operands. -/
theorem exists_operands_of_decodeItem {position : Nat} {word : UInt32} {rest : List UInt32}
    {item : Item} (ok : decodeItem position word rest = .ok item) :
    ∃ operands later, rest = operands ++ later ∧ field word 28 4 = operands.length := by
  unfold decodeItem at ok
  obtain ⟨present, -⟩ := not_of_guard_eq_ok ok
  rw [List.length_take] at present
  refine ⟨rest.take (operandsOf word).toNat, rest.drop (operandsOf word).toNat,
    (List.take_append_drop ..).symm, ?_⟩
  rw [List.length_take, ← operandsOf_eq_field]
  omega

section Decode

variable {position : Nat} {word : UInt32} {operands later : List UInt32}

/-- Decoding once the operands are there. -/
theorem decodeItem_append (announced : field word 28 4 = operands.length) :
    decodeItem position word (operands ++ later) =
      match Opcode.ofCode? (opcodeOf word) with
      | some .endSpec => .ok .finish
      | some .nop => .ok (.command .nop operands.length)
      | some .halt => .error (.breakpoint position)
      | some .reserve => do
        let size ← firstOperand position operands
        let region := reservedRegionOf word
        if region < RegionId.limit then
          return .command (.reserve region size (unfilledOf word)) operands.length
        else throw (.reserveBeyondTable region)
      | some .switchFocus => .ok (.command (.focus (focusOf word)) operands.length)
      | some .write =>
        match Width.ofCode? (widthCodeOf word) with
        | none => .error (.badLengthCode (widthCodeOf word))
        | some width => do
          let value ← firstOperand position operands
          return .command (.write value width (repeatsOf word)) operands.length
      | some .writeArray => do
        let count := (← firstOperand position operands).toNat
        if (later.take count).length < count then throw (.arrayTruncated position)
        return .command (.writeArray (later.take count)) (operands.length + count)
      | none => .error (.unknownOpcode (opcodeOf word) position) := by
  unfold decodeItem
  simp only [operandsOf_eq_field, announced, List.take_left, List.drop_left, Nat.lt_irrefl,
    if_false]
  rfl

/-- What is decoded as a command is spelled like one. -/
theorem spells_of_decodeItem (announced : field word 28 4 = operands.length) {command : Command}
    {extra : Nat} (ok : decodeItem position word (operands ++ later) = .ok (.command command extra)) :
    ∃ values rest, later = values ++ rest ∧ Spells (word :: (operands ++ values)) command ∧
      extra = (operands ++ values).length := by
  -- Only an array takes words from behind its operands.
  have alone : Spells (word :: operands) command → extra = operands.length →
      ∃ values rest, later = values ++ rest ∧ Spells (word :: (operands ++ values)) command ∧
        extra = (operands ++ values).length := by
    intro spelled length
    refine ⟨[], later, rfl, ?_, ?_⟩
    · rw [List.append_nil]
      exact spelled
    · rw [List.append_nil]
      exact length
  rw [decodeItem_append announced] at ok
  rcases known : Opcode.ofCode? (opcodeOf word) with _ | opcode
  · rw [known] at ok
    cases ok
  have code := (ofCode?_opcodeOf_iff ..).1 known
  rw [known] at ok
  cases opcode with
  | endSpec | halt => cases ok
  | nop =>
    cases ok
    exact alone (.nop code announced) rfl
  | reserve =>
    obtain ⟨size, first, ok⟩ := exists_of_bind_eq_ok ok
    obtain ⟨others, rfl⟩ := firstOperand_eq_ok_iff.1 first
    dsimp only at ok
    split at ok
    · rename_i declarable
      cases ok
      exact alone (.reserve code announced (reservedRegionOf_eq_iff.1 rfl)
        (toNat_lt_of_declarable declarable) (unfilledOf_eq_field word)) rfl
    · cases ok
  | switchFocus =>
    cases ok
    exact alone (.focus code announced (focusOf_eq_iff.1 rfl)) rfl
  | write =>
    dsimp only at ok
    split at ok
    · cases ok
    · rename_i width wide
      obtain ⟨value, first, ok⟩ := exists_of_bind_eq_ok ok
      obtain ⟨others, rfl⟩ := firstOperand_eq_ok_iff.1 first
      cases ok
      exact alone (.write code announced (ofCode?_widthCodeOf_iff.1 wide)
        (repeatsOf_eq_iff.1 rfl)) rfl
  | writeArray =>
    obtain ⟨count, first, ok⟩ := exists_of_bind_eq_ok ok
    obtain ⟨others, rfl⟩ := firstOperand_eq_ok_iff.1 first
    obtain ⟨present, ok⟩ := not_of_guard_eq_ok ok
    cases ok
    have whole : (later.take count.toNat).length = count.toNat := by
      rw [List.length_take] at present ⊢
      omega
    refine ⟨later.take count.toNat, later.drop count.toNat, (List.take_append_drop ..).symm, ?_, ?_⟩
    · exact .writeArray code announced whole
    · rw [List.length_append, whole]

/-- What is spelled like a command is decoded as it, whatever follows. -/
theorem decodeItem_of_spells {words : List UInt32} {command : Command}
    (spelled : Spells words command) (position : Nat) (rest : List UInt32) :
    ∃ word behind, words = word :: behind ∧
      decodeItem position word (behind ++ rest) = .ok (.command command behind.length) := by
  cases spelled with
  | nop code announced =>
    refine ⟨_, _, rfl, ?_⟩
    rw [decodeItem_append announced, (ofCode?_opcodeOf_iff _ .nop).2 code]
  | @reserve word size others region unfilled code announced named declarable flagged =>
    refine ⟨_, _, rfl, ?_⟩
    have limit : region < RegionId.limit := UInt8.lt_iff_toNat_lt.2 declarable
    rw [decodeItem_append announced, (ofCode?_opcodeOf_iff _ .reserve).2 code,
      reservedRegionOf_eq_iff.2 named, unfilledOf_eq_field, ← flagged]
    dsimp only [firstOperand]
    exact if_pos limit
  | @focus word operands region code announced named =>
    refine ⟨_, _, rfl, ?_⟩
    rw [decodeItem_append announced, (ofCode?_opcodeOf_iff _ .switchFocus).2 code,
      focusOf_eq_iff.2 named]
  | @write word value others width repeats code announced wide counted =>
    refine ⟨_, _, rfl, ?_⟩
    rw [decodeItem_append announced, (ofCode?_opcodeOf_iff _ .write).2 code,
      ofCode?_widthCodeOf_iff.2 wide, repeatsOf_eq_iff.2 counted]
    rfl
  | @writeArray word count others values code announced whole =>
    refine ⟨_, _, rfl, ?_⟩
    rw [← List.cons_append, List.append_assoc, decodeItem_append announced,
      (ofCode?_opcodeOf_iff _ .writeArray).2 code]
    dsimp only [firstOperand]
    have taken : (values ++ rest).take count.toNat = values := by rw [← whole, List.take_left]
    show (if ((values ++ rest).take count.toNat).length < count.toNat then _ else _) = _
    rw [taken, if_neg (by omega), List.length_append, whole]
    rfl

theorem decodeItem_eq_finish_iff {rest : List UInt32} :
    decodeItem position word rest = .ok .finish ↔
      field word 20 8 = 0xFF ∧ field word 28 4 ≤ rest.length := by
  constructor
  · intro ok
    obtain ⟨operands, later, rfl, announced⟩ := exists_operands_of_decodeItem ok
    refine ⟨?_, by rw [announced, List.length_append]; omega⟩
    rw [decodeItem_append announced] at ok
    rcases known : Opcode.ofCode? (opcodeOf word) with _ | opcode
    · rw [known] at ok
      cases ok
    have code := (ofCode?_opcodeOf_iff ..).1 known
    rw [known] at ok
    cases opcode with
    | endSpec => exact code
    | nop | halt | switchFocus => cases ok
    | reserve =>
      obtain ⟨size, -, ok⟩ := exists_of_bind_eq_ok ok
      dsimp only at ok
      split at ok
      · cases ok
      · cases ok
    | write =>
      dsimp only at ok
      split at ok
      · cases ok
      · obtain ⟨value, -, ok⟩ := exists_of_bind_eq_ok ok
        cases ok
    | writeArray =>
      obtain ⟨count, -, ok⟩ := exists_of_bind_eq_ok ok
      obtain ⟨-, ok⟩ := not_of_guard_eq_ok ok
      cases ok
  · rintro ⟨code, announced⟩
    have length : field word 28 4 = (rest.take (field word 28 4)).length := by
      rw [List.length_take]
      omega
    rw [← List.take_append_drop (field word 28 4) rest, decodeItem_append length,
      (ofCode?_opcodeOf_iff _ .endSpec).2 code]

end Decode

/-! ## Scanning -/

theorem sentence_of_scanUpTo {limit position finish : Nat} {words : List UInt32}
    {commands : List Located} (scanned : scanUpTo limit position words = (commands, .finished finish)) :
    Sentence position words commands finish := by
  induction limit generalizing position words commands with
  | zero => cases scanned
  | succ limit ih =>
    cases words with
    | nil => cases scanned
    | cons word rest =>
      rw [scanUpTo] at scanned
      rcases decoded : decodeItem position word rest with fault | item
      · rw [decoded] at scanned
        cases scanned
      rw [decoded] at scanned
      cases item with
      | finish =>
        cases scanned
        obtain ⟨code, announced⟩ := decodeItem_eq_finish_iff.1 decoded
        exact .stop code announced
      | command command extra =>
        obtain ⟨operands, later, rfl, announced⟩ := exists_operands_of_decodeItem decoded
        obtain ⟨values, rest, rfl, spelled, rfl⟩ := spells_of_decodeItem announced decoded
        dsimp only at scanned
        rw [← List.append_assoc, List.drop_left] at scanned
        obtain ⟨listed, ending⟩ := Prod.mk.inj scanned
        have behind := ih (Prod.ext rfl ending)
        rw [← listed, ← List.append_assoc]
        refine Sentence.more spelled ?_
        rw [List.length_cons, ← Nat.add_assoc, Nat.add_right_comm]
        exact behind

theorem scanUpTo_of_sentence {position finish : Nat} {words : List UInt32}
    {commands : List Located} (sentence : Sentence position words commands finish) {limit : Nat}
    (enough : words.length ≤ limit) :
    scanUpTo limit position words = (commands, .finished finish) := by
  induction sentence generalizing limit with
  | stop code announced =>
    obtain _ | limit := limit
    · exact absurd enough (Nat.not_succ_le_zero _)
    rw [scanUpTo, decodeItem_eq_finish_iff.2 ⟨code, announced⟩]
  | @more position finish words rest command commands spelled later ih =>
    obtain ⟨word, behind, rfl, decoded⟩ := decodeItem_of_spells spelled position rest
    obtain _ | limit := limit
    · exact absurd enough (Nat.not_succ_le_zero _)
    rw [List.cons_append, List.length_cons, List.length_append] at enough
    rw [List.cons_append, scanUpTo, decoded]
    dsimp only
    rw [List.drop_left, Nat.add_right_comm]
    rw [List.length_cons, ← Nat.add_assoc] at ih
    rw [ih (by omega)]

/-- **Scanning accepts the language and no other.** -/
theorem scan_eq_finished_iff {position finish : Nat} {words : List UInt32}
    {commands : List Located} :
    scan position words = (commands, .finished finish) ↔ Sentence position words commands finish :=
  ⟨sentence_of_scanUpTo, fun sentence => scanUpTo_of_sentence sentence (Nat.le_refl _)⟩

/-- Nothing but the number of words matters behind an end marker. -/
theorem Sentence.exists_marker {position finish : Nat} {words : List UInt32}
    {commands : List Located} (sentence : Sentence position words commands finish) :
    ∃ before marker rest, words = before ++ marker :: rest ∧ finish = position + before.length ∧
      ∀ others, field marker 28 4 ≤ others.length →
        Sentence position (before ++ marker :: others) commands finish := by
  induction sentence with
  | @stop position marker rest code announced =>
    exact ⟨[], marker, rest, rfl, rfl, fun others enough => .stop code enough⟩
  | @more position finish words rest command commands spelled later ih =>
    obtain ⟨before, marker, behind, rfl, place, free⟩ := ih
    refine ⟨words ++ before, marker, behind, (List.append_assoc ..).symm, ?_, ?_⟩
    · rw [place, List.length_append, Nat.add_assoc]
    · intro others enough
      rw [List.append_assoc]
      exact .more spelled (free others enough)

end MeshControl.Spec
