import MeshControl.Bytes

/-!
# Words within bytes

Where the words of a run of bytes lie.
-/

namespace MeshControl.Bytes

/-- Words take no more bytes than there are. -/
theorem length_words_le : ∀ data : Bytes, 4 * (words data).length ≤ data.length
  | b₀ :: b₁ :: b₂ :: b₃ :: rest => by
    have later := length_words_le rest
    rw [words_cons]
    simp only [List.length_cons]
    omega
  | [] | [_] | [_, _] | [_, _, _] => by simp [words, wordsOnto]

theorem ofHalf_half (b₀ b₁ : UInt8) : ofHalf (half b₀ b₁) = [b₀, b₁] := by
  have low := b₀.toNat_lt
  have high := b₁.toNat_lt
  rw [ofHalf, half, UInt16.toNat_ofNat']
  congr 1
  · apply UInt8.toNat_inj.1
    rw [UInt8.toNat_ofNat']
    omega
  · congr 1
    apply UInt8.toNat_inj.1
    rw [UInt8.toNat_ofNat']
    omega

theorem ofWord_word (b₀ b₁ b₂ b₃ : UInt8) : ofWord (word b₀ b₁ b₂ b₃) = [b₀, b₁, b₂, b₃] := by
  have h₀ := b₀.toNat_lt
  have h₁ := b₁.toNat_lt
  have h₂ := b₂.toNat_lt
  have h₃ := b₃.toNat_lt
  rw [ofWord, word, UInt32.toNat_ofNat_of_lt' (by rw [show UInt32.size = 4294967296 from rfl]; omega)]
  simp only [List.cons.injEq, and_true, ← UInt8.toNat_inj, UInt8.toNat_ofNat']
  omega

/-- Whole words that are read are stored as they were. -/
theorem ofWords_words : ∀ data : Bytes, 4 ∣ data.length → ofWords (words data) = data
  | [], _ => rfl
  | [_], whole | [_, _], whole | [_, _, _], whole => by
    simp only [List.length_cons, List.length_nil] at whole
    omega
  | b₀ :: b₁ :: b₂ :: b₃ :: rest, whole => by
    have later := ofWords_words rest (by
      simp only [List.length_cons] at whole
      omega)
    rw [words_cons, ofWords, List.flatMap_cons, ofWord_word]
    exact congrArg ([b₀, b₁, b₂, b₃] ++ ·) later

theorem ofWords_singleton (word : UInt32) : ofWords [word] = ofWord word :=
  List.flatMap_singleton ofWord word

/-- A word is where the words before it end. -/
theorem take_drop_ofWords (before : List UInt32) (word : UInt32) (after : List UInt32) :
    ((ofWords (before ++ word :: after)).drop (4 * before.length)).take 4 = ofWord word := by
  have split : ofWords (before ++ word :: after) =
      ofWords before ++ (ofWord word ++ ofWords after) := by
    rw [ofWords, List.flatMap_append, List.flatMap_cons]
    rfl
  rw [split, ← length_ofWords before, List.drop_left, ← length_ofWord word, List.take_left]

end MeshControl.Bytes
