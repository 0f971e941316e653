/-!
# Bytes and little-endian words

Everything on the wire and in machine memory is a list of bytes; numbers are stored with the
least significant byte first. `Bytes.words_ofWords` is the law of the module: words written
in this order read back.
-/

namespace MeshControl

/-- A run of bytes, in address order. -/
abbrev Bytes := List UInt8

namespace Bytes

/-- The two bytes of a half word. -/
def ofHalf (half : UInt16) : Bytes :=
  [UInt8.ofNat half.toNat, UInt8.ofNat (half.toNat / 256)]

/-- The four bytes of a word. -/
def ofWord (word : UInt32) : Bytes :=
  [UInt8.ofNat word.toNat, UInt8.ofNat (word.toNat / 256), UInt8.ofNat (word.toNat / 65536),
    UInt8.ofNat (word.toNat / 16777216)]

/-- The half word stored in two bytes. -/
def half (b₀ b₁ : UInt8) : UInt16 := UInt16.ofNat (b₀.toNat + 256 * b₁.toNat)

/-- The word stored in four bytes. -/
def word (b₀ b₁ b₂ b₃ : UInt8) : UInt32 :=
  UInt32.ofNat (b₀.toNat + 256 * b₁.toNat + 65536 * b₂.toNat + 16777216 * b₃.toNat)

/-- The bytes of consecutive words. -/
def ofWords (words : List UInt32) : Bytes := words.flatMap ofWord

/-- The words read so far, latest first, ahead of those stored in `data`. -/
def wordsOnto (read : List UInt32) (data : Bytes) : List UInt32 :=
  match data with
  | b₀ :: b₁ :: b₂ :: b₃ :: rest => wordsOnto (word b₀ b₁ b₂ b₃ :: read) rest
  | _ => read.reverse

/-- The whole words stored in `data`; up to three bytes left at its end are not part of any. -/
def words (data : Bytes) : List UInt32 := wordsOnto [] data

@[simp] theorem length_ofHalf (half : UInt16) : (ofHalf half).length = 2 := rfl

@[simp] theorem length_ofWord (word : UInt32) : (ofWord word).length = 4 := rfl

theorem half_ofHalf (h : UInt16) :
    half (UInt8.ofNat h.toNat) (UInt8.ofNat (h.toNat / 256)) = h := by
  apply UInt16.toNat_inj.1
  have := h.toNat_lt
  simp only [half, UInt16.toNat_ofNat', UInt8.toNat_ofNat']
  omega

theorem word_ofWord (w : UInt32) :
    word (UInt8.ofNat w.toNat) (UInt8.ofNat (w.toNat / 256)) (UInt8.ofNat (w.toNat / 65536))
      (UInt8.ofNat (w.toNat / 16777216)) = w := by
  apply UInt32.toNat_inj.1
  have := w.toNat_lt
  simp only [word, UInt32.toNat_ofNat', UInt8.toNat_ofNat']
  omega

theorem wordsOnto_eq (read : List UInt32) :
    ∀ data : Bytes, wordsOnto read data = read.reverse ++ words data
  | b₀ :: b₁ :: b₂ :: b₃ :: rest => by
    rw [words, wordsOnto, wordsOnto, wordsOnto_eq (_ :: read) rest, wordsOnto_eq [_] rest]
    simp
  | [] | [_] | [_, _] | [_, _, _] => by simp [wordsOnto, words]

/-- The first four bytes are the first word. -/
theorem words_cons (b₀ b₁ b₂ b₃ : UInt8) (rest : Bytes) :
    words (b₀ :: b₁ :: b₂ :: b₃ :: rest) = word b₀ b₁ b₂ b₃ :: words rest := by
  rw [words, wordsOnto, wordsOnto_eq]
  rfl

/-- Words that are stored read back. -/
theorem words_ofWords (ws : List UInt32) : words (ofWords ws) = ws := by
  induction ws with
  | nil => rfl
  | cons w ws ih =>
    rw [ofWords, List.flatMap_cons, ofWord]
    simp only [List.cons_append, List.nil_append]
    rw [words_cons, word_ofWord]
    exact congrArg _ ih

@[simp] theorem length_ofWords (ws : List UInt32) : (ofWords ws).length = 4 * ws.length := by
  induction ws with
  | nil => rfl
  | cons w ws ih =>
    rw [ofWords, List.flatMap_cons, List.length_append, length_ofWord, List.length_cons]
    rw [ofWords] at ih
    omega

end Bytes

end MeshControl
