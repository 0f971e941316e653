/-!
# Keys that a sorted collection can be kept in

Regions, ticks, cores and labels are all listed in ascending order of a key. `SortKey` says
what such a key needs: a test that is a strict total order. An injective measure into a type
that already has one gives another (`SortKey.ofMeasure`).
-/

namespace MeshControl

/-- A type with a strict total order that can be tested. -/
class SortKey (κ : Type) where
  /-- True if the first key is listed ahead of the second. -/
  before : κ → κ → Bool
  irrefl : ∀ a, ¬ before a a
  trans : ∀ {a b c}, before a b → before b c → before a c
  total : ∀ {a b}, ¬ before a b → ¬ before b a → a = b

namespace SortKey

theorem ne {κ : Type} [SortKey κ] {a b : κ} (h : before a b) : a ≠ b :=
  fun e => irrefl b (e ▸ h)

/-- Order a type by an injective measure of its values. -/
@[reducible] def ofMeasure {κ μ : Type} [SortKey μ] (measure : κ → μ)
    (inj : ∀ {a b}, measure a = measure b → a = b) : SortKey κ where
  before a b := before (measure a) (measure b)
  irrefl _ := irrefl _
  trans h h' := trans h h'
  total h h' := inj (total h h')

instance : SortKey Nat where
  before a b := decide (a < b)
  irrefl a h := Nat.lt_irrefl a (of_decide_eq_true h)
  trans h h' := decide_eq_true (Nat.lt_trans (of_decide_eq_true h) (of_decide_eq_true h'))
  total h h' := by
    simp only [decide_eq_true_eq] at h h'
    omega

instance : SortKey UInt8 := ofMeasure UInt8.toNat UInt8.toNat_inj.1

instance : SortKey UInt16 := ofMeasure UInt16.toNat UInt16.toNat_inj.1

instance : SortKey UInt32 := ofMeasure UInt32.toNat UInt32.toNat_inj.1

instance : SortKey Char := ofMeasure (fun c => c.val) Char.ext

/-- True if the first pair is ahead by its first part, or by its second where that is equal. -/
def pairBefore {κ μ : Type} [SortKey κ] [SortKey μ] [DecidableEq κ] (a b : κ × μ) : Bool :=
  before a.1 b.1 || (decide (a.1 = b.1) && before a.2 b.2)

instance {κ μ : Type} [SortKey κ] [SortKey μ] [DecidableEq κ] : SortKey (κ × μ) where
  before := pairBefore
  irrefl a h := by
    simp only [pairBefore, Bool.or_eq_true, Bool.and_eq_true, decide_eq_true_eq] at h
    exact h.elim (irrefl a.1) fun h => irrefl a.2 h.2
  trans {a b c} h h' := by
    simp only [pairBefore, Bool.or_eq_true, Bool.and_eq_true, decide_eq_true_eq] at h h' ⊢
    rcases h with h | ⟨e, h⟩ <;> rcases h' with h' | ⟨e', h'⟩
    · exact .inl (trans h h')
    · exact .inl (e' ▸ h)
    · exact .inl (e ▸ h')
    · exact .inr ⟨e.trans e', trans h h'⟩
  total {a b} h h' := by
    simp only [pairBefore, Bool.or_eq_true, Bool.and_eq_true, decide_eq_true_eq] at h h'
    have e : a.1 = b.1 := total (fun k => h (.inl k)) (fun k => h' (.inl k))
    exact Prod.ext e (total (fun k => h (.inr ⟨e, k⟩)) (fun k => h' (.inr ⟨e.symm, k⟩)))

/-- True if the first list is ahead at the first difference, or ends where the second goes on. -/
def listBefore {κ : Type} [SortKey κ] [DecidableEq κ] : List κ → List κ → Bool
  | [], [] => false
  | [], _ :: _ => true
  | _ :: _, [] => false
  | a :: as, b :: bs => before a b || (decide (a = b) && listBefore as bs)

theorem listBefore_irrefl {κ : Type} [SortKey κ] [DecidableEq κ] :
    ∀ as : List κ, ¬ listBefore as as
  | [] => by simp [listBefore]
  | a :: as => by
    have := irrefl a
    have := listBefore_irrefl as
    simp_all [listBefore]

theorem listBefore_trans {κ : Type} [SortKey κ] [DecidableEq κ] :
    ∀ {as bs cs : List κ}, listBefore as bs → listBefore bs cs → listBefore as cs
  | _, [], [], _, h => by simp [listBefore] at h
  | [], _ :: _, [], _, h => by simp [listBefore] at h
  | [], _, _ :: _, _, _ => rfl
  | _ :: _, [], _ :: _, h, _ => by simp [listBefore] at h
  | _ :: _, _ :: _, [], _, h => by simp [listBefore] at h
  | a :: as, b :: bs, c :: cs, h, h' => by
    simp only [listBefore, Bool.or_eq_true, Bool.and_eq_true, decide_eq_true_eq] at h h' ⊢
    rcases h with h | ⟨rfl, h⟩ <;> rcases h' with h' | ⟨rfl, h'⟩
    · exact .inl (trans h h')
    · exact .inl h
    · exact .inl h'
    · exact .inr ⟨rfl, listBefore_trans h h'⟩

theorem listBefore_total {κ : Type} [SortKey κ] [DecidableEq κ] :
    ∀ {as bs : List κ}, ¬ listBefore as bs → ¬ listBefore bs as → as = bs
  | [], [], _, _ => rfl
  | [], _ :: _, h, _ => (h rfl).elim
  | _ :: _, [], _, h => (h rfl).elim
  | a :: as, b :: bs, h, h' => by
    simp only [listBefore, Bool.or_eq_true, Bool.and_eq_true, decide_eq_true_eq] at h h'
    have e := total (fun k => h (.inl k)) (fun k => h' (.inl k))
    subst e
    rw [listBefore_total (fun k => h (.inr ⟨rfl, k⟩)) (fun k => h' (.inr ⟨rfl, k⟩))]

instance {κ : Type} [SortKey κ] [DecidableEq κ] : SortKey (List κ) where
  before := listBefore
  irrefl := listBefore_irrefl
  trans := listBefore_trans
  total := listBefore_total

/-- Texts are ordered by their characters, which is also the order of their encoded bytes. -/
instance : SortKey String := ofMeasure String.toList String.toList_inj.1

/-- A list in the order of a key of its elements; elements with the same key keep their order. -/
def sort {α κ : Type} [SortKey κ] (key : α → κ) (list : List α) : List α :=
  list.mergeSort fun a b => !before (key b) (key a)

end SortKey

end MeshControl
