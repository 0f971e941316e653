import MeshControl.Ordered.Map

/-!
# Finite sets in ascending order

`OrderedSet κ` keeps its elements in the order of `SortKey`, each once. Sets with the same
members are equal (`OrderedSet.ext_contains`).
-/

namespace MeshControl

/-- A finite set listed in ascending order. -/
structure OrderedSet (κ : Type) [SortKey κ] where
  members : OrderedMap κ Unit

namespace OrderedSet

variable {κ : Type} [SortKey κ]

instance [DecidableEq κ] : DecidableEq (OrderedSet κ) := fun a b =>
  if h : a.members = b.members then .isTrue (by cases a; cases b; cases h; rfl)
  else .isFalse fun e => h (e ▸ rfl)

/-- The set with no elements. -/
def empty : OrderedSet κ := ⟨.empty⟩

instance : Inhabited (OrderedSet κ) := ⟨empty⟩

instance : EmptyCollection (OrderedSet κ) := ⟨empty⟩

/-- Add an element. -/
def insert (set : OrderedSet κ) (element : κ) : OrderedSet κ := ⟨set.members.insert element ()⟩

/-- Remove an element. -/
def erase [DecidableEq κ] (set : OrderedSet κ) (element : κ) : OrderedSet κ :=
  ⟨set.members.erase element⟩

/-- True if `element` is in the set. -/
def contains [DecidableEq κ] (set : OrderedSet κ) (element : κ) : Bool :=
  set.members.contains element

/-- Elements in ascending order. -/
def toList (set : OrderedSet κ) : List κ := set.members.keys

/-- Number of elements. -/
def size (set : OrderedSet κ) : Nat := set.members.size

/-- True if there is no element. -/
def isEmpty (set : OrderedSet κ) : Bool := set.members.isEmpty

/-- Add every element of a list. -/
def insertAll (set : OrderedSet κ) (elements : List κ) : OrderedSet κ :=
  elements.foldl insert set

/-- Remove every element of a list. -/
def eraseAll [DecidableEq κ] (set : OrderedSet κ) (elements : List κ) : OrderedSet κ :=
  elements.foldl erase set

/-- The set of the elements of a list. -/
def ofList (elements : List κ) : OrderedSet κ := empty.insertAll elements

variable [DecidableEq κ]

@[simp] theorem contains_empty (element : κ) : (empty : OrderedSet κ).contains element = false :=
  rfl

theorem contains_insert (set : OrderedSet κ) (element probe : κ) :
    (set.insert element).contains probe = (decide (element = probe) || set.contains probe) := by
  by_cases h : element = probe <;>
    simp [contains, insert, OrderedMap.contains, OrderedMap.get?_insert, h]

theorem contains_erase (set : OrderedSet κ) (element probe : κ) :
    (set.erase element).contains probe = (decide (element ≠ probe) && set.contains probe) := by
  by_cases h : element = probe <;>
    simp [contains, erase, OrderedMap.contains, OrderedMap.get?_erase, h]

theorem contains_insertAll (set : OrderedSet κ) (elements : List κ) (probe : κ) :
    (set.insertAll elements).contains probe = (decide (probe ∈ elements) || set.contains probe) := by
  induction elements generalizing set with
  | nil => simp [insertAll]
  | cons e es ih =>
    have step : set.insertAll (e :: es) = (set.insert e).insertAll es := rfl
    rw [step, ih, contains_insert]
    by_cases he : e = probe
    · simp [he]
    · have : ¬ probe = e := fun k => he k.symm
      simp [he, this]

theorem contains_eraseAll (set : OrderedSet κ) (elements : List κ) (probe : κ) :
    (set.eraseAll elements).contains probe = (decide (probe ∉ elements) && set.contains probe) := by
  induction elements generalizing set with
  | nil => simp [eraseAll]
  | cons element rest ih =>
    have step : set.eraseAll (element :: rest) = (set.erase element).eraseAll rest := rfl
    rw [step, ih, contains_erase]
    by_cases same : probe = element
    · simp [same]
    · simp [same, Ne.symm same]

theorem mem_toList_iff (set : OrderedSet κ) (element : κ) :
    element ∈ set.toList ↔ set.contains element = true := by
  constructor
  · intro h
    obtain ⟨⟨key, value⟩, hmem, rfl⟩ := List.mem_map.1 h
    simp [contains, OrderedMap.contains, (set.members.mem_entries_iff _ _).1 hmem]
  · intro h
    obtain ⟨value, hv⟩ := Option.isSome_iff_exists.1 h
    exact List.mem_map.2 ⟨(element, value), (set.members.mem_entries_iff _ _).2 hv, rfl⟩

/-- Nothing is left once every element is removed. -/
theorem contains_eraseAll_toList (set : OrderedSet κ) (probe : κ) :
    (set.eraseAll set.toList).contains probe = false := by
  rw [contains_eraseAll]
  by_cases listed : probe ∈ set.toList
  · simp [listed]
  · have absent := mt (set.mem_toList_iff probe).2 listed
    simp [Bool.eq_false_iff.2 absent]

/-- Sets with the same members are the same. -/
theorem ext_contains {a b : OrderedSet κ} (h : ∀ element, a.contains element = b.contains element) :
    a = b := by
  have e : a.members = b.members := OrderedMap.ext_get? fun key => by
    have := h key
    simp only [contains, OrderedMap.contains] at this
    cases ha : a.members.get? key <;> cases hb : b.members.get? key <;> simp_all
  cases a; cases b; cases e; rfl

end OrderedSet

end MeshControl
