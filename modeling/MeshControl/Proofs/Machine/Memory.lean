import MeshControl.Machine.Memory

/-!
# Paged memory as bytes at addresses

Paging is an implementation of a flat memory: a write sets the bytes it is given and no others
(`byteAt_write`), and a read returns the bytes that are there (`read_eq_map`). `Holds` and
`SameOutside` are the two facts about memory that the rest of the development needs: what is
stored at a place, and what a change left alone.
-/

namespace MeshControl.Machine

theorem Page.getElem_store (page : Page) (offset : Nat) (data : Bytes) {place : Nat}
    (inside : place < pageSize) :
    (page.store offset data)[place] =
      if offset ≤ place ∧ place < offset + data.length then data.getD (place - offset) 0
      else page[place] := by
  induction data generalizing page offset with
  | nil =>
    rw [store, if_neg]
    rw [List.length_nil]
    omega
  | cons byte rest ih =>
    rw [store, ih, List.length_cons]
    by_cases here : place = offset
    · subst here
      rw [if_neg (by omega), if_pos (by omega), Nat.sub_self, List.getD_cons_zero]
      simp
    · by_cases later : offset + 1 ≤ place ∧ place < offset + 1 + rest.length
      · obtain ⟨index, rfl⟩ : ∃ index, place = offset + 1 + index := ⟨place - (offset + 1), by omega⟩
        rw [if_pos later, if_pos (by omega), show offset + 1 + index - offset = index + 1 by omega,
          show offset + 1 + index - (offset + 1) = index by omega, List.getD_cons_succ]
      · rw [if_neg later, if_neg (by omega), Vector.getElem_setIfInBounds, if_neg (Ne.symm here)]

namespace Memory

theorem byteAt_eq (memory : Memory) (chip : Chip) (address : Nat)
    (inside : address % pageSize < pageSize) :
    memory.byteAt chip address = (memory.page chip (address / pageSize))[address % pageSize] :=
  rfl

@[simp] theorem byteAt_blank (chip : Chip) (address : Nat) : Memory.blank.byteAt chip address = 0 :=
  Vector.getElem_replicate _

theorem page_insert (memory : Memory) (chip other : Chip) (number count : Nat) (page : Page) :
    (Memory.mk (memory.pages.insert (chip, number) page)).page other count =
      if other = chip ∧ count = number then page else memory.page other count := by
  rw [Memory.page, OrderedMap.get?_insert]
  by_cases same : other = chip ∧ count = number
  · obtain ⟨rfl, rfl⟩ := same
    rw [if_pos rfl, if_pos ⟨rfl, rfl⟩, Option.getD_some]
  · rw [if_neg same, if_neg fun e => same ⟨(Prod.mk.inj e).1.symm, (Prod.mk.inj e).2.symm⟩]
    rfl

/-- One page's worth of a write. -/
theorem byteAt_store (memory : Memory) (chip other : Chip) (address place : Nat) (data : Bytes)
    (fits : address % pageSize + data.length ≤ pageSize) :
    (Memory.mk (memory.pages.insert (chip, address / pageSize)
        ((memory.page chip (address / pageSize)).store (address % pageSize) data))).byteAt
        other place =
      if other = chip ∧ address ≤ place ∧ place < address + data.length then
        data.getD (place - address) 0
      else memory.byteAt other place := by
  have inside : place % pageSize < pageSize := Nat.mod_lt _ (by decide)
  have split := Nat.div_add_mod address pageSize
  have splitPlace := Nat.div_add_mod place pageSize
  rw [byteAt_eq _ _ _ inside, byteAt_eq _ _ _ inside, page_insert]
  by_cases same : other = chip ∧ place / pageSize = address / pageSize
  · obtain ⟨rfl, number⟩ := same
    rw [number] at splitPlace
    have offset : place - address = place % pageSize - address % pageSize := by omega
    simp only [number, and_self, if_true, true_and]
    rw [Page.getElem_store _ _ _ inside, offset]
    by_cases written : address ≤ place ∧ place < address + data.length
    · rw [if_pos written, if_pos (by omega)]
    · rw [if_neg written, if_neg (by omega)]
  · have elsewhere : ¬ (other = chip ∧ address ≤ place ∧ place < address + data.length) := by
      rintro ⟨rfl, low, high⟩
      apply same
      refine ⟨rfl, ?_⟩
      apply Nat.div_eq_of_lt_le
      · rw [Nat.mul_comm]
        omega
      · rw [Nat.mul_comm, Nat.mul_succ]
        omega
    simp only [same, elsewhere, if_false]

/-- **A write sets its bytes and no others.** -/
theorem byteAt_write (memory : Memory) (chip other : Chip) (address place : Nat) (data : Bytes) :
    (memory.write chip address data).byteAt other place =
      if other = chip ∧ address ≤ place ∧ place < address + data.length then
        data.getD (place - address) 0
      else memory.byteAt other place := by
  fun_induction Memory.write memory chip address data with
  | case1 memory address =>
    rw [if_neg]
    rw [List.length_nil]
    omega
  | case2 memory address byte rest number offset room page ih =>
    have offsetLt : offset < pageSize := Nat.mod_lt _ (by decide)
    have first := byteAt_store memory chip other address place ((byte :: rest).take room) (by
      rw [List.length_take]
      omega)
    rw [ih, first, List.length_drop, List.length_take]
    by_cases same : other = chip
    · simp only [same, true_and]
      by_cases later : address + room ≤ place ∧ place < address + (byte :: rest).length
      · rw [if_pos (by omega), if_pos (by omega), List.getD_eq_getElem?_getD,
          List.getD_eq_getElem?_getD, List.getElem?_drop,
          show room + (place - (address + room)) = place - address by omega]
      · by_cases here : address ≤ place ∧ place < address + (byte :: rest).length
        · rw [if_neg (by omega), if_pos (by omega), if_pos (by omega),
            List.getD_eq_getElem?_getD, List.getD_eq_getElem?_getD,
            List.getElem?_take_of_lt (by omega)]
        · rw [if_neg (by omega), if_neg (by omega), if_neg (by omega)]
    · simp only [same, false_and, if_false]

theorem slice_eq_map (memory : Memory) (chip : Chip) (address count : Nat)
    (fits : address % pageSize + count ≤ pageSize) :
    (memory.page chip (address / pageSize)).slice (address % pageSize) count =
      (List.range count).map fun i => memory.byteAt chip (address + i) := by
  apply List.ext_getElem
  · rw [Page.slice, List.length_take, List.length_drop, Vector.length_toList, List.length_map,
      List.length_range]
    omega
  intro i inSlice inRange
  rw [List.length_map, List.length_range] at inRange
  have split := Nat.div_add_mod address pageSize
  have sameOffset : (address + i) % pageSize = address % pageSize + i := by
    rw [show address + i = pageSize * (address / pageSize) + (address % pageSize + i) by omega,
      Nat.mul_add_mod, Nat.mod_eq_of_lt (by omega)]
  have sameNumber : (address + i) / pageSize = address / pageSize := by
    have total := Nat.div_add_mod (address + i) pageSize
    apply Nat.div_eq_of_lt_le
    · rw [Nat.mul_comm]
      omega
    · rw [Nat.mul_comm, Nat.mul_succ]
      omega
  simp only [Page.slice, List.getElem_take, List.getElem_drop, Vector.getElem_toList,
    List.getElem_map, List.getElem_range]
  rw [byteAt_eq _ _ _ (by omega)]
  simp only [sameOffset, sameNumber]

/-- **A read returns the bytes that are there.** -/
theorem read_eq_map (memory : Memory) (chip : Chip) (address length : Nat) :
    memory.read chip address length =
      (List.range length).map fun i => memory.byteAt chip (address + i) := by
  fun_induction Memory.read memory chip address length with
  | case1 => rfl
  | case2 address length some offset room count ih =>
    have offsetLt : offset < pageSize := Nat.mod_lt _ (by decide)
    have first := slice_eq_map memory chip address count (by omega)
    rw [ih, first]
    obtain ⟨rest, whole⟩ : ∃ rest, length = count + rest := ⟨length - count, by omega⟩
    rw [whole, Nat.add_sub_cancel_left, List.range_add, List.map_append, List.map_map]
    congr 2
    funext i
    exact congrArg (memory.byteAt chip) (Nat.add_assoc address count i)

@[simp] theorem length_read (memory : Memory) (chip : Chip) (address length : Nat) :
    (memory.read chip address length).length = length := by
  rw [read_eq_map, List.length_map, List.length_range]

/-- A read is made of two adjacent ones. -/
theorem read_add (memory : Memory) (chip : Chip) (address first second : Nat) :
    memory.read chip address (first + second) =
      memory.read chip address first ++ memory.read chip (address + first) second := by
  rw [read_eq_map, read_eq_map, read_eq_map, List.range_add, List.map_append, List.map_map]
  congr 2
  funext i
  exact congrArg (memory.byteAt chip) (Nat.add_assoc address first i).symm

/-! ## What is stored, and what a change leaves alone -/

/-- The bytes from `address` on are `data`. -/
def Holds (memory : Memory) (chip : Chip) (address : Nat) (data : Bytes) : Prop :=
  memory.read chip address data.length = data

/-- Two memories differ at most from `start` up to `finish` on one chip. -/
def SameOutside (chip : Chip) (start finish : Nat) (before after : Memory) : Prop :=
  ∀ other place, (other = chip → place < start ∨ finish ≤ place) →
    after.byteAt other place = before.byteAt other place

theorem SameOutside.refl (chip : Chip) (start finish : Nat) (memory : Memory) :
    SameOutside chip start finish memory memory :=
  fun _ _ _ => rfl

theorem SameOutside.trans {chip : Chip} {start finish : Nat} {first second third : Memory}
    (early : SameOutside chip start finish first second)
    (late : SameOutside chip start finish second third) :
    SameOutside chip start finish first third :=
  fun other place outside => (late other place outside).trans (early other place outside)

theorem SameOutside.mono {chip : Chip} {start finish low high : Nat} {before after : Memory}
    (same : SameOutside chip start finish before after) (lower : low ≤ start)
    (higher : finish ≤ high) : SameOutside chip low high before after := by
  intro other place outside
  apply same other place
  intro here
  have := outside here
  omega

/-- Memories with the same bytes read the same. -/
theorem read_congr {chip : Chip} {before after : Memory} {address length : Nat}
    (same : ∀ place, address ≤ place → place < address + length →
      after.byteAt chip place = before.byteAt chip place) :
    after.read chip address length = before.read chip address length := by
  rw [read_eq_map, read_eq_map]
  apply List.map_congr_left
  intro i inside
  rw [List.mem_range] at inside
  exact same _ (by omega) (by omega)

/-- Bytes that a change leaves alone read the same after it. -/
theorem SameOutside.read {chip : Chip} {start finish : Nat} {before after : Memory}
    (same : SameOutside chip start finish before after) {address length : Nat}
    (apart : address + length ≤ start ∨ finish ≤ address) :
    after.read chip address length = before.read chip address length := by
  apply read_congr
  intro place low high
  apply same chip
  intro _
  omega

theorem SameOutside.holds {chip : Chip} {start finish : Nat} {before after : Memory}
    (same : SameOutside chip start finish before after) {address : Nat} {data : Bytes}
    (apart : address + data.length ≤ start ∨ finish ≤ address)
    (held : before.Holds chip address data) : after.Holds chip address data :=
  (same.read apart).trans held

/-- Bytes that were stored at the start of a range, ahead of what was there. -/
theorem Holds.read_eq_append {chip : Chip} {before after : Memory} {address size : Nat}
    {data : Bytes} (held : after.Holds chip address data) (fits : data.length ≤ size)
    (same : ∀ place, address + data.length ≤ place → place < address + size →
      after.byteAt chip place = before.byteAt chip place) :
    after.read chip address size = data ++ (before.read chip address size).drop data.length := by
  obtain ⟨rest, rfl⟩ := Nat.exists_eq_add_of_le fits
  have later : after.read chip (address + data.length) rest =
      before.read chip (address + data.length) rest :=
    read_congr fun place low high => same place low (by omega)
  have dropped : (before.read chip address data.length ++
      before.read chip (address + data.length) rest).drop data.length =
        before.read chip (address + data.length) rest :=
    List.drop_left' (before.length_read ..)
  rw [read_add, read_add, dropped, later]
  exact congrArg (· ++ _) held

theorem sameOutside_write (memory : Memory) (chip : Chip) (address : Nat) (data : Bytes) :
    SameOutside chip address (address + data.length) memory (memory.write chip address data) := by
  intro other place outside
  rw [byteAt_write, if_neg]
  rintro ⟨same, low, high⟩
  have := outside same
  omega

/-- What is written is there. -/
theorem holds_write (memory : Memory) (chip : Chip) (address : Nat) (data : Bytes) :
    (memory.write chip address data).Holds chip address data := by
  rw [Holds, read_eq_map]
  apply List.ext_getElem
  · rw [List.length_map, List.length_range]
  intro i inRange inData
  rw [List.getElem_map, List.getElem_range, byteAt_write, if_pos ⟨rfl, by omega, by omega⟩,
    Nat.add_sub_cancel_left, List.getD_eq_getElem?_getD, List.getElem?_eq_getElem inData,
    Option.getD_some]

end Memory

end MeshControl.Machine
