import MeshControl.Bytes
import MeshControl.Core
import MeshControl.Ordered.Map

/-!
# Paged memory of chips

The memory of a chip is kept in pages that come into being when they are first written. A
byte of a page that does not exist is zero. Reads and writes of any length are split where
they cross from one page to the next.
-/

namespace MeshControl.Machine

/-- Bytes of a page. -/
def pageSize : Nat := 4096

/-- The bytes of a page. -/
abbrev Page := Vector UInt8 pageSize

namespace Page

/-- A page that was never written. -/
def blank : Page := Vector.replicate pageSize 0

/-- Store bytes from `offset` on; what would go past the end of the page is lost. -/
def store (page : Page) (offset : Nat) : Bytes → Page
  | [] => page
  | byte :: rest => store (page.setIfInBounds offset byte) (offset + 1) rest

/-- At most `count` bytes from `offset` on. -/
def slice (page : Page) (offset count : Nat) : Bytes := (page.toList.drop offset).take count

end Page

/-- The memories of all chips, by chip and number of the page. -/
structure Memory where
  pages : OrderedMap (Chip × Nat) Page
  deriving DecidableEq

namespace Memory

/-- Memory that was never written. -/
def blank : Memory := ⟨.empty⟩

/-- A page, blank if it was never written. -/
def page (memory : Memory) (chip : Chip) (number : Nat) : Page :=
  (memory.pages.get? (chip, number)).getD .blank

/-- The byte at an address. -/
def byteAt (memory : Memory) (chip : Chip) (address : Nat) : UInt8 :=
  (memory.page chip (address / pageSize)).get ⟨address % pageSize, Nat.mod_lt _ (by decide)⟩

/-- Store bytes from an address on. -/
def write (memory : Memory) (chip : Chip) (address : Nat) : Bytes → Memory
  | [] => memory
  | byte :: rest =>
    let number := address / pageSize
    let offset := address % pageSize
    let room := pageSize - offset
    let page := (memory.page chip number).store offset ((byte :: rest).take room)
    write ⟨memory.pages.insert (chip, number) page⟩ chip (address + room)
      ((byte :: rest).drop room)
termination_by data => data.length
decreasing_by
  have := Nat.mod_lt address (show 0 < pageSize by decide)
  rw [List.length_drop, List.length_cons]
  omega

/-- The bytes from an address on. -/
def read (memory : Memory) (chip : Chip) (address length : Nat) : Bytes :=
  if length = 0 then []
  else
    let offset := address % pageSize
    let room := pageSize - offset
    let count := min room length
    (memory.page chip (address / pageSize)).slice offset count ++
      memory.read chip (address + count) (length - count)
termination_by length
decreasing_by
  have := Nat.mod_lt address (show 0 < pageSize by decide)
  omega

end Memory

end MeshControl.Machine
