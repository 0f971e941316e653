import MeshControl.Ordered.SortKey

/-!
# Chips and cores

The machine is a mesh of chips, each named by a column and a row of one byte. Every chip has
eighteen cores, of which core 0 runs the monitor. A `Core` carries the proof that its number
exists, so every request has a destination that the hardware knows.
-/

namespace MeshControl

/-- A chip of the mesh. -/
structure Chip where
  x : UInt8
  y : UInt8
  deriving DecidableEq, Repr

namespace Chip

instance : SortKey Chip := SortKey.ofMeasure (fun chip => (chip.x, chip.y)) fun {a b} h => by
  cases a; cases b; cases h; rfl

/-- Cores on each chip. -/
def coreCount : UInt8 := 18

/-- The largest number a core can have. -/
def lastCore : UInt8 := coreCount - 1

/-- True if every chip has a core of this number. -/
def hasCore (p : UInt8) : Bool := p ≤ lastCore

theorem hasCore_iff {p : UInt8} : hasCore p = true ↔ p ≤ 17 := decide_eq_true_iff

theorem hasCore_one : hasCore 1 = true := rfl

theorem hasCore_two : hasCore 2 = true := rfl

instance : ToString Chip := ⟨fun chip => s!"({chip.x}, {chip.y})"⟩

end Chip

/-- One core of a chip. -/
structure Core where
  chip : Chip
  p : UInt8
  exists_on_chip : Chip.hasCore p = true
  deriving DecidableEq, Repr

namespace Core

/-- Column of the core's chip. -/
def x (core : Core) : UInt8 := core.chip.x

/-- Row of the core's chip. -/
def y (core : Core) : UInt8 := core.chip.y

/-- The core at the given coordinates, if its chip has one of that number. -/
def at? (x y p : UInt8) : Option Core :=
  if h : Chip.hasCore p = true then some ⟨⟨x, y⟩, p, h⟩ else none

@[ext] theorem ext {a b : Core} (chip : a.chip = b.chip) (p : a.p = b.p) : a = b := by
  cases a; cases b; cases chip; cases p; rfl

/-- Cores are listed chip by chip, and by their number within a chip. -/
instance : SortKey Core := SortKey.ofMeasure (fun core => (core.chip, core.p)) fun {a b} h => by
  cases a; cases b; cases h; rfl

instance : ToString Core := ⟨fun core => s!"({core.x}, {core.y}, {core.p})"⟩

end Core

end MeshControl
