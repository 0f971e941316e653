import MeshControl.Region.Locator

/-!
# Provenance of a run

After a run every core has left a block of counters: five that all cores keep, and those of
its own kind. Each counter becomes a named item; a counter that is not zero is flagged for the
report, with words that say what it means and what helps.
-/

namespace MeshControl.Provenance

/-- Number of counters that every core keeps. -/
def systemCount : Nat := 5

/-- Bytes of a block with `additional` counters of the core's own kind. -/
def blockSize (additional : Nat) : Nat := (systemCount + additional) * 4

/-- A named counter. -/
structure Item where
  /-- Label of the vertex, its core, and the name of the counter. -/
  names : List String
  value : UInt32
  needsReport : Bool
  message : Option String
  deriving DecidableEq, Repr

namespace Item

/-- A counter under some names, flagged if it is not zero. -/
def of (names : List String) (name : String) (value : UInt32) (message : Option String) : Item :=
  ⟨names ++ [name], value, 0 < value, message⟩

/-- The last of the names. -/
def name (item : Item) : String := item.names.getLastD ""

end Item

/-- The names that all items of a vertex share. -/
def sharedNames (label : String) (core : Core) : List String :=
  [label, s!"{core.x}_{core.y}_{core.p}"]

/-- The counters that every core keeps, in order: the name of each, and the words for a vertex
and a count. -/
def systemCounters : List (String × (String → String → String)) :=
  [("Times_the_transmission_of_spikes_overran", fun place count =>
      s!"The transmission buffer for {place} was blocked on {count} occasions. " ++
        "The fabric is pushing back; spread the load over more cores or " ++
        "reduce the peak transmission rate."),
    ("Times_the_callback_queue_was_overloaded", fun place count =>
      s!"The callback queue for {place} overloaded on {count} occasions. " ++
        "Reduce the work per tick or the number of incoming events."),
    ("Times_the_dma_queue_was_overloaded", fun place count =>
      s!"The DMA queue for {place} overloaded on {count} occasions. " ++
        "Reduce the number of memory transfers per tick."),
    ("Times_the_timer_tic_over_ran", fun place count =>
      s!"A timer tick on {place} overran {count} times. " ++
        "Increase the machine time step or the time scale factor."),
    ("max_number_of_times_timer_tic_over_ran", fun place count =>
      s!"The timer on {place} overran {count} times in a row.")]

/-- Items of the counters that every core keeps; a counter that is missing counts zero. -/
def systemItems (label : String) (core : Core) (words : List UInt32) : List Item :=
  systemCounters.zipIdx.map fun ((name, wording), index) =>
    let value := words.getD index 0
    .of (sharedNames label core) name value
      (some (wording s!"{label} on {core}" (toString value)))

/-- Where a vertex keeps its counters, and what those of its own kind mean. -/
structure Provider where
  region : RegionId
  additionalCount : Nat
  /-- Items of the counters of its own kind, under the names of the vertex. -/
  additionalItems : List String → List UInt32 → List Item

/-- A provider of the counters that every core keeps and of no others. -/
def Provider.plain (region : RegionId) : Provider := ⟨region, 0, fun _ _ => []⟩

/-- A provider that keeps counters of the given names besides, with no words for them. -/
def Provider.named (region : RegionId) (counters : List String) : Provider where
  region
  additionalCount := counters.length
  additionalItems names values :=
    (counters.zip values).map fun (counter, value) => .of names counter value none

variable {σ : Type} [Transport σ]

/-- Read the items that a vertex has left on a core. -/
def read (locator : Locator) (core : Core) (label : String) (provider : Provider) :
    Action σ (List Item) := do
  let address ← locator.locate core provider.region
  let data ← Transport.readExact core.chip address (blockSize provider.additionalCount)
  let words := Bytes.words data
  return systemItems label core words ++
    provider.additionalItems (sharedNames label core) (words.drop systemCount)

end MeshControl.Provenance
