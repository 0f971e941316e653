import MeshControl.Region.Locator
import MeshControl.Spec.Execution

/-!
# Loading the regions of cores

A `Loader` remembers the memory map of every core it has touched and writes region contents to
the machine. It never writes an image whose size is not the reserved one, and it looks for
faults in what was asked before it writes anything.
-/

namespace MeshControl

/-- A write that the machine acknowledged in full. -/
structure Written where
  core : Core
  region : RegionId
  address : UInt32
  byteCount : Nat
  deriving DecidableEq, Repr

/-- Memory maps by core. -/
structure Loader where
  maps : OrderedMap Core MemoryMap
  deriving DecidableEq

namespace Loader

/-- A loader that has touched no core. -/
def empty : Loader := ⟨.empty⟩

/-- The map of a core, if it has been touched. -/
def map? (loader : Loader) (core : Core) : Option MemoryMap := loader.maps.get? core

/-- The map of a core, empty if the core has not been touched. -/
def mapOf (loader : Loader) (core : Core) : MemoryMap := (loader.map? core).getD (.empty core)

/-- Set the map of a core. -/
def setMap (loader : Loader) (core : Core) (map : MemoryMap) : Loader :=
  ⟨loader.maps.insert core map⟩

/-- Forget the declarations of a core. -/
def newGeneration (loader : Loader) (core : Core) : Loader :=
  loader.setMap core (loader.mapOf core).newGeneration

end Loader

/-- A loader together with the machine it loads. -/
structure Site (σ : Type) where
  loader : Loader
  machine : σ

namespace Site

variable {σ : Type}

/-- An action on the machine of a site. -/
def onMachine {α : Type} (action : Action σ α) : Action (Site σ) α := fun site =>
  let (result, machine) := action.runOn site.machine
  (result, { site with machine })

/-- A region that is declared by number, size and label. -/
abbrev Declaration := RegionId × UInt32 × String

/-- The region of a declaration. -/
def Declaration.region (declaration : Declaration) : Region :=
  ⟨declaration.1, declaration.2.1, declaration.2.2, false⟩

/-- The declaration of a region. -/
def Declaration.ofRegion (region : Region) : Declaration := (region.id, region.size, region.label)

/-- Declare regions on a core. -/
def reserve (core : Core) (declarations : List Declaration) : Action (Site σ) Unit := fun site =>
  let (result, map) := (site.loader.mapOf core).reserve (declarations.map Declaration.region)
  (result, { site with loader := site.loader.setMap core map })

/-- The memory map of a core, which is touched by this. -/
def touch (core : Core) : Action (Site σ) MemoryMap := fun site =>
  let map := site.loader.mapOf core
  (.ok map, { site with loader := site.loader.setMap core map })

variable [Transport σ]

/-- A write that failed, with the reason. -/
def writeFault (core : Core) (region : Option RegionId) (address : UInt32) (reason : String) :
    Fault :=
  .operation (.writeFailed core region address reason)

/-- Write bytes to the memory of a core's chip; bytes that are not acknowledged count as a
failure. -/
def writeBytes (core : Core) (region : Option RegionId) (address : UInt32) (data : Bytes) :
    Action σ Nat := do
  let count ← Action.mapFault (fun fault => writeFault core region address fault.message)
    (Transport.write core.chip address data)
  if count = data.length then return count
  else throw (writeFault core region address s!"{count} of {data.length} bytes acknowledged")

/-- Write an image to its region. -/
def writeImage (core : Core) (image : Spec.Image) (locator : Locator) : Action σ Written := do
  let address ← locator.locate core image.region.id
  let byteCount ← writeBytes core (some image.region.id) address image.data
  return ⟨core, image.region.id, address, byteCount⟩

/-- Write images in turn up to the first fault. -/
def writeImages (core : Core) (locator : Locator) : List Spec.Image → Action σ (List Written)
  | [] => return []
  | image :: rest => do
    let written ← writeImage core image locator
    return written :: (← writeImages core locator rest)

/-- Lay out the declared regions of a core and write the pointer table at `base`. -/
def writeTable (core : Core) (base : UInt32) : Action (Site σ) RegionLayout := do
  let layout ← Action.ofExcept ((← touch core).layout base)
  let _ ← onMachine (writeBytes core none base layout.tableBytes)
  return layout

/-- The image that `program` makes for a region whose reserved size is `reserved`. -/
def imageFor (core : Core) (region : RegionId) (reserved : UInt32) (program : Spec.Program) :
    Except Fault Spec.Image := do
  let execution ← program.execute
  match execution.image? region with
  | none => throw (Locator.notReserved core region)
  | some image =>
    if image.region.size = reserved then return image
    else throw (.configuration
      (.regionSizeConflict core region reserved image.region.size))

/-- Execute a specification and write its image of one region. -/
def execute (core : Core) (region : RegionId) (program : Spec.Program) (locator : Locator) :
    Action (Site σ) Written := do
  let site ← get
  match (site.loader.map? core).bind (·.region? region) with
  | none => throw (Locator.notReserved core region)
  | some reserved =>
    let image ← Action.ofExcept (imageFor core region reserved.size program)
    onMachine (writeImage core image locator)

/-- What can be loaded: the regions it declares, and how their contents are made in a given
context. -/
structure Generator (κ : Type) where
  declarations : List Declaration
  generate : κ → Except Fault Spec.Program

/-- The first load of a core: declare the regions, write the pointer table at `base`, and write
every region that the specification fills, by number. -/
def load {κ : Type} (core : Core) (base : UInt32) (generator : Generator κ) (context : κ) :
    Action (Site σ) (RegionLayout × List Written) := do
  reserve core generator.declarations
  let program ← Action.ofExcept (generator.generate context)
  let execution ← Action.ofExcept program.execute
  reserve core (execution.regions.map Declaration.ofRegion)
  let layout ← writeTable core base
  let filled := execution.images.values.filter fun image => !image.region.unfilled
  let written ← onMachine (writeImages core (.ofLayout core layout) filled)
  return (layout, written)

end Site

end MeshControl
