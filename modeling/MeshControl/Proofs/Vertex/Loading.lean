import MeshControl.Proofs.Region.Confinement
import MeshControl.Proofs.Region.Refusal
import MeshControl.Proofs.Vertex.Specification

/-!
# Loading a vertex in single steps

A first load declares what the table of a vertex says, checks what the specification declares
against that, and writes all images of one execution. The same can be had in single steps, which
execute the specification anew for every region and check its size against the declared one. The
two agree in all they do, whatever fails (`Vertex.load_stepwise`): since the specification of a
vertex fills its table, the second reservation of a load never finds a conflict, and no step
executes to another size.
-/

namespace MeshControl

namespace Site

open Spec (Execution Image Program)

variable {σ κ : Type} [Transport σ]

/-- Execute a specification for regions in turn up to the first fault. -/
def executeAll (core : Core) (program : Program) (locator : Locator) :
    List RegionId → Action (Site σ) (List Written)
  | [] => return []
  | region :: rest => do
    let written ← execute core region program locator
    return written :: (← executeAll core program locator rest)

/-- A first load in single steps. The addresses of the layout are put to those that are known
already, and the specification is executed for each of the regions that are to be filled. -/
def loadStepwise (core : Core) (base : UInt32) (known : OrderedMap (Core × RegionId) UInt32)
    (filled : List RegionId) (generator : Generator κ) (context : κ) :
    Action (Site σ) (RegionLayout × List Written) := do
  reserve core generator.declarations
  let program ← Action.ofExcept (generator.generate context)
  let layout ← writeTable core base
  let locator := .known (Locator.addLayout known core layout)
  let written ← executeAll core program locator filled
  return (layout, written)

/-! ## Writing the images -/

/-- Images are written alike through locators that find them alike. -/
theorem writeImages_congr {core : Core} {first second : Locator} {images : List Image}
    (alike : ∀ image ∈ images, (first.locate core image.region.id : Action σ UInt32) =
      second.locate core image.region.id) :
    (writeImages core first images : Action σ _) = writeImages core second images := by
  induction images with
  | nil => rfl
  | cons image rest ih =>
    have here := alike image (List.mem_cons_self ..)
    have later := ih fun other member => alike other (List.mem_cons_of_mem _ member)
    rw [writeImages, writeImages, writeImage, writeImage, here, later]

/-- The image that a specification makes for a region can be written to it if it has the declared
size. -/
theorem runOn_execute_image {core : Core} {program : Program} {execution : Execution}
    (executed : program.execute = .ok execution) {image : Image}
    (found : execution.image? image.region.id = some image) {site : Site σ}
    (declared : (site.loader.mapOf core).Declares image.region) (locator : Locator) :
    (execute core image.region.id program locator).runOn site =
      (onMachine (writeImage core image locator)).runOn site := by
  obtain ⟨reserved, here, size⟩ := declared
  have made : imageFor core image.region.id reserved.size program = .ok image := by
    simp only [imageFor, executed, bind, Except.bind, found]
    exact if_pos size.symm
  rw [Loader.region?_mapOf] at here
  rw [runOn_execute, here]
  dsimp only
  rw [made]

/-- **Executing for every image** is writing the images of one execution. -/
theorem runOn_executeAll {core : Core} {program : Program} {execution : Execution}
    (executed : program.execute = .ok execution) (locator : Locator) {images : List Image}
    (found : ∀ image ∈ images, execution.image? image.region.id = some image) (site : Site σ)
    (declared : ∀ image ∈ images, (site.loader.mapOf core).Declares image.region) :
    (executeAll core program locator (images.map fun image => image.region.id)).runOn site =
      (onMachine (writeImages core locator images)).runOn site := by
  induction images generalizing site with
  | nil => rfl
  | cons image rest ih =>
    have first := runOn_execute_image executed (found image (List.mem_cons_self ..))
      (declared image (List.mem_cons_self ..)) locator
    rw [List.map_cons, executeAll, Action.runOn_bind, first, Action.runOn_onMachine,
      Action.runOn_onMachine, writeImages, Action.runOn_bind]
    rcases (writeImage core image locator).runOn site.machine with ⟨result, machine⟩
    cases result with
    | error fault => rfl
    | ok written =>
      -- a write leaves the declarations, so the others still have the declared sizes
      have others := ih (fun other member => found other (List.mem_cons_of_mem _ member))
        ⟨site.loader, machine⟩ (fun other member => declared other (List.mem_cons_of_mem _ member))
      dsimp only
      rw [Action.runOn_bind, others, Action.runOn_onMachine, Action.runOn_bind]
      rcases (writeImages core locator rest).runOn machine with ⟨result, last⟩
      cases result <;> rfl

/-! ## Reserving a second time -/

omit [Transport σ] in
/-- Reserving what is declared changes nothing on a core that has a map. -/
theorem runOn_reserve_declared {core : Core} {declarations : List Declaration} {site : Site σ}
    (touched : site.loader.map? core = some (site.loader.mapOf core))
    (room : ∀ declaration ∈ declarations, declaration.1 < RegionId.limit)
    (declares : ∀ declaration ∈ declarations,
      (site.loader.mapOf core).Declares declaration.region) :
    (reserve core declarations).runOn site = (.ok (), site) := by
  have again : (site.loader.mapOf core).reserve (declarations.map Declaration.region) =
      (.ok (), site.loader.mapOf core) := by
    apply MemoryMap.reserve_of_declares
    · intro region member
      obtain ⟨declaration, listed, rfl⟩ := List.mem_map.1 member
      exact room declaration listed
    · intro region member
      obtain ⟨declaration, listed, rfl⟩ := List.mem_map.1 member
      exact declares declaration listed
  have same : site.loader.setMap core (site.loader.mapOf core) = site.loader :=
    congrArg Loader.mk (site.loader.maps.insert_of_get? touched)
  show (((site.loader.mapOf core).reserve (declarations.map Declaration.region)).1,
    Site.mk (site.loader.setMap core ((site.loader.mapOf core).reserve
      (declarations.map Declaration.region)).2) site.machine) = (.ok (), site)
  rw [again, same]

/-- What a load works from: the regions that a specification reserves are those of the table that
was reserved before it. -/
structure Tabled (generator : Generator κ) (execution : Execution) : Prop where
  filed : ∀ {id image}, execution.image? id = some image → image.region.id = id
  listed : ∀ {id image}, execution.image? id = some image →
    ∃ label, (id, image.region.size, label) ∈ generator.declarations

omit [Transport σ] in
/-- Once the table is reserved, so is what its specification declares. -/
theorem Tabled.declares {core : Core} {generator : Generator κ} {execution : Execution}
    (tabled : Tabled generator execution) {site ready : Site σ}
    (reserved : (reserve core generator.declarations).runOn site = (.ok (), ready)) {id : RegionId}
    {image : Image} (found : execution.image? id = some image) :
    id < RegionId.limit ∧ (ready.loader.mapOf core).Declares image.region := by
  obtain ⟨label, listed⟩ := tabled.listed found
  have member : Declaration.region (id, image.region.size, label) ∈
      generator.declarations.map Declaration.region :=
    List.mem_map_of_mem listed
  obtain ⟨made, -⟩ := reserve_on_core reserved
  constructor
  · exact ((MemoryMap.agrees_of_reserve made).accepted _ member).room
  · have declares := MemoryMap.reserve_declares (congrArg Prod.fst made) _ member
    rw [made] at declares
    obtain ⟨declared, here, size⟩ := declares
    refine ⟨declared, ?_, size⟩
    rw [tabled.filed found]
    exact here

omit [Transport σ] in
/-- The second reservation of a load, of what the specification declares, changes nothing. -/
theorem Tabled.runOn_reserve {core : Core} {generator : Generator κ} {execution : Execution}
    (tabled : Tabled generator execution) {site ready : Site σ}
    (reserved : (reserve core generator.declarations).runOn site = (.ok (), ready)) :
    (reserve core (execution.regions.map Declaration.ofRegion)).runOn ready = (.ok (), ready) := by
  have imaged : ∀ declaration ∈ execution.regions.map Declaration.ofRegion,
      ∃ image, declaration = .ofRegion image.region ∧
        execution.image? image.region.id = some image := by
    intro declaration member
    obtain ⟨region, listed, rfl⟩ := List.mem_map.1 member
    obtain ⟨image, valued, rfl⟩ := List.mem_map.1 listed
    obtain ⟨id, found⟩ := (execution.images.mem_values_iff image).1 valued
    refine ⟨image, rfl, ?_⟩
    rw [tabled.filed found]
    exact found
  refine runOn_reserve_declared (reserve_on_core reserved).2 ?_ ?_
  · intro declaration member
    obtain ⟨image, rfl, found⟩ := imaged declaration member
    exact (tabled.declares reserved found).1
  · intro declaration member
    obtain ⟨image, rfl, found⟩ := imaged declaration member
    exact (tabled.declares reserved found).2

/-- Executing for the regions that are to be filled, once the table is written. -/
theorem Tabled.runOn_executeAll {core : Core} {base : UInt32} {generator : Generator κ}
    {program : Program} {execution : Execution} (tabled : Tabled generator execution)
    (executed : program.execute = .ok execution) {site ready opened : Site σ}
    (reserved : (reserve core generator.declarations).runOn site = (.ok (), ready))
    {layout : RegionLayout} (wrote : (writeTable core base).runOn ready = (.ok layout, opened))
    (known : OrderedMap (Core × RegionId) UInt32) :
    (executeAll core program (.known (Locator.addLayout known core layout))
        ((filled execution).map fun image => image.region.id)).runOn opened =
      (onMachine (writeImages core (.ofLayout core layout) (filled execution))).runOn opened := by
  obtain ⟨laidOut, same, -⟩ := exists_of_writeTable wrote
  have found : ∀ image ∈ filled execution, execution.image? image.region.id = some image := by
    intro image member
    obtain ⟨⟨id, found⟩, -⟩ := mem_filled.1 member
    rw [tabled.filed found]
    exact found
  have declared : ∀ image ∈ filled execution, (opened.loader.mapOf core).Declares image.region := by
    intro image member
    rw [same]
    exact (tabled.declares reserved (found image member)).2
  rw [Site.runOn_executeAll executed _ found opened declared]
  congr 2
  apply writeImages_congr
  intro image member
  obtain ⟨region, here, -⟩ := declared image member
  rw [same] at here
  obtain ⟨address, look, -⟩ := (MemoryMap.layout_laysOut laidOut).inside here
  rw [Locator.ofLayout, Locator.locate, Locator.locate,
    Locator.get?_addLayout .empty core layout look,
    Locator.get?_addLayout known core layout look]

/-- **A load is its single steps** if the specification reserves what the table does. -/
theorem runOn_load_stepwise {core : Core} {base : UInt32} {generator : Generator κ} {context : κ}
    {regions : List RegionId}
    (tabled : ∀ {program}, generator.generate context = .ok program →
      ∃ execution, program.execute = .ok execution ∧ Tabled generator execution ∧
        regions = (filled execution).map fun image => image.region.id)
    (known : OrderedMap (Core × RegionId) UInt32) (site : Site σ) :
    (load core base generator context).runOn site =
      (loadStepwise core base known regions generator context).runOn site := by
  rw [load, loadStepwise, Action.runOn_bind, Action.runOn_bind]
  rcases reserved : (reserve core generator.declarations).runOn site with ⟨result, ready⟩
  cases result with
  | error fault => rfl
  | ok _ =>
    dsimp only
    rw [Action.runOn_bind, Action.runOn_bind, Action.runOn_ofExcept]
    cases generated : generator.generate context with
    | error fault => rfl
    | ok program =>
      -- the steps go on to the table, the load first executes and reserves again
      obtain ⟨execution, executed, table, rfl⟩ := tabled generated
      dsimp only
      rw [Action.runOn_bind, executed, Action.runOn_ofExcept]
      dsimp only
      rw [Action.runOn_bind, table.runOn_reserve reserved]
      dsimp only
      rw [Action.runOn_bind, Action.runOn_bind]
      rcases wrote : (writeTable core base).runOn ready with ⟨result, opened⟩
      cases result with
      | error fault => rfl
      | ok layout =>
        dsimp only
        rw [Action.runOn_bind, Action.runOn_bind,
          table.runOn_executeAll executed reserved wrote known]
        rfl

end Site

namespace Vertex

/-- The regions of a vertex that its specification is to fill, by number. -/
def filledRegions (vertex : Vertex) : List RegionId :=
  (vertex.regions.filter fun region => !region.unfilled).map Region.id

theorem regions_ascending (vertex : Vertex) :
    vertex.regions.Pairwise fun a b => SortKey.before a.id b.id := by
  cases vertex with
  | source origin =>
    show origin.regions.Pairwise _
    unfold Source.regions
    cases origin.sending <;> cases origin.recording <;>
      simp [SourceRegion.sized, SourceRegion.id, SortKey.before]
  | gatherer sink =>
    show Gatherer.regions.Pairwise fun a b => SortKey.before a.id b.id
    decide
  | plain label => exact .nil

theorem declarations_eq {vertex : Vertex} {generator : Site.Generator Context}
    (kind : vertex.generator? = some generator) :
    generator.declarations = vertex.regions.map Site.Declaration.ofRegion := by
  cases vertex with
  | source | gatherer =>
    cases kind
    rfl
  | plain label => cases kind

/-- The regions that are to be filled are those that the specification reserves without its flag
for the others. -/
theorem filledRegions_eq {vertex : Vertex} {execution : Spec.Execution} {contents : RegionId → Bytes}
    (fills : execution.Fills vertex.regions contents) :
    vertex.filledRegions =
        (execution.regions.filter fun region => !region.unfilled).map Region.id ∧
      vertex.filledRegions = (Site.filled execution).map fun image => image.region.id := by
  have values := fills.values vertex.regions_ascending
  rw [filledRegions, Spec.Execution.regions, Site.filled, values]
  simp only [List.filter_map, List.map_map]
  exact ⟨rfl, rfl⟩

/-- What a vertex fills is tabled. -/
theorem tabled {vertex : Vertex} {generator : Site.Generator Context}
    (kind : vertex.generator? = some generator) {execution : Spec.Execution}
    {contents : RegionId → Bytes} (fills : execution.Fills vertex.regions contents) :
    Site.Tabled generator execution := by
  constructor
  · intro id image found
    obtain ⟨region, -, rfl, rfl⟩ := fills.exists_region found
    rfl
  · intro id image found
    obtain ⟨region, member, rfl, rfl⟩ := fills.exists_region found
    rw [declarations_eq kind]
    exact ⟨region.label, List.mem_map_of_mem member⟩

/-- **A load is its single steps.** For every vertex with regions, every context, core and base, and
every site, whatever its loader has declared before and whatever its machine is told to fail at: a
load answers the same as its single steps do, with the same fault if there is one, and leaves the
same site, down to the memory, the log and the faults still to come. The steps execute the
specification once for each region that it reserves without the flag of the unfilled, by number,
and may know other addresses than those of the layout. -/
theorem load_stepwise {vertex : Vertex} {generator : Site.Generator Context}
    (kind : vertex.generator? = some generator) {σ : Type} [Transport σ] (core : Core)
    (base : UInt32) (known : OrderedMap (Core × RegionId) UInt32) (context : Context)
    (site : Site σ) :
    (Site.load core base generator context).runOn site =
        (Site.loadStepwise core base known vertex.filledRegions generator context).runOn site ∧
      ∀ {program}, generator.generate context = .ok program →
        ∃ execution, program.execute = .ok execution ∧ vertex.filledRegions =
          (execution.regions.filter fun region => !region.unfilled).map Region.id := by
  constructor
  · refine Site.runOn_load_stepwise (fun made => ?_) known site
    obtain ⟨execution, contents, executed, fills⟩ := exists_fills_of_generate kind made
    exact ⟨execution, executed, tabled kind fills, (filledRegions_eq fills).2⟩
  · intro program made
    obtain ⟨execution, contents, executed, fills⟩ := exists_fills_of_generate kind made
    exact ⟨execution, executed, (filledRegions_eq fills).1⟩

namespace Interrupted

/-- A gatherer with all settings as they are if nothing is asked for. -/
def sink : Gatherer := { label := "sink" }

def core : Core := ⟨⟨0, 0⟩, 1, Chip.hasCore_one⟩

/-- A run with the tag that the gatherer sends through. -/
def context : Context := { timing := ⟨1000, 1, 0, some 100⟩, ipTags := [sink.ipTag] }

/-- A machine that is going to lose half of the configuration. -/
def site : Site Machine := ⟨.empty, Machine.start.shorten core.chip 0x60000054⟩

end Interrupted

set_option maxRecDepth 20000 in
/-- The load fails at the second of two regions, and so do the steps. -/
theorem load_stepwise_interrupted :
    (Vertex.gatherer Interrupted.sink).generator? = some Interrupted.sink.generator ∧
      (Vertex.gatherer Interrupted.sink).filledRegions = [0, 1] ∧
      let ran := (Site.load Interrupted.core Machine.memoryBase Interrupted.sink.generator
        Interrupted.context).runOn Interrupted.site
      ran.1.isOk = false ∧ ran.2.machine.log.length = 3 ∧
        ran = (Site.loadStepwise Interrupted.core Machine.memoryBase .empty [0, 1]
          Interrupted.sink.generator Interrupted.context).runOn Interrupted.site := by
  refine ⟨rfl, rfl, ?_, ?_, ?_⟩
  · decide +kernel
  · decide +kernel
  · have kind : (Vertex.gatherer Interrupted.sink).generator? = some Interrupted.sink.generator :=
      rfl
    exact (load_stepwise kind Interrupted.core Machine.memoryBase .empty Interrupted.context
      Interrupted.site).1

end Vertex

end MeshControl
