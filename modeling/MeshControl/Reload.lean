import MeshControl.Archive.Artifact
import MeshControl.Vertex.Basic

/-!
# Reloading stale regions between runs

A pass visits vertices in turn. The regions of a source that have become stale are made anew
and written, and only those. A region stops being stale once its write is acknowledged and its
copies are kept, so a pass that fails can be made again and goes on with what is left.

Copies are kept in two fresh folders for each pass: the images, and, if asked for, listings of
the specifications.
-/

namespace MeshControl.Reload

/-- Where passes keep their copies. -/
structure Settings where
  /-- Directory with the folders of images. -/
  imageParent : String
  /-- Directory with the folders of listings. -/
  reportParent : String
  /-- Keep a listing of every specification. -/
  listings : Bool
  /-- Name of the machine in the names of files. -/
  hostname : String
  deriving DecidableEq

/-- The folders of one pass. -/
structure Folders where
  images : String
  reports : String
  deriving DecidableEq

/-- What a pass did. -/
structure Summary where
  visited : Nat
  /-- Vertices of which at least one region was written. -/
  reloaded : Nat
  regionsWritten : Nat
  folders : Folders
  deriving DecidableEq

/-- Everything that a pass may change. -/
structure State (σ : Type) where
  vertices : OrderedMap String Vertex
  site : Site σ
  files : FileTree

/-- What a pass is told: where it keeps copies, how it finds regions, where vertices are placed,
and the context of the next run. -/
structure Plan where
  settings : Settings
  locator : Locator
  placements : Placements
  context : Context

variable {σ : Type}

/-- An action on the site of a pass. -/
def onSite {α : Type} (action : Action (Site σ) α) : Action (State σ) α := fun state =>
  let (result, site) := action.runOn state.site
  (result, { state with site })

/-- Make a folder of a free name. -/
def makeFolder (parent : String) : Action (State σ) String := fun state =>
  let (result, files) := Archive.uniqueFolder parent Archive.reloadFolder state.files
  (result, { state with files })

/-- Write a file. -/
def writeFile (path : String) (data : Bytes) : Action (State σ) Unit := fun state =>
  match state.files.writeFile path data with
  | .ok files => (.ok (), { state with files })
  | .error fault => (.error (.operation (.disk fault.message)), state)

/-- Keep the copies of a region that was written. -/
def keepCopies (plan : Plan) (folders : Folders) (core : Core) (execution : Spec.Execution)
    (image : Spec.Image) : Action (State σ) Unit := do
  let stem := Archive.artifactStem plan.settings.hostname core image.region.id
  writeFile (Path.join folders.images s!"{stem}.dat") image.data
  if plan.settings.listings then
    writeFile (Path.join folders.reports s!"{stem}.txt") execution.text.toUTF8.toList

/-- A region of a source is no longer stale. -/
def markReloaded (label : String) (region : RegionId) : Action (State σ) Unit :=
  modify fun state =>
    match state.vertices.get? label with
    | some (.source source) =>
      { state with
        vertices := state.vertices.insert label (.source (source.markReloaded [region])) }
    | _ => state

variable [Transport σ]

/-- Write one region of a source and keep its copies. -/
def reloadRegion (plan : Plan) (folders : Folders) (label : String) (core : Core)
    (execution : Spec.Execution) (region : RegionId) : Action (State σ) Unit := do
  match execution.image? region with
  | none => throw (.specification (.refillUnreserved region))
  | some image =>
    let _ ← onSite (Site.onMachine (Site.writeImage core image plan.locator))
    keepCopies plan folders core execution image
    markReloaded label region

/-- Write the stale regions of a source, by number, up to the first fault. The answer is how
many were written. -/
def reloadSource (plan : Plan) (folders : Folders) (source : Source) : Action (State σ) Nat := do
  match plan.placements.get? source.label with
  | none => throw (.configuration (.vertexNotPlaced source.label))
  | some core =>
    let program ← Action.ofExcept (source.generate plan.context)
    let execution ← Action.ofExcept program.execute
    onSite (Site.reserve core (execution.regions.map Site.Declaration.ofRegion))
    let stale := source.dirty.toList
    stale.forM (reloadRegion plan folders source.label core execution)
    return stale.length

/-- Visit the vertex of a label. The answer is how many of its regions were written. -/
def visit (plan : Plan) (folders : Folders) (label : String) : Action (State σ) Nat := do
  match ((← get).vertices.get? label).bind Vertex.reloadable? with
  | none => return 0
  | some source => if source.needsReload then reloadSource plan folders source else return 0

/-- Visit vertices in turn, up to the first fault, and add to what the pass has done. -/
def visitAll (plan : Plan) (summary : Summary) : List String → Action (State σ) Summary
  | [] => return summary
  | label :: rest => do
    let count ← visit plan summary.folders label
    visitAll plan
      { summary with
        visited := summary.visited + 1
        reloaded := summary.reloaded + if count = 0 then 0 else 1
        regionsWritten := summary.regionsWritten + count } rest

/-- One pass over the vertices of the given labels. -/
def pass (plan : Plan) (labels : List String) : Action (State σ) Summary := do
  let images ← makeFolder plan.settings.imageParent
  let reports ← makeFolder plan.settings.reportParent
  visitAll plan ⟨0, 0, 0, ⟨images, reports⟩⟩ labels

end MeshControl.Reload
