import MeshControl.Batch.Dispatch
import MeshControl.Reload

/-!
# Sessions

A `Session` is what a host keeps while it works with one machine: the memory maps and layouts
of the cores it has loaded, how it finds their regions, the vertices with their places, the
requests on their way, and the files that reload passes leave behind. Each operation is an
action on the session that hands on to the part of it that does the work.
-/

namespace MeshControl

/-- What reload passes go by: where they keep their copies, and memory maps that are apart from
those of the first load. -/
structure Reloader where
  settings : Reload.Settings
  maps : Loader := .empty

/-- What a host keeps while it works with one machine. -/
structure Session (σ : Type) where
  site : Site σ
  /-- Layouts that were written, by core. -/
  layouts : OrderedMap Core RegionLayout := .empty
  /-- Addresses of regions that are known ahead of time. -/
  known : OrderedMap (Core × RegionId) UInt32 := .empty
  /-- Addresses of pointer tables. -/
  tables : OrderedMap Core UInt32 := .empty
  /-- Find regions through the pointer tables. -/
  usesTables : Bool := false
  placements : Placements := .empty
  vertices : OrderedMap String Vertex := .empty
  dispatch : Batch.Dispatch := .start 1
  /-- The directory of the session, below which it keeps its files. -/
  home : String
  /-- What reload passes go by, once it was set up. -/
  reloader : Option Reloader := none
  files : FileTree

namespace Session

variable {σ : Type}

/-- A session in which nothing was done yet, with a directory of its own. -/
def start (machine : σ) (home : String) : Session σ :=
  { site := ⟨.empty, machine⟩
    home
    files := (FileTree.host.makeDirectories home).2 }

/-- How regions are found. -/
def locator (session : Session σ) : Locator :=
  if session.usesTables then .pointerTables session.tables else .known session.known

/-- The machine of the session. -/
def machine (session : Session σ) : σ := session.site.machine

/-- The session with its machine changed. -/
def mapMachine (session : Session σ) (change : σ → σ) : Session σ :=
  { session with site := { session.site with machine := change session.site.machine } }

/-- An action on the machine and the memory maps. -/
def onSite {α : Type} (action : Action (Site σ) α) : Action (Session σ) α := fun session =>
  let (result, site) := action.runOn session.site
  (result, { session with site })

/-- An action on the machine. -/
def onMachine {α : Type} (action : Action σ α) : Action (Session σ) α :=
  onSite (Site.onMachine action)

/-- An action on the machine that is told how regions are found. -/
def locating {α : Type} (action : Locator → Action σ α) : Action (Session σ) α := do
  onMachine (action (← get).locator)

/-- Forget what was declared on a core. -/
def newGeneration (session : Session σ) (core : Core) : Session σ :=
  { session with site := { session.site with loader := session.site.loader.newGeneration core } }

/-- Find a region at an address. -/
def fixAddress (session : Session σ) (core : Core) (region : RegionId) (address : UInt32) :
    Session σ :=
  { session with known := session.known.insert (core, region) address, usesTables := false }

/-- Find the regions of a core where its layout has put them. -/
def fixLayout (session : Session σ) (core : Core) : Session σ :=
  match session.layouts.get? core with
  | some layout =>
    { session with known := Locator.addLayout session.known core layout, usesTables := false }
  | none => { session with usesTables := false }

/-- Find the regions of a core through its pointer table. -/
def fixTable (session : Session σ) (core : Core) (base : UInt32) : Session σ :=
  { session with tables := session.tables.insert core base, usesTables := true }

/-- Remember the layout of a core. -/
def keepLayout (core : Core) (layout : RegionLayout) : Action (Session σ) Unit :=
  modify fun session => { session with layouts := session.layouts.insert core layout }

/-- Store a vertex under its label. -/
def addVertex (session : Session σ) (vertex : Vertex) : Session σ :=
  { session with vertices := session.vertices.insert vertex.label vertex }

/-- Place the vertex of a label. -/
def place (session : Session σ) (label : String) (core : Core) : Session σ :=
  { session with placements := session.placements.insert label core }

/-- Queue a request several times. -/
def send (session : Session σ) (request : Scp.Request) (times : Nat) : Session σ :=
  { session with
    dispatch := (List.replicate times request).foldl Batch.Dispatch.send session.dispatch }

/-- Report every failure of the requests that were sent. -/
def checkRequests : Action (Session σ) Unit := fun session =>
  let (result, dispatch) := session.dispatch.check
  (result, { session with dispatch })

/-- Set up later reload passes, which keep their copies in the directory of the session. Their memory
maps begin anew. -/
def newReloader (session : Session σ) (settings : Reload.Settings) : Session σ :=
  { session with
    reloader := some
      { settings := { settings with
          imageParent := Path.join session.home settings.imageParent
          reportParent := Path.join session.home settings.reportParent } } }

/-- Make a folder of a free name in the directory of the session. -/
def makeFolder (parent name : String) : Action (Session σ) String := fun session =>
  let parent := Path.join session.home parent
  let (result, files) := Archive.uniqueFolder parent name session.files
  (result, { session with files })

/-- Put a file into the directory of the session. -/
def plant (session : Session σ) (path : String) (data : Bytes) : Session σ :=
  { session with files := session.files.plant (Path.join session.home path) data }

/-- What lies in the directory of the session. -/
def ownFiles (session : Session σ) : List (Path × FileNode) :=
  session.files.below (.ofText session.home)

variable [Transport σ]

/-- Send every queued request. -/
def finishRequests (session : Session σ) (schedule : List Nat) : Session σ :=
  let (dispatch, machine) := session.dispatch.finish schedule session.machine
  { session.mapMachine fun _ => machine with dispatch }

/-- Write the pointer table of a core. -/
def writeTable (core : Core) (base : UInt32) : Action (Session σ) RegionLayout := do
  let layout ← onSite (Site.writeTable core base)
  keepLayout core layout
  return layout

/-- Execute a specification and write its image of one region. -/
def execute (core : Core) (region : RegionId) (program : Spec.Program) :
    Action (Session σ) Written := do
  onSite (Site.execute core region program (← get).locator)

/-- The first load of a core. -/
def load (core : Core) (base : UInt32) (generator : Site.Generator Context) (context : Context) :
    Action (Session σ) (RegionLayout × List Written) := do
  let (layout, written) ← onSite (Site.load core base generator context)
  keepLayout core layout
  return (layout, written)

/-- Read the items of a vertex. -/
def collect (vertex : Vertex) : Action (Session σ) (List Provenance.Item) := do
  let placements := (← get).placements
  locating (vertex.collect placements)

/-- A reload pass over the vertices of the given labels, if passes were set up. -/
def reload (labels : List String) (context : Context) :
    Action (Session σ) (Option Reload.Summary) := fun session =>
  match session.reloader with
  | none => (.ok none, session)
  | some reloader =>
    let plan := ⟨reloader.settings, session.locator, session.placements, context⟩
    let (result, state) := (Reload.pass plan labels).runOn
      ⟨session.vertices, ⟨reloader.maps, session.machine⟩, session.files⟩
    (result.map some, { session.mapMachine fun _ => state.site.machine with
      vertices := state.vertices
      reloader := some { reloader with maps := state.site.loader }
      files := state.files })

end Session

end MeshControl
