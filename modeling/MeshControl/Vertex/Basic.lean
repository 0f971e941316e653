import MeshControl.Placement
import MeshControl.Vertex.Gatherer
import MeshControl.Vertex.Source

/-!
# Vertices

A vertex is a unit of work that runs on one core. What the host can do with it depends on its
kind: each capability is a function that answers `none` for the kinds that lack it.
-/

namespace MeshControl

/-- A unit of work on one core. -/
inductive Vertex where
  | source (source : Source)
  | gatherer (gatherer : Gatherer)
  /-- Work that the host only places. -/
  | plain (label : String)

namespace Vertex

/-- The name of a vertex, by which it is placed. -/
def label : Vertex → String
  | .source origin => origin.label
  | .gatherer sink => sink.label
  | .plain name => name

/-- How the regions of the vertex are made. -/
def generator? : Vertex → Option (Site.Generator Context)
  | .source origin => some origin.generator
  | .gatherer sink => some sink.generator
  | .plain _ => none

/-- Where the vertex keeps its counters. -/
def provider? : Vertex → Option Provenance.Provider
  | .source _ => some Source.provider
  | .gatherer _ => some Gatherer.provider
  | .plain _ => none

/-- The constraint that the keys of the vertex put on routing; a vertex that can have one may
still have none. -/
def constraint? : Vertex → Option (Option Key.Pattern)
  | .source origin => some origin.keys.constraint
  | .gatherer _ | .plain _ => none

/-- The source whose regions can be written again between runs, if the vertex is one. -/
def reloadable? : Vertex → Option Source
  | .source origin => some origin
  | .gatherer _ | .plain _ => none

variable {σ : Type} [Transport σ]

/-- Read the items of a placed vertex. A vertex without counters has none and causes no traffic. -/
def collect (vertex : Vertex) (placements : Placements) (locator : Locator) :
    Action σ (List Provenance.Item) :=
  match vertex.provider? with
  | none => return []
  | some provider =>
    match placements.get? vertex.label with
    | none => throw (.configuration (.vertexNotPlaced vertex.label))
    | some core => Provenance.read locator core vertex.label provider

end Vertex

end MeshControl
