import MeshControl.Core
import MeshControl.Ordered.Map

/-!
# Placements of vertices

Which core runs the vertex of a given label.
-/

namespace MeshControl

/-- Cores by the label of the vertex they run. -/
abbrev Placements := OrderedMap String Core

end MeshControl
