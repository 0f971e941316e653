import MeshControl.Batch.Dispatch
import MeshControl.Bytes
import MeshControl.Core
import MeshControl.Core.Subset
import MeshControl.Fault
import MeshControl.IpAddress
import MeshControl.Key.Allocation
import MeshControl.Machine.Drill
import MeshControl.Main
import MeshControl.Ordered.Set
import MeshControl.Placement
import MeshControl.Proofs.Batch.Commanding
import MeshControl.Proofs.Batch.Reporting
import MeshControl.Proofs.Core.Subset
import MeshControl.Proofs.EarlyFault
import MeshControl.Proofs.Machine.Flat
import MeshControl.Proofs.Machine.Routes
import MeshControl.Proofs.Provenance
import MeshControl.Proofs.Region.Agreement
import MeshControl.Proofs.Region.Confinement
import MeshControl.Proofs.Region.Reading
import MeshControl.Proofs.Reload.Accounting
import MeshControl.Proofs.Reload.Residue
import MeshControl.Proofs.Scp.Message
import MeshControl.Proofs.SendBuffer.Chunking
import MeshControl.Proofs.SendBuffer.Windows
import MeshControl.Proofs.Spec.Acceptance
import MeshControl.Proofs.Spec.Writing
import MeshControl.Proofs.Stream.Delivery
import MeshControl.Proofs.TagLoading
import MeshControl.Proofs.Vertex.FirstFill
import MeshControl.Proofs.Vertex.Specification
import MeshControl.Proofs.Vertex.Windows
import MeshControl.Provenance
import MeshControl.Region.Loader
import MeshControl.Scp.Message
import MeshControl.SendBuffer.Schedule
import MeshControl.Session
import MeshControl.Spec.Execution
import MeshControl.Stream.Streamer
import MeshControl.Tag
import MeshControl.TagLoading
import MeshControl.Text.Numeral
import MeshControl.Timing
import MeshControl.Transport
import MeshControl.Vertex.Basic
import MeshControl.Proofs.Region.Refusal
import MeshControl.Proofs.Vertex.Loading
import MeshControl.Proofs.Stream.Searching
import MeshControl.Proofs.Vertex.Endpoint
import MeshControl.Proofs.Stream.Progress
import MeshControl.Proofs.Key.Tightness
import MeshControl.Proofs.Key.Counting
import MeshControl.Proofs.Region.Extent
import MeshControl.Proofs.SendBuffer.Counting
import MeshControl.Proofs.Key.Settling
import MeshControl.Proofs.Core.Gathering
import MeshControl.Proofs.SendBuffer.Sizes
import MeshControl.Proofs.Archive.Making
import MeshControl.Proofs.Archive.Searching
import MeshControl.Proofs.Reload.Copies
import MeshControl.Proofs.Reload.Folders
