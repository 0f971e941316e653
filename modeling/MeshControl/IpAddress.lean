/-!
# Internet addresses of hosts and boards

Four bytes, written in dotted decimal.
-/

namespace MeshControl

/-- An internet address of version 4. -/
structure IpAddress where
  a : UInt8
  b : UInt8
  c : UInt8
  d : UInt8
  deriving DecidableEq, Repr

namespace IpAddress

/-- The address by which a host reaches itself. -/
def loopback : IpAddress := ⟨127, 0, 0, 1⟩

instance : ToString IpAddress := ⟨fun ip => s!"{ip.a}.{ip.b}.{ip.c}.{ip.d}"⟩

end IpAddress

end MeshControl
