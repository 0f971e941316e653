/-!
# Commands of the monitor cores

The monitor on every chip knows three commands, all about its multicast routing tables.
-/

namespace MeshControl.Scp

/-- The number of a command on the wire. -/
abbrev Opcode := UInt16

/-- A command of the monitor. -/
inductive Command where
  /-- Install the fixed system table. -/
  | loadSystemRoutes
  /-- Install the application table. -/
  | loadApplicationRoutes
  /-- Keep the application table that is loaded. -/
  | saveApplicationRoutes
  deriving DecidableEq, Repr

namespace Command

/-- The number of a command. -/
def opcode : Command → Opcode
  | .saveApplicationRoutes => 6
  | .loadApplicationRoutes => 7
  | .loadSystemRoutes => 8

/-- The command of a number, if it is one the monitor knows. -/
def ofOpcode? (opcode : Opcode) : Option Command :=
  if opcode = 6 then some .saveApplicationRoutes
  else if opcode = 7 then some .loadApplicationRoutes
  else if opcode = 8 then some .loadSystemRoutes
  else none

/-- What a command does, in words. -/
def description : Command → String
  | .loadSystemRoutes => "load system multicast routes"
  | .loadApplicationRoutes => "load application multicast routes"
  | .saveApplicationRoutes => "save application multicast routes"

end Command

end MeshControl.Scp
