/-!
# Result codes of command replies

A reply opens with a code of its outcome. `0x80` reports success; the codes after it name the
ways in which a command can be refused.
-/

namespace MeshControl.Scp

/-- The code by which a core reports the outcome of a command. -/
abbrev ResultCode := UInt16

namespace ResultCode

/-- The command completed. -/
def ok : ResultCode := 0x80

/-- The command is not one the core knows. -/
def badCommand : ResultCode := 0x83

/-- Names of the known codes, from `0x80` on. -/
def names : List String :=
  ["RC_OK", "RC_LEN", "RC_SUM", "RC_CMD", "RC_ARG", "RC_PORT", "RC_TIMEOUT", "RC_ROUTE",
    "RC_CPU", "RC_DEAD", "RC_BUF", "RC_P2P_NOREPLY", "RC_P2P_REJECT", "RC_P2P_BUSY",
    "RC_P2P_TIMEOUT", "RC_PKT_TX"]

/-- The name of a code as reports show it. -/
def name (code : ResultCode) : String :=
  if code < ok then "RC_UNKNOWN" else names.getD (code.toNat - ok.toNat) "RC_UNKNOWN"

end ResultCode

end MeshControl.Scp
