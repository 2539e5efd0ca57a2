import FleetLedger.Text.Blank
import FleetLedger.Text.Ipv4

/-!
# Facts about the host

A node introduces itself with what its host knows: a machine identifier kept in a file, the host name
the system reports, and the address from which traffic leaves.  Each fact may be unavailable, and a
text counts as unavailable too when it is not UTF-8 or nothing is left of it after trimming.
-/

namespace FleetLedger

/-- What a host answers. -/
structure Host where
  /-- The content of the machine identifier file. -/
  machineIdFile : Option (List UInt8) := none
  /-- The buffer in which the system leaves the host name. -/
  nameBuffer : Option (List UInt8) := none
  /-- The address of the route by which traffic leaves. -/
  outbound : Option Ipv4 := none

namespace Host

/-- The text of bytes, trimmed. -/
def textOf? (bytes : List UInt8) : Option String :=
  (String.fromUTF8? ⟨bytes.toArray⟩).bind Blank.trimmed?

/-- The machine identifier. -/
def machineId? (h : Host) : Option String := h.machineIdFile.bind textOf?

/-- The host name; in its buffer it ends at the first zero byte. -/
def hostname? (h : Host) : Option String :=
  h.nameBuffer.bind fun bytes => textOf? (bytes.takeWhile (· != 0))

/-- The address other machines see. -/
def outboundIp? (h : Host) : Option String := h.outbound.map Ipv4.text

end Host

end FleetLedger
