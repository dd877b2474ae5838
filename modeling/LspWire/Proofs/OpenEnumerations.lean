import LspWire.Proofs.Failures
import LspWire.Proofs.RoundTrip.Built

/-!
# Open enumerations

An open enumeration reads the members that the closed one reads, and keeps every other raw value of
the right kind as it is. So what it reads is settled by the members that belong to the surface, and
on a wider surface a raw value can become a member, but no member is lost.
-/

namespace LspWire

variable {R E : Type}

namespace Schema

variable {S : Schema R E} {σ τ : Surface} {e : E} {x : Json}

/-! ## The raw values of a surface -/

end Schema

namespace Protocol

variable {enabled : Bool} {version? : Option SpecVersion} {e : EnumName}

/-! ## Decoding -/

end Protocol

end LspWire
