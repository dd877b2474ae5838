import LspWire.Proofs.References
import LspWire.Proofs.RoundTrip.Alike

/-!
# Types whose values are traced

In the unions of the protocol, scalars are told apart by their kind, and lists and objects by their
keys, but for five pairs of records. A type is traceable if its unions are so, or have a single
alternative, or are open enumerations. Fields have traceable types, and references stand for them if
they open nothing but enumerations.
-/

namespace LspWire.Protocol

variable {t : DataType} {ts us : List DataType}

/-! ## Conditions on unions -/

end LspWire.Protocol
