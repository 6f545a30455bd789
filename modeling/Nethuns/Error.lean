import Mathlib.Data.Nat.Notation

/-!
# Errors of the socket operations

The error type that all backends return. An `io::Error` is represented by its message; the
variants that wrap the errors of `netmap_rs` and `pcap` are not raised by the operations
modelled here.
-/

namespace Nethuns

/-- `errors::Error`. -/
inductive Error
  | noPacket
  | noMemory
  | tooBigPacket (size : ℕ)
  | generic (message : String)
deriving DecidableEq, Repr

end Nethuns
