/-!
# Errors of the `tss` package

A round reports an error as a `*tss.Error`: the cause and the parties it blames.
-/

namespace MpcLib.Tss

/-- `*tss.Error`: a cause and the culprits' party indices. -/
structure Error where
  Cause : String
  Culprits : List Nat
  deriving DecidableEq, Repr

/-- Modelled from the spec: `round.WrapError(err, culprits...)` of a protocol's round base
(not in the source) wraps the cause with the offending peers (§7). -/
def WrapError (err : String) (culprits : List Nat) : Error := ⟨err, culprits⟩

end MpcLib.Tss
