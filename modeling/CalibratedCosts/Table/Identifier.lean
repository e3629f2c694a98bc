import CalibratedCosts.Datum

/-! # Operation identifiers

    An operation is identified by a text that is not empty.  A host primitive
    and its identifier are the same operation.
-/

namespace CalibratedCosts

/-- A datum that identifies no operation.  It is refused whatever it is; only
    how it is shown depends on its digits and on how deep it is nested. -/
structure IdentifierFault where
  datum : Datum

def IdentifierFault.message [Datum.CallRoom] (fault : IdentifierFault) : String :=
  match fault.datum.shown? with
  | .ok shown => s!"Invalid operation identifier: {shown}"
  | .error fault => fault.message

/-- The identifier of the operation that a datum names. -/
def Datum.identifier? (d : Datum) : Option Text :=
  match d.asText? with
  | some name => if name = "" then none else some name
  | none => none

/-- The identifier of the operation that a datum names, or a fault. -/
def Datum.identifier (d : Datum) : Except IdentifierFault Text :=
  match d.identifier? with
  | some name => .ok name
  | none => .error ⟨d⟩

theorem Datum.identifier?_ne_empty {d : Datum} {name : Text} (h : d.identifier? = some name) :
    name ≠ "" := by
  unfold Datum.identifier? at h
  split at h
  · split at h
    · cases h
    · cases h; assumption
  · cases h

end CalibratedCosts
