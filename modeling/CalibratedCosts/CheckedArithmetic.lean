import CalibratedCosts.Numeral.Integer
import CalibratedCosts.Text.Quoted

/-! # Checked arithmetic

    Arithmetic on fixed-width integers that refuses results outside the
    width instead of wrapping.

    * A **kind** is a width with or without a sign.
    * An **operation** takes two operands of one kind; for powers and shifts
      the second operand is a 32-bit unsigned integer.
    * The result is exact, or the operation overflows.  Only a left shift is
      taken modulo the width.
    * An overflow is reported with both operands, so that it cannot be reported
      where one of them is beyond the digit limit.
-/

namespace CalibratedCosts

/-! ## Section 1: kinds -/

/-- A fixed-width integer type. -/
structure NumericKind where
  name : String
  bits : Nat
  signed : Bool
  deriving DecidableEq

namespace NumericKind

/-- The kind of a given width.  There is none with fewer bits than zero, or than
    one if it is signed. -/
def ofWidth? (name : String) (bits : Int) (signed : Bool) : Option NumericKind :=
  if bits < (if signed then 1 else 0) then none else some ⟨name, bits.toNat, signed⟩

/-- The smallest value. -/
def minValue (k : NumericKind) : Int := if k.signed then -Int.pow 2 (k.bits - 1) else 0

/-- The largest value. -/
def maxValue (k : NumericKind) : Int :=
  if k.signed then Int.pow 2 (k.bits - 1) - 1 else Int.pow 2 k.bits - 1

/-- The integer is a value of the kind. -/
def contains (k : NumericKind) (n : Int) : Bool :=
  decide (k.minValue ≤ n) && decide (n ≤ k.maxValue)

/-- The kinds that have a name of their own. -/
def named : List NumericKind :=
  [⟨"u64", 64, false⟩, ⟨"i64", 64, true⟩, ⟨"u128", 128, false⟩, ⟨"i128", 128, true⟩,
   ⟨"u256", 256, false⟩, ⟨"i256", 256, true⟩]

def ofName? (name : String) : Option NumericKind := named.find? (·.name = name)

end NumericKind

/-! ## Section 2: operations -/

/-- A checked binary operation. -/
inductive CheckedOp where
  | add
  | sub
  | mul
  | div
  | rem
  | pow
  | shl
  | shr
  deriving DecidableEq

namespace CheckedOp

def all : List CheckedOp := [.add, .sub, .mul, .div, .rem, .pow, .shl, .shr]

def name : CheckedOp → String
  | .add => "add"
  | .sub => "sub"
  | .mul => "mul"
  | .div => "div"
  | .rem => "rem"
  | .pow => "pow"
  | .shl => "shl"
  | .shr => "shr"

def ofName? (name : String) : Option CheckedOp := all.find? (·.name = name)

/-- The second operand is a 32-bit unsigned integer. -/
def takesWord : CheckedOp → Bool
  | .pow | .shl | .shr => true
  | _ => false

end CheckedOp

/-- The quotient of the absolute values, with the sign of the exact
    quotient. -/
def truncatedQuotient (lhs rhs : Int) : Option Int :=
  if rhs = 0 then none
  else
    let quotient : Int := (lhs.natAbs / rhs.natAbs : Nat)
    some (if decide (lhs < 0) = decide (rhs < 0) then quotient else -quotient)

/-- What a truncated division leaves. -/
def truncatedRemainder (lhs rhs : Int) : Option Int :=
  (truncatedQuotient lhs rhs).map fun quotient => lhs - rhs * quotient

/-- The bits that two integers have in common.  A negative integer has all
    the bits from some place on. -/
def commonBits : Int → Int → Int
  | .ofNat m, .ofNat n => .ofNat (m &&& n)
  | .ofNat m, .negSucc n => .ofNat (m ^^^ (m &&& n))
  | .negSucc m, .ofNat n => .ofNat (n ^^^ (n &&& m))
  | .negSucc m, .negSucc n => .negSucc (m ||| n)

/-- The value of a kind whose lowest bits are those of an integer. -/
def NumericKind.wrap (k : NumericKind) (n : Int) : Int :=
  let low := commonBits n (Int.pow 2 k.bits - 1)
  if k.signed && decide (k.maxValue < low) then low - Int.pow 2 k.bits else low

/-- The unrestricted result of an operation, if there is one. -/
def CheckedOp.apply (op : CheckedOp) (k : NumericKind) (lhs rhs : Int) : Option Int :=
  match op with
  | .add => some (lhs + rhs)
  | .sub => some (lhs - rhs)
  | .mul => some (lhs * rhs)
  | .div => truncatedQuotient lhs rhs
  | .rem => truncatedRemainder lhs rhs
  | .pow => if rhs < 0 then none else some (Int.pow lhs rhs.toNat)
  | .shl => if 0 ≤ rhs ∧ rhs < k.bits then some (k.wrap (lhs * Int.pow 2 rhs.toNat)) else none
  | .shr => if 0 ≤ rhs ∧ rhs < k.bits then some (lhs / Int.pow 2 rhs.toNat) else none

/-! ## Section 3: checking -/

/-- Which operand. -/
inductive Side where
  | lhs
  | rhs
  deriving DecidableEq

def Side.name : Side → String
  | .lhs => "lhs"
  | .rhs => "rhs"

/-- Why an operation has no result. -/
inductive ArithmeticError where
  | unknownName (name : String)
  | noWidth
  | invalidOperand (side : Side) (value : Int) (kind : String)
  | overflow (kind operation : String) (lhs rhs : Int)
  | unwritable

def ArithmeticError.message : ArithmeticError → String
  | .unknownName name => s!"Unknown numeric kind or operation: {Text.quoted name}"
  | .noWidth => "negative shift count"
  | .invalidOperand side value kind =>
    if Numeral.isWritable value then s!"{side.name} {value} is not a valid {kind}"
    else Numeral.tooLongToWrite
  | .overflow kind operation lhs rhs => s!"overflow has occurred: {kind}.{operation}({lhs}, {rhs})"
  | .unwritable => Numeral.tooLongToWrite

/-- The overflow of an operation, if its operands can be written. -/
def CheckedOp.overflow (op : CheckedOp) (k : NumericKind) (lhs rhs : Int) : ArithmeticError :=
  if Numeral.isWritable lhs && Numeral.isWritable rhs then .overflow k.name op.name lhs rhs
  else .unwritable

/-- The kind of an operation's second operand. -/
def CheckedOp.rhsKind (op : CheckedOp) (k : NumericKind) : NumericKind :=
  if op.takesWord then ⟨"u32", 32, false⟩ else k

/-- A power that is certain to overflow, so that it need not be computed. -/
def CheckedOp.certainOverflow (op : CheckedOp) (k : NumericKind) (lhs rhs : Int) : Bool :=
  op = .pow && decide ((k.bits : Int) < rhs) && decide (1 < lhs.natAbs)

/-- Applies an operation to two operands of a kind. -/
def checkedBinary (k : NumericKind) (op : CheckedOp) (lhs rhs : Int) :
    Except ArithmeticError Int :=
  let rhsKind := op.rhsKind k
  if !k.contains lhs then .error (.invalidOperand .lhs lhs k.name)
  else if !rhsKind.contains rhs then .error (.invalidOperand .rhs rhs rhsKind.name)
  -- From here on the power is small enough to be computed.
  else if op.certainOverflow k lhs rhs then .error (op.overflow k lhs rhs)
  else
    match op.apply k lhs rhs with
    | none => .error (op.overflow k lhs rhs)
    | some result => if k.contains result then .ok result else .error (op.overflow k lhs rhs)

/-- Applies an operation to two operands of a kind that is given by its width.
    That a negative operand is no unsigned integer is clear without it. -/
def checkedOfWidth (name : String) (bits : Int) (signed : Bool) (op : CheckedOp) (lhs rhs : Int) :
    Except ArithmeticError Int :=
  match NumericKind.ofWidth? name bits signed with
  | some k => checkedBinary k op lhs rhs
  | none => .error (if !signed && lhs < 0 then .invalidOperand .lhs lhs name else .noWidth)

/-- Applies the operation of a given name to two operands of the kind of a
    given name. -/
def checkedByName (kind operation : String) (lhs rhs : Int) : Except ArithmeticError Int :=
  match NumericKind.ofName? kind, CheckedOp.ofName? operation with
  | none, _ => .error (.unknownName kind)
  | some _, none => .error (.unknownName operation)
  | some k, some op => checkedBinary k op lhs rhs

end CalibratedCosts
