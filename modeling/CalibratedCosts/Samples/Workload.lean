import CalibratedCosts.CheckedArithmetic
import CalibratedCosts.Digest.Sha256
import CalibratedCosts.Json.Reader
import CalibratedCosts.Samples.Benchmark

/-! # Workloads

    The work that is timed for each measured host primitive.  A workload is a
    pure function of its input; its value only shows that the work was done.
    The primitives on elliptic curves are stood for by the modular powers that
    dominate them.
-/

namespace CalibratedCosts.Samples

/-- A prime just below `2 ^ 255`. -/
def fieldPrime : Nat := Nat.pow 2 255 - 19

/-- A power in the prime field, by its exponent in binary. -/
def fieldPower (base : Nat) : (bits exponent : Nat) → Nat
  | 0, _ => 1
  | bits + 1, exponent =>
    let half := fieldPower base bits (exponent / 2)
    half * half * (if exponent % 2 = 1 then base else 1) % fieldPrime

/-- The next state of a linear congruential generator. -/
def nextState (state : Nat) : Nat := (6364136223846793005 * state + 1442695040888963407) % Nat.pow 2 64

/-- A number of drawn states. -/
def draw : (count state : Nat) → List Nat
  | 0, _ => []
  | count + 1, state => nextState state :: draw count (nextState state)

/-- Bytes for an input of the given size. -/
def inputBytes (size : Nat) : List UInt8 :=
  (draw size size).map fun state => UInt8.ofNat (state / Nat.pow 2 32)

/-- Numbers for an input of the given size. -/
def inputList (size : Nat) : Json.Value :=
  .list ((draw size size).map fun state => .whole (state / Nat.pow 2 32 : Nat))

/-- Does the work of a host primitive on an input of the given size. -/
def workload (o : HostOperation) (size : Nat) : Nat :=
  match o with
  | .computeSha256Hash => (Digest.Sha256.hexDigest (inputBytes size)).length
  | .verifyEd25519Sig | .computeEcdsaSecp256k1Sig =>
    let hash := Digest.Sha256.hexDigest (inputBytes size)
    fieldPower hash.length 255 (fieldPrime - 2)
  | .computeEd25519PubKey => fieldPower 9 255 (fieldPrime - 2)
  | .hostMemAlloc => (List.replicate size (0 : UInt8)).length
  | .hostMemCpy => ((inputBytes size).map id).length
  | .hostMemCmp => if inputBytes size = inputBytes size then 1 else 0
  | .valSer => (inputList size).compact.length
  | .valDeser =>
    match Json.read .lenient (inputList size).compact.toList with
    | .ok _ => 1
    | .error _ => 0
  | .prngDraw => (draw size size).length
  | _ =>
    match checkedByName "u256" "mul" (Int.pow 2 127) (Int.pow 2 127) with
    | .ok n => n.toNat
    | .error _ => 0

/-- The runs of a benchmark: the operations with their sizes, in the order in
    which a source measures them. -/
def plannedRuns (names : List String) (sizes : List Int) (iterations : Nat) :
    List (HostOperation × Nat) :=
  let measured :=
    if names.isEmpty then measuredOperations
    else names.filterMap fun name => measuredOperations.find? (·.1.identifier == name)
  measured.flatMap fun (o, fixedSize) =>
    (if fixedSize then [0] else sizes).flatMap fun size => List.replicate iterations (o, size.toNat)

end CalibratedCosts.Samples
