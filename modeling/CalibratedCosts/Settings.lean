import CalibratedCosts.Datum.Conversion
import CalibratedCosts.Text.Lines

/-! # Settings

    The settings of a calibration run, as the environment gives them.  What
    the environment leaves open has a default.
-/

namespace CalibratedCosts

/-! ## Section 1: environment -/

/-- The variables of the environment. -/
abbrev Environment := List (String × String)

/-- The value of a variable. -/
def Environment.get? (env : Environment) (name : String) : Option String :=
  (env.find? fun e => e.1 == name).map Prod.snd

/-! ## Section 2: defaults -/

/-- The input sizes that are benchmarked if no others are asked for. -/
def defaultSizes : List Int := [1, 16, 64, 256, 1024, 4096, 16384]

/-- The number of benchmark runs at each size if no other is asked for. -/
def defaultIterations : Int := 5

/-- The store that is used if no other is asked for. -/
def defaultDatabaseUrl : String := "sqlite:///cost_models.db"

/-- The artifact that is used if no other is asked for. -/
def defaultTablePath : String := "cost_models.json"

/-- The threshold above which the quality of a fit needs no review. -/
def defaultThreshold : Binary64 := Binary64.ofRat (9 / 10)

/-! ## Section 3: settings -/

/-- The settings of a calibration run.  The number of workers has no bearing
    on the results. -/
structure Settings where
  databaseUrl : String
  tablePath : String
  workers : Option Int
  reviewThreshold : Binary64
  iterations : Int
  sizes : List Int

/-- Why the environment gives no settings. -/
inductive SettingsFault where
  | integer (fault : IntegerFault)
  | numeral (fault : NumeralFault)

def SettingsFault.message : SettingsFault → String
  | .integer fault => fault.message
  | .numeral fault => fault.message

/-- The integers of a list with commas.  Parts that are blank count for
    nothing. -/
def integerList (s : String) : Except IntegerFault (List Int) :=
  let parts := (Text.splitAt ',' s.toList).map String.ofList
  (parts.filter fun part => !Text.allBlank part).mapM fun part : String =>
    integerOfText (Text.quoted part) part

/-- Integers in order. -/
def sortIntegers (ns : List Int) : List Int := ns.mergeSort fun a b => decide (a ≤ b)

namespace Settings

/-- The integer of a variable, unless it is missing or empty. -/
def integerVariable (env : Environment) (name : String) : Except IntegerFault (Option Int) :=
  match env.get? name with
  | none | some "" => .ok none
  | some s => (integerOfText (Text.quoted s) s).map some

/-- The sizes that the environment asks for. -/
def sizesOf (env : Environment) : Except IntegerFault (List Int) :=
  match env.get? "CALIBRATION_SIZES" with
  | none | some "" => .ok defaultSizes
  | some s => integerList s

/-- The threshold that the environment asks for. -/
def thresholdOf (env : Environment) : Except NumeralFault Binary64 :=
  match env.get? "CALIBRATION_REVIEW_THRESHOLD" with
  | none => .ok defaultThreshold
  | some s => doubleOfText s

/-- The settings that the environment gives. -/
def ofEnvironment (env : Environment) : Except SettingsFault Settings := do
  let sizes ← (sizesOf env).mapError .integer
  let workers ← (integerVariable env "CALIBRATION_WORKERS").mapError .integer
  let threshold ← (thresholdOf env).mapError .numeral
  let iterations ← (integerVariable env "CALIBRATION_ITERATIONS").mapError .integer
  .ok
    { databaseUrl := (env.get? "DATABASE_URL").getD defaultDatabaseUrl
      tablePath := (env.get? "COST_TABLE_PATH").getD defaultTablePath
      workers
      reviewThreshold := threshold
      iterations := iterations.getD defaultIterations
      sizes := sortIntegers sizes }

end Settings
end CalibratedCosts
