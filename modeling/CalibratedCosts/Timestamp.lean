import CalibratedCosts.Numeral.Integer

/-! # Timestamps

    A moment in universal time as text: date and time of the Gregorian
    calendar with a fraction in millionths, which is left out if it is zero.
-/

namespace CalibratedCosts

/-- A moment: seconds since the start of 1970, and millionths. -/
structure Timestamp where
  seconds : Int
  millionths : Nat
  deriving DecidableEq

namespace Timestamp

/-- A date of the Gregorian calendar. -/
structure Date where
  year : Int
  month : Int
  day : Int
  deriving DecidableEq

/-- The date a number of days after the first day of 1970.  Years are counted
    from March, so that the leap day is the last day of its year. -/
def dateOf (days : Int) : Date :=
  let shifted := days + 719468
  let era := shifted / 146097
  let dayOfEra := shifted % 146097
  let yearOfEra :=
    (dayOfEra - dayOfEra / 1460 + dayOfEra / 36524 - dayOfEra / 146096) / 365
  let dayOfYear := dayOfEra - (365 * yearOfEra + yearOfEra / 4 - yearOfEra / 100)
  let fromMarch := (5 * dayOfYear + 2) / 153
  let month := if fromMarch < 10 then fromMarch + 3 else fromMarch - 9
  let year := yearOfEra + era * 400
  { year := if month ≤ 2 then year + 1 else year
    month
    day := dayOfYear - (153 * fromMarch + 2) / 5 + 1 }

example : dateOf 0 = ⟨1970, 1, 1⟩ ∧ dateOf 19722 = ⟨2023, 12, 31⟩ ∧ dateOf 19723 = ⟨2024, 1, 1⟩
    ∧ dateOf 19782 = ⟨2024, 2, 29⟩ ∧ dateOf 19783 = ⟨2024, 3, 1⟩ := by decide

/-- A number in decimal with zeros before it. -/
def digits (width : Nat) (n : Int) : String :=
  let s := toString n.toNat
  String.ofList (List.replicate (width - s.length) '0') ++ s

def text (t : Timestamp) : String :=
  let date := dateOf (t.seconds / 86400)
  let second := t.seconds % 86400
  let fraction := if t.millionths = 0 then "" else "." ++ digits 6 t.millionths
  s!"{digits 4 date.year}-{digits 2 date.month}-{digits 2 date.day}T"
    ++ s!"{digits 2 (second / 3600)}:{digits 2 (second / 60 % 60)}:{digits 2 (second % 60)}"
    ++ fraction ++ "+00:00"

theorem text_ne_empty (t : Timestamp) : t.text ≠ "" := by
  intro h
  have hzone : "+00:00" = "" := (String.append_eq_empty_iff.1 h).2
  exact absurd hzone (by decide)

end Timestamp
end CalibratedCosts
