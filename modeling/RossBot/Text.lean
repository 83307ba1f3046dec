import RossBot.Money

/-!
# What is printed

The two formats of the standard library that a message or a row is built from:
`f"{x:.2f}"` of a `Decimal`, and `isoformat()` of a `date`. A date is its number of
days since 1 January 1970 in the proleptic Gregorian calendar.
-/

namespace RossBot

/-- A number, filled up with zeros to `width` digits. -/
def padded (width n : ℕ) : String :=
  String.ofList (List.replicate (width - (Nat.toDigits 10 n).length) '0' ++ Nat.toDigits 10 n)

/-- `f"{x:.2f}"`. -/
def fixed2 (x : ℚ) : String :=
  let hundredths := (roundHalfEven (x * 100)).natAbs
  (if x < 0 then "-" else "") ++ toString (hundredths / 100) ++ "." ++ padded 2 (hundredths % 100)

/-- The year, the month and the day of a date. -/
def civil (days : ℤ) : ℤ × ℤ × ℤ :=
  -- years are counted from 1 March, in eras of 400
  let shifted := days + 719468
  let era := shifted / 146097
  let dayOfEra := shifted % 146097
  let yearOfEra := (dayOfEra - dayOfEra / 1460 + dayOfEra / 36524 - dayOfEra / 146096) / 365
  let dayOfYear := dayOfEra - (365 * yearOfEra + yearOfEra / 4 - yearOfEra / 100)
  let monthFromMarch := (5 * dayOfYear + 2) / 153
  let day := dayOfYear - (153 * monthFromMarch + 2) / 5 + 1
  let month := if monthFromMarch < 10 then monthFromMarch + 3 else monthFromMarch - 9
  (yearOfEra + 400 * era + (if month ≤ 2 then 1 else 0), month, day)

/-- `date.isoformat()`. -/
def isoDate (days : ℤ) : String :=
  let (year, month, day) := civil days
  padded 4 year.toNat ++ "-" ++ padded 2 month.toNat ++ "-" ++ padded 2 day.toNat

example : [isoDate (-1), isoDate 0, isoDate 11016, isoDate 20459] =
    ["1969-12-31", "1970-01-01", "2000-02-29", "2026-01-06"] := by decide +kernel

example : [fixed2 (1 / 8), fixed2 (-12345 / 10), fixed2 (7 / 100)] =
    ["0.12", "-1234.50", "0.07"] := by decide +kernel

end RossBot
