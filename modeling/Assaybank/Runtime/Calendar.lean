import Assaybank.Runtime.NumberText

/-!
Owns the civil calendar in UTC: the date of a day counted from the epoch, the count of a date, and
`toISOString`.
-/

namespace Assaybank.Runtime

/-- A day of the Gregorian calendar. -/
structure CivilDate where
  year : Int
  month : Int
  day : Int
deriving DecidableEq

/-- A year of an era of four hundred years, and a day of that year. -/
structure EraDay where
  year : Int
  day : Int

/-- Years begin in March, so the leap day comes last: in a year, in four years, in a century and in an
era. -/
def eraDay (dayOfEra : Int) : EraDay :=
  let century := min 3 (dayOfEra / 36524)
  let dayOfCentury := dayOfEra - century * 36524
  let cycle := dayOfCentury / 1461
  let dayOfCycle := dayOfCentury - cycle * 1461
  let year := min 3 (dayOfCycle / 365)
  ⟨century * 100 + cycle * 4 + year, dayOfCycle - year * 365⟩

/-- The date of a day of an era. -/
def civilOfEra (era : Int) (inEra : EraDay) : CivilDate :=
  let shiftedMonth := (5 * inEra.day + 2) / 153
  let month := if shiftedMonth < 10 then shiftedMonth + 3 else shiftedMonth - 9
  ⟨inEra.year + era * 400 + (if month ≤ 2 then 1 else 0), month,
    inEra.day - (153 * shiftedMonth + 2) / 5 + 1⟩

/-- The day that lies some days from the epoch. -/
def civilFromDays (days : Int) : CivilDate :=
  civilOfEra ((days + 719468) / 146097) (eraDay ((days + 719468) % 146097))

/-- How many days from the epoch a day lies. -/
def daysFromCivil (date : CivilDate) : Int :=
  let year := date.year - (if date.month ≤ 2 then 1 else 0)
  let yearOfEra := year % 400
  let shiftedMonth := if date.month > 2 then date.month - 3 else date.month + 9
  let dayOfYear := (153 * shiftedMonth + 2) / 5 + date.day - 1
  year / 400 * 146097 + (yearOfEra * 365 + yearOfEra / 4 - yearOfEra / 100 + dayOfYear) - 719468

/-! ### Text -/

/-- A number in a field of some width. -/
def fieldText (width : Nat) (n : Int) : JsString :=
  padStart width (unit '0') (natText n.toNat)

/-- The year of `toISOString`: four digits, or a sign and six. -/
def isoYear (year : Int) : JsString :=
  if 0 ≤ year ∧ year ≤ 9999 then fieldText 4 year
  else js (if year < 0 then "-" else "+") ++ fieldText 6 year.natAbs

/-- `toISOString` of a valid date, which is a number of milliseconds from the epoch. -/
def toISOString (millis : Int) : JsString :=
  let date := civilFromDays (millis / 86400000)
  let inDay := millis % 86400000
  isoYear date.year ++ js "-" ++ fieldText 2 date.month ++ js "-" ++ fieldText 2 date.day ++
    js "T" ++ fieldText 2 (inDay / 3600000) ++ js ":" ++ fieldText 2 (inDay / 60000 % 60) ++
      js ":" ++ fieldText 2 (inDay / 1000 % 60) ++ js "." ++ fieldText 3 (inDay % 1000) ++ js "Z"

example : toISOString 1789552800000 = js "2026-09-16T10:00:00.000Z" := by decide +kernel

end Assaybank.Runtime
