import Webcomic.Calendar.Date
import Webcomic.Text.Decimal

/-!
# Datestamps

The eight digits `YYYYMMDD` that comic files and daily pages carry in their names. Reading accepts
exactly the stamps of real days; a stamp is also the text a date is shown as, and years that do
not fit four digits are shown with as many as they need.
-/

namespace Webcomic.Calendar

open Webcomic.Text

/-- A year in full: four digits from 0 to 9999, and otherwise a sign and at least four digits. -/
def yearText (filler : Filler) (year : Int) : List Char :=
  if 0 ≤ year ∧ year ≤ 9999 then padded filler 4 false year else padded filler 5 true year

namespace Date

/-- The day a datestamp names: eight ASCII digits, four for the year, two for the month and two
for the day. -/
def ofStamp? (stamp : String) : Option Date :=
  let cs := stamp.toList
  if cs.length = 8 ∧ cs.all Char.isDigit then
    ofParts? (digitsValue (cs.take 4)) (digitsValue ((cs.drop 4).take 2)) (digitsValue (cs.drop 6))
  else
    none

/-- The datestamp of a day, as file names carry it. -/
def stamp (d : Date) : String :=
  String.ofList (yearText .zero d.year) ++ zeroPadded 2 d.month ++ zeroPadded 2 d.day

/-- The parts of a day, whether or not it exists, as messages show it. -/
def partsText (year : Int) (month day : Nat) : String :=
  zeroPadded 4 year ++ zeroPadded 2 month ++ zeroPadded 2 day

/-- A day as messages show it. -/
def display (d : Date) : String :=
  partsText d.year d.month d.day

instance : ToString Date := ⟨display⟩

end Date

end Webcomic.Calendar
