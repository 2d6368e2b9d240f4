import Webcomic.Calendar.Stamp

/-!
# Date formats

A format is a text in which a percent sign starts a specifier. It is read into items first and
written for a date afterwards, and both steps can fail: a percent sign may start no known
specifier, and a known one may ask for a time of day or a time zone, which a date does not have.
No specifier is the beginning of another, so a format is cut into items in one way only.
-/

namespace Webcomic.Calendar

open Webcomic.Text

/-- The parts of a date that are written as numbers. -/
inductive NumberField where
  | year
  | century
  | yearOfCentury
  | isoYear
  | isoYearOfCentury
  | quarter
  | month
  | day
  | ordinal
  | isoWeek
  | sundayWeek
  | mondayWeek
  | weekdayFromMonday
  | weekdayFromSunday
deriving DecidableEq, Repr

/-- The parts of a date that are written as words. -/
inductive NameField where
  | month
  | monthShort
  | weekday
  | weekdayShort
deriving DecidableEq, Repr

/-- One item of a format. -/
inductive FormatItem where
  /-- A character that stands for itself. -/
  | literal (c : Char)
  | number (field : NumberField) (filler : Filler)
  | name (field : NameField)
  /-- A specifier for a time of day or a time zone. -/
  | clock
deriving DecidableEq, Repr

/-! ## Writing -/

def monthNames : List String :=
  ["January", "February", "March", "April", "May", "June", "July", "August", "September",
    "October", "November", "December"]

def weekdayNames : List String :=
  ["Monday", "Tuesday", "Wednesday", "Thursday", "Friday", "Saturday", "Sunday"]

/-- A number of at most 255 in two characters. The tens are counted on past the digit nine in
character order, so a century beyond 99 gets the character after it. -/
def twoPlaces (filler : Filler) (n : Nat) : List Char :=
  let tens :=
    if n / 10 = 0 then
      match filler with
      | .none => []
      | .zero => ['0']
      | .space => [' ']
    else
      [Char.ofNat ('0'.toNat + n / 10)]
  tens ++ [Char.ofNat ('0'.toNat + n % 10)]

/-- The last two digits of a year. -/
def lastTwoDigits (year : Int) : Nat :=
  (year % 100).toNat

/-- The text of a numeric part of a date. -/
def NumberField.text (d : Date) (filler : Filler) : NumberField → List Char
  | .year => yearText filler d.year
  | .century => twoPlaces filler (d.year / 100 % 256).toNat
  | .yearOfCentury => twoPlaces filler (lastTwoDigits d.year)
  | .isoYear => yearText filler d.isoWeek.1
  | .isoYearOfCentury => twoPlaces filler (lastTwoDigits d.isoWeek.1)
  | .quarter => digits ((d.month + 2) / 3)
  | .month => twoPlaces filler d.month
  | .day => twoPlaces filler d.day
  | .ordinal => padded filler 3 false d.ordinal
  | .isoWeek => twoPlaces filler d.isoWeek.2
  | .sundayWeek => twoPlaces filler (d.weekFrom 6)
  | .mondayWeek => twoPlaces filler (d.weekFrom 0)
  | .weekdayFromMonday => digits (d.weekday + 1)
  | .weekdayFromSunday => digits ((d.weekday + 1) % 7)

/-- The text of a named part of a date. -/
def NameField.text (d : Date) : NameField → List Char
  | .month => (monthNames.getD (d.month - 1) "").toList
  | .monthShort => (monthNames.getD (d.month - 1) "").toList.take 3
  | .weekday => (weekdayNames.getD d.weekday "").toList
  | .weekdayShort => (weekdayNames.getD d.weekday "").toList.take 3

/-- The text of an item for a date, if a date has what the item asks for. -/
def FormatItem.text? (d : Date) : FormatItem → Option (List Char)
  | .literal c => some [c]
  | .number field filler => some (field.text d filler)
  | .name field => some (field.text d)
  | .clock => none

/-! ## Reading -/

/-- The numeric specifiers and the filler each has by itself. -/
def numberSpecifiers : List (Char × NumberField × Filler) :=
  [('Y', .year, .zero), ('C', .century, .zero), ('y', .yearOfCentury, .zero),
    ('G', .isoYear, .zero), ('g', .isoYearOfCentury, .zero), ('q', .quarter, .zero),
    ('m', .month, .zero), ('d', .day, .zero), ('e', .day, .space), ('j', .ordinal, .zero),
    ('V', .isoWeek, .zero), ('U', .sundayWeek, .zero), ('W', .mondayWeek, .zero),
    ('u', .weekdayFromMonday, .zero), ('w', .weekdayFromSunday, .zero)]

/-- The characters that change the filler of the numeric specifier after them. -/
def fillerMarks : List (Char × Filler) :=
  [('-', .none), ('0', .zero), ('_', .space)]

/-- Month, day and year of the century between slashes. -/
def slashedItems : List FormatItem :=
  [.number .month .zero, .literal '/', .number .day .zero, .literal '/',
    .number .yearOfCentury .zero]

/-- The specifiers that are not one number: names, composites, characters written out. -/
def otherSpecifiers : List (Char × List FormatItem) :=
  [('A', [.name .weekday]), ('a', [.name .weekdayShort]), ('B', [.name .month]),
    ('b', [.name .monthShort]), ('h', [.name .monthShort]), ('D', slashedItems),
    ('x', slashedItems),
    ('F', [.number .year .zero, .literal '-', .number .month .zero, .literal '-',
      .number .day .zero]),
    ('v', [.number .day .space, .literal '-', .name .monthShort, .literal '-',
      .number .year .zero]),
    ('n', [.literal '\n']), ('t', [.literal '\t']), ('%', [.literal '%'])]

/-- The spellings of the specifiers for a time of day or a time zone. -/
def clockSpecifiers : List (List Char) :=
  ["H", "I", "M", "P", "R", "S", "T", "X", "Z", "c", "f", "k", "l", "p", "r", "s", "z", "+", "3f",
    "6f", "9f", ".f", ".3f", ".6f", ".9f", ":z", "::z", ":::z", "#z"].map String.toList

/-- Every specifier: how it is spelled after the percent sign, and its items. -/
def specifiers : List (List Char × List FormatItem) :=
  numberSpecifiers.map (fun (c, field, filler) => ([c], [.number field filler]))
    ++ fillerMarks.flatMap (fun (mark, filler) =>
      numberSpecifiers.map fun (c, field, _) => ([mark, c], [.number field filler]))
    ++ otherSpecifiers.map (fun (c, items) => ([c], items))
    ++ clockSpecifiers.map (fun spelling => (spelling, [.clock]))

/-- The specifier at the head of a text, with the text after it. -/
def specifierAt? (cs : List Char) : Option (List FormatItem × List Char) :=
  specifiers.findSome? fun (spelling, items) =>
    if spelling.isPrefixOf cs then some (items, cs.drop spelling.length) else none

theorem length_of_specifierAt? {cs rest : List Char} {items : List FormatItem}
    (h : specifierAt? cs = some (items, rest)) : rest.length ≤ cs.length := by
  obtain ⟨⟨spelling, _⟩, -, h⟩ := List.exists_of_findSome?_eq_some h
  simp only [Option.ite_none_right_eq_some, Option.some.injEq, Prod.mk.injEq] at h
  obtain ⟨-, -, rfl⟩ := h
  simp

/-- The items of a format, or nothing if a percent sign starts no specifier. -/
def formatItems? : List Char → Option (List FormatItem)
  | [] => some []
  | c :: cs =>
    if c = '%' then
      match h : specifierAt? cs with
      | none => none
      | some (items, rest) =>
        have := length_of_specifierAt? h
        (formatItems? rest).map (items ++ ·)
    else
      (formatItems? cs).map (.literal c :: ·)
termination_by cs => cs.length

/-- A date written in a format. -/
def Date.format? (d : Date) (format : String) : Option String := do
  let items ← formatItems? format.toList
  let texts ← items.mapM (FormatItem.text? d)
  return String.ofList texts.flatten

/-- The day in words, as the image of a comic is described. -/
def Date.inWords (d : Date) : String :=
  let month := String.ofList (NameField.month.text d)
  let day := String.ofList (NumberField.day.text d .none)
  let year := String.ofList (NumberField.year.text d .zero)
  s!"{month} {day}, {year}"

end Webcomic.Calendar
