import FieldSearch.Calendar.Digits
import FieldSearch.Calendar.Instant
import FieldSearch.Text.White

/-!
Layouts for dates and times without an offset. A number may have white space before it and has one or
two digits, a year up to four, or any number of them after a sign. A blank in a layout stands for any
white space or none. A layout reads the whole text or nothing.
-/

namespace FieldSearch.Calendar

namespace Layout

inductive Item
  | year | month | day | hour | minute | second
  | mark (c : Char)
  | gap
  deriving DecidableEq, Repr

/-- The numbers that a layout reads. What it does not mention is zero. -/
structure Numbers where
  year : Int := 0
  month : Nat := 0
  day : Nat := 0
  hour : Nat := 0
  minute : Nat := 0
  second : Nat := 0
  deriving DecidableEq, Repr

namespace Numbers

def date? (numbers : Numbers) : Option Date :=
  Date.of? numbers.year numbers.month numbers.day

def localTime? (numbers : Numbers) : Option LocalTime :=
  match numbers.date?, ClockTime.of? numbers.hour numbers.minute numbers.second 0 with
  | some date, some clock => some ⟨date, clock⟩
  | _, _ => none

end Numbers

/-- A year: up to four digits, or a sign and any number of digits. -/
def year? (s : List Char) : Option (Int × List Char) :=
  match s with
  | '-' :: r => (number? r.length r).map fun (n, q) => (-(n : Int), q)
  | '+' :: r => (number? r.length r).map fun (n, q) => ((n : Int), q)
  | _ => (number? 4 s).map fun (n, q) => ((n : Int), q)

/-- Reads one item from the front of a text. -/
def Item.read (item : Item) (numbers : Numbers) (s : List Char) : Option (Numbers × List Char) :=
  let two (set : Nat → Numbers) : Option (Numbers × List Char) :=
    (number? 2 (Text.trimStart s)).map fun (n, r) => (set n, r)
  match item with
  | .year => (year? (Text.trimStart s)).map fun (n, r) => ({ numbers with year := n }, r)
  | .month => two fun n => { numbers with month := n }
  | .day => two fun n => { numbers with day := n }
  | .hour => two fun n => { numbers with hour := n }
  | .minute => two fun n => { numbers with minute := n }
  | .second => two fun n => { numbers with second := n }
  | .mark c => (after? (· == c) s).map fun r => (numbers, r)
  | .gap => some (numbers, Text.trimStart s)

def readFrom : List Item → Numbers → List Char → Option Numbers
  | [], numbers, s => if s.isEmpty then some numbers else none
  | item :: items, numbers, s => (item.read numbers s).bind fun (n, r) => readFrom items n r

/-- The numbers in a text of this layout. -/
def read (layout : List Item) (s : List Char) : Option Numbers :=
  readFrom layout {} s

/-- Year, month and day with a mark between them. -/
def yearFirst (c : Char) : List Item :=
  [.year, .mark c, .month, .mark c, .day]

def dayFirst : List Item :=
  [.day, .mark '-', .month, .mark '-', .year]

def toMinute : List Item :=
  [.hour, .mark ':', .minute]

def toSecond : List Item :=
  toMinute ++ [.mark ':', .second]

/-- The layouts of dates, in the order in which they are tried. -/
def dates : List (List Item) :=
  [yearFirst '-', yearFirst '/', dayFirst]

/-- The layouts of local times, in the order in which they are tried. -/
def localTimes : List (List Item) :=
  [yearFirst '-' ++ [.gap] ++ toSecond, yearFirst '-' ++ [.gap] ++ toMinute,
    yearFirst '-' ++ [.mark 'T'] ++ toSecond, yearFirst '-' ++ [.mark 'T'] ++ toMinute,
    yearFirst '/' ++ [.gap] ++ toSecond, yearFirst '/' ++ [.gap] ++ toMinute]

/-- The date that the first fitting layout reads. -/
def date? (s : List Char) : Option Date :=
  dates.findSome? fun layout => (read layout s).bind Numbers.date?

/-- The local time that the first fitting layout reads. -/
def localTime? (s : List Char) : Option LocalTime :=
  localTimes.findSome? fun layout => (read layout s).bind Numbers.localTime?

end Layout

end FieldSearch.Calendar
