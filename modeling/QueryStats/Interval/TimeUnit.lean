import QueryStats.Text.Blank

/-!
# Units of time

The unit of a time bucket is written in full, in the plural or abbreviated, in letters of either
case; only `m` and `M` differ, for the minute and the month.  The units up to the week have a fixed
width, the longer ones follow the calendar.
-/

namespace QueryStats

inductive TimeUnit where
  | millisecond
  | second
  | minute
  | hour
  | day
  | week
  | month
  | quarter
  | year
  deriving DecidableEq, Repr

namespace TimeUnit

/-- The units, from short to long. -/
def all : List TimeUnit :=
  [millisecond, second, minute, hour, day, week, month, quarter, year]

/-- The spellings of a unit that do not depend on case, in lower case. -/
def spellings : TimeUnit → List String
  | millisecond => ["ms", "millisecond", "milliseconds"]
  | second => ["s", "sec", "second", "seconds"]
  | minute => ["min", "minute", "minutes"]
  | hour => ["h", "hour", "hours"]
  | day => ["d", "day", "days"]
  | week => ["w", "week", "weeks"]
  | month => ["month", "months"]
  | quarter => ["q", "quarter", "quarters"]
  | year => ["y", "year", "years"]

/-- The unit that a text spells, white space around it left out. -/
def ofChars? (text : List Char) : Option TimeUnit :=
  let t := Text.trim text
  if t = ['M'] then some month
  else if t = ['m'] then some minute
  else all.find? fun u => (u.spellings.map String.toList).contains (t.map Char.toLower)

/-- The unit that a text spells, white space around it left out. -/
def ofText? (text : String) : Option TimeUnit := ofChars? text.toList

/-- The width of a unit in milliseconds; `none` for the units of the calendar. -/
def milliseconds? : TimeUnit → Option Nat
  | millisecond => some 1
  | second => some 1000
  | minute => some 60000
  | hour => some 3600000
  | day => some 86400000
  | week => some 604800000
  | month | quarter | year => none

/-- Whether a unit follows the calendar, so that its width varies. -/
def isCalendar (u : TimeUnit) : Bool := u.milliseconds?.isNone

end TimeUnit

end QueryStats
