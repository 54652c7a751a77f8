import Markup.Decimal
import Markup.Text

/-! # Configuration values

The values of a TOML document, and how a value is shown as text.

A moment is a date, a time of day, or both, these with a distance from universal time or without. On
its own it is shown in digits (`Moment.toText`), and inside another value as the call that makes it
(`Moment.show`). -/

namespace Markup.Toml

/-! ### Numbers -/

/-- A number in two digits. -/
def twoDigits (n : Nat) : String := if n < 10 then "0" ++ toString n else toString n

/-- A number with zeros in front up to `width` digits. -/
def paddedNumber (width n : Nat) : String :=
  let s := toString n
  String.ofList (List.replicate (width - s.length) '0') ++ s

/-! ### Moments -/

/-- A day of a year. -/
structure Date where
  year : Nat
  month : Nat
  day : Nat
deriving DecidableEq, Repr, Inhabited

/-- A time of day. -/
structure DayTime where
  hour : Nat
  minute : Nat
  second : Nat
  millionths : Nat
deriving DecidableEq, Repr, Inhabited

/-- A date, a time or both, these perhaps with the minutes they are ahead of universal time. -/
inductive Moment where
  | date (date : Date)
  | time (time : DayTime)
  | both (date : Date) (time : DayTime) (ahead : Option Int)
deriving DecidableEq, Repr, Inhabited

/-! ### In digits -/

/-- A date in digits. -/
def Date.toText (d : Date) : String :=
  paddedNumber 4 d.year ++ "-" ++ twoDigits d.month ++ "-" ++ twoDigits d.day

/-- A time in digits; millionths are left out if there are none. -/
def DayTime.toText (t : DayTime) : String :=
  let fraction := if t.millionths = 0 then "" else "." ++ paddedNumber 6 t.millionths
  twoDigits t.hour ++ ":" ++ twoDigits t.minute ++ ":" ++ twoDigits t.second ++ fraction

/-- A distance from universal time in digits. -/
def aheadText (minutes : Int) : String :=
  let sign := if minutes < 0 then "-" else "+"
  sign ++ twoDigits (minutes.natAbs / 60) ++ ":" ++ twoDigits (minutes.natAbs % 60)

/-- A moment in digits. -/
def Moment.toText : Moment → String
  | date d => d.toText
  | time t => t.toText
  | both d t ahead => d.toText ++ " " ++ t.toText ++ ahead.elim "" aheadText

/-! ### As calls -/

/-- A call that makes a moment. -/
def shownCall (name : String) (args : List String) : String :=
  "datetime." ++ name ++ "(" ++ ", ".intercalate args ++ ")"

/-- The arguments that make a date. -/
def Date.args (d : Date) : List String := [d.year, d.month, d.day].map toString

/-- The arguments that make a time; zeros at the end are left out, but for hour and minute. -/
def DayTime.args (t : DayTime) : List String :=
  let seconds :=
    if t.millionths ≠ 0 then [t.second, t.millionths] else if t.second ≠ 0 then [t.second] else []
  (t.hour :: t.minute :: seconds).map toString

/-- The call that makes a distance from universal time, in days and seconds, the seconds being
positive. -/
def shownAhead (minutes : Int) : String :=
  if minutes = 0 then "datetime.timezone.utc"
  else
    let days := if minutes < 0 then ["days=-1"] else []
    shownCall "timezone"
      [shownCall "timedelta" (days ++ ["seconds=" ++ toString (minutes * 60 % 86400)])]

/-- The call that makes a moment. -/
def Moment.show : Moment → String
  | date d => shownCall "date" d.args
  | time t => shownCall "time" t.args
  | both d t ahead =>
    shownCall "datetime"
      (d.args ++ t.args ++ (ahead.map fun minutes => "tzinfo=" ++ shownAhead minutes).toList)

/-! ### Values -/

/-- A value of a TOML document. -/
inductive Value where
  | text (value : String)
  | integer (value : Int)
  | float (value : Float)
  | boolean (value : Bool)
  | moment (value : Moment)
  | array (items : List Value)
  | table (entries : List (String × Value))
deriving Inhabited

/-- Keys and values in order. -/
abbrev Table := List (String × Value)

mutual

/-- A value as it is shown inside another one. -/
def Value.show : Value → String
  | .text s => Text.quoted s
  | .integer n => toString n
  | .float x => Decimal.floatText x
  | .boolean b => if b then "True" else "False"
  | .moment m => m.show
  | .array items => "[" ++ ", ".intercalate (showItems items) ++ "]"
  | .table entries => "\x7b" ++ ", ".intercalate (showEntries entries) ++ "\x7d"

/-- Items as they are shown. -/
def showItems : List Value → List String
  | [] => []
  | v :: rest => v.show :: showItems rest

/-- Entries as they are shown. -/
def showEntries : List (String × Value) → List String
  | [] => []
  | (k, v) :: rest => (Text.quoted k ++ ": " ++ v.show) :: showEntries rest

end

mutual

/-- Every integer in a value is short enough to be shown. -/
def Value.isShort : Value → Bool
  | .integer n => Decimal.isShort n
  | .array items => areShort items
  | .table entries => entriesAreShort entries
  | .text _ | .float _ | .boolean _ | .moment _ => true

/-- The integers in items are. -/
def areShort : List Value → Bool
  | [] => true
  | v :: rest => v.isShort && areShort rest

/-- The integers in entries are. -/
def entriesAreShort : List (String × Value) → Bool
  | [] => true
  | (_, v) :: rest => v.isShort && entriesAreShort rest

end

/-- A value on its own: a text is itself, a moment is in digits, all else as shown. -/
def Value.toText : Value → String
  | .text s => s
  | .moment m => m.toText
  | v => v.show

end Markup.Toml
