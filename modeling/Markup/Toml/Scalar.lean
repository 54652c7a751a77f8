import Markup.Toml.Value

/-! # Scalars

Reading the scalars of a TOML document: strings in quotes, on one line or on several, numbers,
dates and times. Each reader takes its scalar off the front of a text and fails if there is none;
a number is the longest one that fits, and what follows it is the caller's concern. A decimal
integer may be too long to be read, which is another fault than being malformed (`Fault`). -/

namespace Markup.Toml

/-- Why a document is not read. -/
inductive Fault where
  | malformed
  | digits
deriving DecidableEq, Repr, Inhabited

/-! ### Characters -/

/-- Space within a line. -/
def isBlankChar (c : Char) : Bool := c == ' ' || c == '\t'

/-- Space or the end of a line. -/
def isBlankOrNewline (c : Char) : Bool := isBlankChar c || c == '\n'

/-- A control character that may not stand in a comment or a string of one line. -/
def isIllegal (c : Char) : Bool := (c.toNat < 0x20 && c != '\t') || c.toNat == 0x7F

/-- A control character that may not stand in a string of several lines. -/
def isIllegalInLines (c : Char) : Bool := isIllegal c && c != '\n'

/-- A character of a key without quotes. -/
def isBareKeyChar (c : Char) : Bool := c.isAlphanum || c == '-' || c == '_'

/-- The single quote. -/
def quoteChar : Char := Char.ofNat 0x27

/-- The value of a hexadecimal digit. -/
def hexValue? (c : Char) : Option Nat :=
  if c.isDigit then some (c.toNat - 48)
  else if 'a' ≤ c ∧ c ≤ 'f' then some (c.toNat - 87)
  else if 'A' ≤ c ∧ c ≤ 'F' then some (c.toNat - 55)
  else none

/-- Drops a fixed beginning. -/
def afterPrefix? (start cs : List Char) : Option (List Char) := start.isPrefixOf? cs

/-! ### Strings -/

/-- The character that `n` hexadecimal digits name. -/
def readHexChar (n : Nat) (cs : List Char) : Option (Char × List Char) := do
  let digits ← (cs.take n).mapM hexValue?
  let code := digits.foldl (fun acc d => acc * 16 + d) 0
  if digits.length = n ∧ code.isValidChar then some (Char.ofNat code, cs.drop n) else none

/-- What stands after the backslash of an escape of one character. -/
def simpleEscape? (c : Char) : Option Char :=
  if c = 'b' then some (Char.ofNat 8)
  else if c = 't' then some '\t'
  else if c = 'n' then some '\n'
  else if c = 'f' then some (Char.ofNat 12)
  else if c = 'r' then some '\r'
  else if c = '"' then some '"'
  else if c = '\\' then some '\\'
  else none

/-- A backslash at the end of a line takes the space after it, further lines included. -/
def skipLineBreak (cs : List Char) : Option (List Char) :=
  match cs.dropWhile isBlankChar with
  | [] => some []
  | c :: rest => if c = '\n' then some (rest.dropWhile isBlankOrNewline) else none

/-- The escape after a backslash: its text, and what follows. -/
def readEscape (lines : Bool) (cs : List Char) : Option (List Char × List Char) :=
  match cs with
  | [] => none
  | c :: rest =>
    if lines && isBlankOrNewline c then (skipLineBreak cs).map fun rest => ([], rest)
    else if c = 'u' then (readHexChar 4 rest).map fun (x, rest) => ([x], rest)
    else if c = 'U' then (readHexChar 8 rest).map fun (x, rest) => ([x], rest)
    else (simpleEscape? c).map fun x => ([x], rest)

/-- The rest of a string in double quotes, which `lines` says may go over several lines; then
three quotes end it. Every turn takes a character, so the length of the text bounds the turns. -/
def readBasic (lines : Bool) : Nat → List Char → Option (List Char × List Char)
  | 0, _ => none
  | _, [] => none
  | turns + 1, c :: rest =>
    if c = '"' then
      if !lines then some ([], rest)
      else match afterPrefix? ['"', '"'] rest with
        | some rest => some ([], rest)
        | none => (readBasic lines turns rest).map fun (s, rest) => (c :: s, rest)
    else if c = '\\' then do
      let (x, rest) ← readEscape lines rest
      let (s, rest) ← readBasic lines turns rest
      return (x ++ s, rest)
    else if if lines then isIllegalInLines c else isIllegal c then none
    else (readBasic lines turns rest).map fun (s, rest) => (c :: s, rest)

/-- The rest of a string in single quotes on one line. -/
def readLiteral (cs : List Char) : Option (List Char × List Char) :=
  let body := cs.takeWhile (· != quoteChar)
  match cs.dropWhile (· != quoteChar) with
  | [] => none
  | _ :: rest => if body.any isIllegal then none else some (body, rest)

/-- The rest of a string in three single quotes. -/
def readLiteralLines : List Char → Option (List Char × List Char)
  | [] => none
  | c :: rest =>
    match afterPrefix? [quoteChar, quoteChar, quoteChar] (c :: rest) with
    | some after => some ([], after)
    | none =>
      if isIllegalInLines c then none
      else (readLiteralLines rest).map fun (s, rest) => (c :: s, rest)

/-- Up to two more quotes right after a string of several lines belong to it. -/
def moreQuotes (q : Char) (s : List Char) (cs : List Char) : List Char × List Char :=
  let extra := (cs.take 2).takeWhile (· == q)
  (s ++ extra, cs.drop extra.length)

/-- A newline right after the opening quotes is dropped. -/
def dropNewline : List Char → List Char
  | c :: rest => if c = '\n' then rest else c :: rest
  | [] => []

/-- A string in double quotes on one line. -/
def readQuoted (cs : List Char) : Option (String × List Char) :=
  (readBasic false (cs.length + 1) cs).map fun (s, rest) => (String.ofList s, rest)

/-- A string of any form. -/
def readString (cs : List Char) : Option (String × List Char) :=
  match cs with
  | [] => none
  | c :: rest =>
    if c = '"' then
      match afterPrefix? ['"', '"'] rest with
      | some body => do
        let (s, rest) ← readBasic true (body.length + 1) (dropNewline body)
        let (s, rest) := moreQuotes c s rest
        return (String.ofList s, rest)
      | none => readQuoted rest
    else if c = quoteChar then
      match afterPrefix? [quoteChar, quoteChar] rest with
      | some body => do
        let (s, rest) ← readLiteralLines (dropNewline body)
        let (s, rest) := moreQuotes c s rest
        return (String.ofList s, rest)
      | none => (readLiteral rest).map fun (s, rest) => (String.ofList s, rest)
    else none

/-! ### Numbers -/

/-- Digits of a class with single underscores between them; the underscores are dropped. -/
def readDigits (isDigit : Char → Bool) : List Char → Option (List Char × List Char)
  | [] => none
  | c :: rest =>
    if isDigit c then
      match readDigits isDigit rest with
      | some (ds, after) => some (c :: ds, after)
      | none =>
        match rest with
        | u :: more =>
          if u = '_' then
            match readDigits isDigit more with
            | some (ds, after) => some (c :: ds, after)
            | none => some ([c], rest)
          else some ([c], rest)
        | [] => some ([c], [])
    else none

/-- The number that digits stand for. -/
def digitsValue (base : Nat) (ds : List Char) : Nat :=
  ds.foldl (fun acc d => acc * base + (hexValue? d).getD 0) 0

/-- A number in base sixteen, two or eight, after its mark. -/
def readBased (cs : List Char) : Option (Int × List Char) :=
  let digits (base : Nat) (isDigit : Char → Bool) (rest : List Char) :=
    (readDigits isDigit rest).map fun (ds, after) => ((digitsValue base ds : Int), after)
  match cs with
  | z :: m :: rest =>
    if z ≠ '0' then none
    else if m = 'x' then digits 16 (fun c => (hexValue? c).isSome) rest
    else if m = 'b' then digits 2 (fun c => c == '0' || c == '1') rest
    else if m = 'o' then digits 8 (fun c => '0' ≤ c && c ≤ '7') rest
    else none
  | _ => none

/-- A sign, if there is one: whether it is minus. -/
def readSign : List Char → Bool × List Char
  | c :: rest =>
    if c = '-' then (true, rest) else if c = '+' then (false, rest) else (false, c :: rest)
  | [] => (false, [])

/-- The whole part of a decimal number: a zero alone, or digits that do not start with one. -/
def readWhole : List Char → Option (List Char × List Char)
  | [] => none
  | c :: rest => if c = '0' then some ([c], rest) else readDigits Char.isDigit (c :: rest)

/-- The digits after a point. -/
def readFraction : List Char → Option (List Char × List Char)
  | c :: rest => if c = '.' then readDigits Char.isDigit rest else none
  | [] => none

/-- The exponent after its letter. -/
def readExponent : List Char → Option (Int × List Char)
  | c :: rest =>
    if c = 'e' ∨ c = 'E' then
      let (negative, rest) := readSign rest
      (readDigits Char.isDigit rest).map fun (ds, after) =>
        let n : Int := digitsValue 10 ds
        (if negative then -n else n, after)
    else none
  | [] => none

/-- The floating-point number nearest to `digits * 10 ^ exponent`. Exponents far out of range are
cut short, which does not change the result. -/
def decimalFloat (negative : Bool) (digits : Nat) (exponent : Int) : Float :=
  let size : Int := (Nat.toDigits 10 digits).length + exponent
  let x :=
    if digits = 0 ∨ size < -400 then 0.0
    else if 400 < size then 1.0 / 0.0
    else if exponent < 0 then Float.ofScientific digits true (-exponent).toNat
    else Float.ofScientific digits false exponent.toNat
  if negative then -x else x

/-- A decimal number; it is an integer unless it has a fraction or an exponent, and an integer may
have too many digits. -/
def readDecimal (cs : List Char) : Option (Except Fault (Value × List Char)) := do
  let (negative, rest) := readSign cs
  let (whole, rest) ← readWhole rest
  let (fraction, rest, isFloat) := match readFraction rest with
    | some (ds, rest) => (ds, rest, true)
    | none => ([], rest, false)
  let (exponent, rest, isFloat) := match readExponent rest with
    | some (e, rest) => (e, rest, true)
    | none => (0, rest, isFloat)
  if isFloat then
    let x := decimalFloat negative (digitsValue 10 (whole ++ fraction)) (exponent - fraction.length)
    return .ok (.float x, rest)
  else if Decimal.maxDigits < whole.length then return .error .digits
  else
    let n : Int := digitsValue 10 whole
    return .ok (.integer (if negative then -n else n), rest)

/-- Infinity or no number, with or without a sign. -/
def readSpecial (cs : List Char) : Option (Value × List Char) :=
  let (negative, rest) := readSign cs
  match afterPrefix? "inf".toList rest, afterPrefix? "nan".toList rest with
  | some rest, _ => some (.float (if negative then -1.0 / 0.0 else 1.0 / 0.0), rest)
  | none, some rest => some (.float (0.0 / 0.0), rest)
  | none, none => none

/-! ### Dates and times -/

/-- A fixed number of decimal digits. -/
def readNumber (n : Nat) (cs : List Char) : Option (Nat × List Char) :=
  let ds := cs.take n
  if ds.length = n ∧ ds.all Char.isDigit then some (digitsValue 10 ds, cs.drop n) else none

/-- One character of a set. -/
def readChar (set : List Char) : List Char → Option (Char × List Char)
  | c :: rest => if set.contains c then some (c, rest) else none
  | [] => none

/-- Hours and minutes. -/
def readHourMinute (cs : List Char) : Option ((Nat × Nat) × List Char) := do
  let (h, rest) ← readNumber 2 cs
  let (_, rest) ← readChar [':'] rest
  let (m, rest) ← readNumber 2 rest
  if h < 24 ∧ m < 60 then some ((h, m), rest) else none

/-- The millionths after the point of a time; further digits are dropped. -/
def readMillionths (cs : List Char) : Nat × List Char :=
  match cs with
  | p :: rest =>
    let ds := rest.takeWhile Char.isDigit
    if p = '.' ∧ !ds.isEmpty then
      let kept := ds.take 6
      (digitsValue 10 (kept ++ List.replicate (6 - kept.length) '0'), rest.drop ds.length)
    else (0, cs)
  | [] => (0, [])

/-- A time of day. -/
def readTime (cs : List Char) : Option (DayTime × List Char) := do
  let ((h, m), rest) ← readHourMinute cs
  let (_, rest) ← readChar [':'] rest
  let (s, rest) ← readNumber 2 rest
  if 60 ≤ s then none
  else
    let (millionths, rest) := readMillionths rest
    some (⟨h, m, s, millionths⟩, rest)

/-- The distance from universal time, in minutes. -/
def readAhead (cs : List Char) : Option (Int × List Char) :=
  match readChar ['Z', 'z'] cs with
  | some (_, rest) => some (0, rest)
  | none => do
    let (sign, rest) ← readChar ['+', '-'] cs
    let ((h, m), rest) ← readHourMinute rest
    let minutes : Int := (60 * h + m : Nat)
    some (if sign = '-' then -minutes else minutes, rest)

/-- Number of days of a month. -/
def daysInMonth (year month : Nat) : Nat :=
  if month = 2 then
    if (year % 4 = 0 ∧ year % 100 ≠ 0) ∨ year % 400 = 0 then 29 else 28
  else if month = 4 ∨ month = 6 ∨ month = 9 ∨ month = 11 then 30
  else 31

/-- A date of the form that dates have, whether it exists or not. -/
def readDateForm (cs : List Char) : Option (Date × List Char) := do
  let (year, rest) ← readNumber 4 cs
  let (_, rest) ← readChar ['-'] rest
  let (month, rest) ← readNumber 2 rest
  let (_, rest) ← readChar ['-'] rest
  let (day, rest) ← readNumber 2 rest
  if 1 ≤ month ∧ month ≤ 12 ∧ 1 ≤ day ∧ day ≤ 31 then some (⟨year, month, day⟩, rest) else none

/-- The time after a date, and its distance from universal time. -/
def readTimeOfDate (cs : List Char) : Option ((DayTime × Option Int) × List Char) := do
  let (_, rest) ← readChar ['T', 't', ' '] cs
  let (time, rest) ← readTime rest
  match readAhead rest with
  | some (ahead, rest) => return ((time, some ahead), rest)
  | none => return ((time, none), rest)

/-- A date, with a time or without, or a time; the date may not exist. -/
def readMoment (cs : List Char) : Option (Except Fault (Value × List Char)) :=
  match readDateForm cs with
  | some (date, rest) =>
    if date.year = 0 ∨ daysInMonth date.year date.month < date.day then some (.error .malformed)
    else match readTimeOfDate rest with
    | some ((time, ahead), rest) => some (.ok (.moment (.both date time ahead), rest))
    | none => some (.ok (.moment (.date date), rest))
  | none => (readTime cs).map fun (time, rest) => .ok (.moment (.time time), rest)

end Markup.Toml
