import Markup.Toml.Document
import Markup.Toml.Scalar

/-! # Reading TOML

A document is a sequence of lines: a header, a key with its value, a comment, or nothing. Values
may hold further values, in brackets or braces. `parse` gives the table of a document, or the first
fault in it; what is wrong with a malformed document is not told. -/

namespace Markup.Toml

/-! ### Space and comments -/

/-- Drops space within a line. -/
def skipBlanks (cs : List Char) : List Char := cs.dropWhile isBlankChar

/-- Drops a comment, if one starts here, up to the end of its line. -/
def skipComment (cs : List Char) : Option (List Char) :=
  match cs with
  | c :: rest =>
    if c = '#' then
      if (rest.takeWhile (· != '\n')).any isIllegal then none
      else some (rest.dropWhile (· != '\n'))
    else some cs
  | [] => some []

/-- Drops space, newlines and comments; each turn drops a newline at least. -/
def skipSpace : Nat → List Char → Option (List Char)
  | 0, cs => some cs
  | turns + 1, cs => do
    let after ← skipComment (cs.dropWhile isBlankOrNewline)
    match after with
    | c :: _ => if c = '\n' then skipSpace turns after else some after
    | [] => some []

/-- Drops space, newlines and comments. -/
def skipAll (cs : List Char) : Option (List Char) := skipSpace (cs.length + 1) cs

/-! ### Keys -/

/-- One part of a key. -/
def readKeyPart (cs : List Char) : Option (String × List Char) :=
  match cs with
  | [] => none
  | c :: rest =>
    if isBareKeyChar c then
      some (String.ofList (cs.takeWhile isBareKeyChar), cs.dropWhile isBareKeyChar)
    else if c = '"' then readQuoted rest
    else if c = quoteChar then (readLiteral rest).map fun (s, rest) => (String.ofList s, rest)
    else none

/-- The parts of a key between points; each turn takes a part. -/
def readKeyParts : Nat → List Char → Option (List String × List Char)
  | 0, _ => none
  | turns + 1, cs => do
    let (part, rest) ← readKeyPart cs
    match skipBlanks rest with
    | c :: more =>
      if c = '.' then
        let (parts, rest) ← readKeyParts turns (skipBlanks more)
        return (part :: parts, rest)
      else return ([part], c :: more)
    | [] => return ([part], [])

/-- A key, dotted or not, and the space after it. -/
def readKey (cs : List Char) : Option (List String × List Char) := readKeyParts (cs.length + 1) cs

/-- A key and the equals sign after it. -/
def readKeyEquals (cs : List Char) : Option (List String × List Char) := do
  let (key, rest) ← readKey cs
  match rest with
  | c :: rest => if c = '=' then some (key, skipBlanks rest) else none
  | [] => none

/-! ### Values -/

/-- What is not there is malformed. -/
def wanted {α : Type} : Option α → Except Fault α
  | some a => .ok a
  | none => .error .malformed

/-- A boolean. -/
def readBoolean (cs : List Char) : Option (Value × List Char) :=
  match afterPrefix? "true".toList cs, afterPrefix? "false".toList cs with
  | some rest, _ => some (.boolean true, rest)
  | none, some rest => some (.boolean false, rest)
  | none, none => none

/-- A date, a time or a number. -/
def readPlain (cs : List Char) : Except Fault (Value × List Char) :=
  match readMoment cs with
  | some moment => moment
  | none =>
    match readBased cs, readDecimal cs with
    | some (n, rest), _ => .ok (.integer n, rest)
    | none, some number => number
    | none, none => wanted (readSpecial cs)

mutual

/-- A value. Each turn of the readers takes a character, so the length of the text bounds the
turns. -/
def readValue : Nat → List Char → Except Fault (Value × List Char)
  | 0, _ => .error .malformed
  | _, [] => .error .malformed
  | turns + 1, c :: rest =>
    if c = '"' ∨ c = quoteChar then do
      let (s, rest) ← wanted (readString (c :: rest))
      return (.text s, rest)
    else if c = '[' then do
      let (items, rest) ← readItems turns (← wanted (skipAll rest))
      return (.array items, rest)
    else if c = '{' then
      match skipBlanks rest with
      | [] => .error .malformed
      | d :: more =>
        if d = '}' then .ok (.table [], more)
        else do
          let (entries, rest) ← readInline turns [] (d :: more)
          return (.table (entriesToTable entries), rest)
    else
      match readBoolean (c :: rest) with
      | some found => .ok found
      | none => readPlain (c :: rest)

/-- The items of an array up to its closing bracket. -/
def readItems : Nat → List Char → Except Fault (List Value × List Char)
  | 0, _ => .error .malformed
  | _, [] => .error .malformed
  | turns + 1, c :: rest =>
    if c = ']' then .ok ([], rest)
    else do
      let (item, rest) ← readValue turns (c :: rest)
      match ← wanted (skipAll rest) with
      | d :: more =>
        if d = ']' then return ([item], more)
        else if d = ',' then
          let (items, rest) ← readItems turns (← wanted (skipAll more))
          return (item :: items, rest)
        else .error .malformed
      | [] => .error .malformed

/-- The keys and values of a table in braces up to the closing one. -/
def readInline : Nat → Entries → List Char → Except Fault (Entries × List Char)
  | 0, _, _ => .error .malformed
  | turns + 1, entries, cs => do
    let (key, rest) ← wanted (readKeyEquals cs)
    let (value, rest) ← readValue turns rest
    let entries ← wanted (entries.assign 0 value key)
    match skipBlanks rest with
    | d :: more =>
      if d = '}' then return (entries, more)
      else if d = ',' then readInline turns entries (skipBlanks more)
      else .error .malformed
    | [] => .error .malformed

end

/-! ### Lines -/

/-- A document that has been read up to some line. -/
structure Progress where
  entries : Entries := []
  header : List String := []
  number : Nat := 0
deriving Inhabited

/-- Reads a header, from its first bracket on. -/
def readHeader (p : Progress) (cs : List Char) : Option (Progress × List Char) :=
  match afterPrefix? ['[', '['] cs with
  | some rest => do
    let (key, rest) ← readKey (skipBlanks rest)
    let entries ← p.entries.declareItem key
    let rest ← afterPrefix? [']', ']'] rest
    return (⟨entries, key, p.number + 1⟩, rest)
  | none => do
    let (key, rest) ← readKey (skipBlanks (cs.drop 1))
    let entries ← p.entries.declareTable key
    let rest ← afterPrefix? [']'] rest
    return (⟨entries, key, p.number + 1⟩, rest)

/-- Reads a key and its value. -/
def readPair (p : Progress) (cs : List Char) : Except Fault (Progress × List Char) := do
  let (key, rest) ← wanted (readKeyEquals cs)
  let (value, rest) ← readValue (rest.length + 1) rest
  let entries ← wanted (p.entries.changeAt (·.assign p.number value key) p.header)
  return ({ p with entries }, rest)

/-- Reads what stands on a line, if it is not blank or a comment. -/
def readStatement (p : Progress) (cs : List Char) : Except Fault (Progress × List Char) :=
  match cs with
  | [] => .ok (p, [])
  | c :: _ =>
    if c = '#' ∨ c = '\n' then .ok (p, cs)
    else if c = '[' then wanted (readHeader p cs)
    else readPair p cs

/-- Reads the lines of a document; each turn takes a line. -/
def readLines : Nat → Progress → List Char → Except Fault Progress
  | 0, p, _ => .ok p
  | turns + 1, p, cs => do
    let (p, rest) ← readStatement p (skipBlanks cs)
    match ← wanted (skipComment (skipBlanks rest)) with
    | [] => return p
    | c :: rest => if c = '\n' then readLines turns p rest else .error .malformed

/-- A carriage return before a line feed does not count. -/
def dropReturns : List Char → List Char
  | [] => []
  | c :: rest =>
    match c, rest with
    | '\r', '\n' :: _ => dropReturns rest
    | _, _ => c :: dropReturns rest

/-- The table of a document. -/
def parse (text : String) : Except Fault Table :=
  let cs := dropReturns text.toList
  (readLines (cs.length + 1) {} cs).map fun p => entriesToTable p.entries

end Markup.Toml
