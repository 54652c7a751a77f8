import Markup.Unicode.Category

/-! # Text

What is done with a text as a sequence of characters: its ends are trimmed, it is cut by signed
indices (`slice`) and divided into lines (`linesOf`), it is decoded from the bytes of a file
(`decode?`), and it is shown in quotes (`quoted`). -/

namespace Markup.Text

open Unicode

/-! ### Trimming -/

/-- Drops the characters at the end that satisfy `p`. -/
def trimEnd (p : Char → Bool) (cs : List Char) : List Char := (cs.reverse.dropWhile p).reverse

/-- Drops the characters at both ends that satisfy `p`. -/
def trim (p : Char → Bool) (cs : List Char) : List Char := trimEnd p (cs.dropWhile p)

/-- Drops whitespace at both ends. -/
def strip (s : String) : String := String.ofList (trim isWhitespace s.toList)

/-- Whether a text is empty or all whitespace. -/
def isBlank (s : String) : Bool := s.toList.all isWhitespace

/-! ### Signed indices

Positions in a text may be given by a signed index: a negative one counts from the end, and one
that lies outside is moved to the nearest end. -/

/-- The position that an index names in a sequence of `len` elements. -/
def resolveIndex (len : Nat) (i : Int) : Nat :=
  if i < 0 then (len + i).toNat else min i.toNat len

@[simp] theorem resolveIndex_natCast {len n : Nat} (h : n ≤ len) :
    resolveIndex len (n : Int) = n := by
  unfold resolveIndex
  split <;> omega

/-- The elements between two indices, empty where they cross. -/
def slice {α : Type} (xs : List α) (start stop : Int) : List α :=
  (xs.take (resolveIndex xs.length stop)).drop (resolveIndex xs.length start)

theorem resolveIndex_natCast_eq_min (len n : Nat) : resolveIndex len (n : Int) = min n len := by
  unfold resolveIndex
  split <;> omega

/-- Cut by positions, a slice starts at the one and goes on up to the other. -/
theorem slice_natCast {α : Type} (xs : List α) (start stop : Nat) :
    slice xs start stop = (xs.drop start).take (stop - start) := by
  have htake : xs.take (min stop xs.length) = xs.take stop := List.take_eq_take_min.symm
  rw [slice, resolveIndex_natCast_eq_min, resolveIndex_natCast_eq_min, htake, ← List.drop_take]
  rcases Nat.le_total start xs.length with hle | hge
  · rw [Nat.min_eq_left hle]
  · have hlength : (xs.take stop).length ≤ xs.length := List.length_take_le' stop xs
    rw [Nat.min_eq_right hge, List.drop_eq_nil_of_le hlength,
      List.drop_eq_nil_of_le (Nat.le_trans hlength hge)]

/-! ### Finding characters -/

/-- The index of the first `c` from `start` on. -/
def find (c : Char) (cs : List Char) (start : Nat) : Int :=
  match (cs.drop start).idxOf? c with
  | some i => start + i
  | none => -1

/-- The index of the last `c` before `stop`. -/
def rfind (c : Char) (cs : List Char) (stop : Nat) : Int :=
  match (cs.take stop).reverse.idxOf? c with
  | some i => (cs.take stop).length - 1 - i
  | none => -1

/-- The part of a text before its first line feed. -/
def firstLine (cs : List Char) : List Char := cs.takeWhile (· != '\n')

/-- A line and a column in it, both counted from zero; columns count characters. -/
structure Place where
  line : Nat
  column : Nat
deriving DecidableEq, Repr, Inhabited

/-! ### Lines

A line ends in a line feed, alone or after a carriage return, or with the text. -/

/-- What ends a line within a text. -/
inductive Newline where
  | lf
  | crlf
deriving DecidableEq, Repr, Inhabited

/-- The characters of a newline. -/
def Newline.chars : Newline → List Char
  | lf => ['\n']
  | crlf => ['\r', '\n']

theorem Newline.length_chars_pos (e : Newline) : 0 < e.chars.length := by cases e <;> decide

/-- A line: what stands on it, and what ends it unless the text ends there. -/
structure Line where
  content : List Char
  ending : Option Newline
deriving DecidableEq, Repr, Inhabited

/-- The characters that end a line. -/
def Line.endingChars (l : Line) : List Char := l.ending.elim [] Newline.chars

/-- All characters of a line. -/
def Line.chars (l : Line) : List Char := l.content ++ l.endingChars

/-- A line that a line feed ended; a carriage return right before belongs to the end. -/
def Line.ofBody (body : List Char) : Line :=
  if body.getLast? = some '\r' then ⟨body.dropLast, some .crlf⟩ else ⟨body, some .lf⟩

@[simp] theorem Line.chars_ofBody (body : List Char) :
    (Line.ofBody body).chars = body ++ ['\n'] := by
  unfold Line.ofBody
  split
  · next h =>
    obtain ⟨ys, rfl⟩ := List.getLast?_eq_some_iff.1 h
    simp [Line.chars, Line.endingChars, Newline.chars]
  · rfl

theorem length_lt_of_dropWhile_eq_cons {α : Type} {p : α → Bool} {xs rest : List α} {x : α}
    (h : xs.dropWhile p = x :: rest) : rest.length < xs.length := by
  have := (xs.dropWhile_sublist p).length_le
  rw [h, List.length_cons] at this
  omega

/-- The lines of a text; what follows the last line feed is a line only if it is not empty. -/
def linesOf (cs : List Char) : List Line :=
  if cs.isEmpty then []
  else
    match _h : cs.dropWhile (· != '\n') with
    | [] => [⟨cs, none⟩]
    | _ :: rest => .ofBody (cs.takeWhile (· != '\n')) :: linesOf rest
termination_by cs.length
decreasing_by exact length_lt_of_dropWhile_eq_cons _h

/-- The lines of a text make up the text. -/
theorem flatMap_chars_linesOf (cs : List Char) : (linesOf cs).flatMap Line.chars = cs := by
  fun_induction linesOf cs with
  | case1 cs h => simp_all
  | case2 cs => simp [Line.chars, Line.endingChars]
  | case3 cs _ c rest h ih =>
    have hc : c = '\n' := by
      have := List.head_dropWhile_not (l := cs) (· != '\n') (by simp [h])
      simpa [h] using this
    have hcs := List.takeWhile_append_dropWhile (p := (· != '\n')) (l := cs)
    rw [h, hc] at hcs
    simp [ih, hcs]

/-! ### Encoded text

Text files are UTF-8, and their lines may end in any of the usual ways: in the text that is read, a
carriage return counts as a line feed, and the two together as one. -/

/-- Every line ending becomes a line feed. -/
def unifyNewlines : List Char → List Char
  | [] => []
  | '\r' :: '\n' :: rest => '\n' :: unifyNewlines rest
  | c :: rest => (if c = '\r' then '\n' else c) :: unifyNewlines rest

/-- A text without carriage returns stays as it is. -/
theorem unifyNewlines_eq_self {cs : List Char} (h : '\r' ∉ cs) : unifyNewlines cs = cs := by
  fun_induction unifyNewlines cs with
  | case1 => rfl
  | case2 rest ih => simp at h
  | case3 c rest _ ih =>
    simp only [List.mem_cons, not_or] at h
    simp [ih h.2, Ne.symm h.1]

/-- The text of a file, if its bytes are UTF-8. -/
def decode? (bytes : ByteArray) : Option String :=
  (String.fromUTF8? bytes).map fun s => String.ofList (unifyNewlines s.toList)

/-! ### Quoted text

A text in messages and dumps stands between single quotes, or double quotes where that saves
escaping a single one, with a backslash before a backslash or the quote in use. Line feed, carriage
return and tab have letters of their own, and every other character that cannot be shown is written
by its code point in two, four or eight hexadecimal digits. -/

/-- The single quote. -/
def apostrophe : Char := Char.ofNat 0x27

/-- A character that has a visible form, or is the plain space. -/
def isPrintable (c : Char) : Bool := c == ' ' || !(isOther c || isSeparator c)

/-- The hexadecimal digits of `n`, with zeros in front up to `width`. -/
def hexDigits (width n : Nat) : List Char :=
  let digits := Nat.toDigits 16 n
  List.replicate (width - digits.length) '0' ++ digits

/-- A character as it stands between quotes `q`. -/
def escapeChar (q c : Char) : List Char :=
  if c == q || c == '\\' then ['\\', c]
  else if c == '\n' then ['\\', 'n']
  else if c == '\r' then ['\\', 'r']
  else if c == '\t' then ['\\', 't']
  else if isPrintable c then [c]
  else if c.toNat < 0x100 then '\\' :: 'x' :: hexDigits 2 c.toNat
  else if c.toNat < 0x10000 then '\\' :: 'u' :: hexDigits 4 c.toNat
  else '\\' :: 'U' :: hexDigits 8 c.toNat

/-- The quote in use: double only if the text has a single quote and no double one. -/
def quoteFor (cs : List Char) : Char :=
  if cs.contains apostrophe && !cs.contains '"' then '"' else apostrophe

/-- The quoted form of a text. -/
def quoted (s : String) : String :=
  let q := quoteFor s.toList
  String.ofList (q :: s.toList.flatMap (escapeChar q) ++ [q])

end Markup.Text
