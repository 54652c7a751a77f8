import Markup.Token
import Markup.Text

/-! # Scanning a region

The shape of a region, before anything in it is given a place: commands with their arguments,
runs of text, and runs of newlines. A command is a backslash and a name, followed by as many
arguments in balanced braces as there are, inline space before each brace being allowed; a
backslash inside an argument shields the character after it. `scanRegion` takes the longest
match at every step, and stops where nothing matches (`ScanStop`).

What was scanned and what is left make up the text again: `scanName_append`,
`takeBalanced_append`, `scanBreaks_append` and `scanArguments_append`. -/

namespace Markup

open Text

/-! ### Names -/

/-- A command name after its backslash, the longest one, and what follows it. -/
def scanName : List Char → Option (List Char × List Char)
  | b :: c :: rest =>
    if b = '\\' ∧ isNameStart c then
      some (c :: rest.takeWhile isNameContinue, rest.dropWhile isNameContinue)
    else none
  | _ => none

theorem scanName_append {cs name rest : List Char} (h : scanName cs = some (name, rest)) :
    cs = '\\' :: name ++ rest := by
  match cs, h with
  | b :: c :: tail, h =>
    rw [scanName] at h
    split at h
    · next hb =>
      simp only [Option.some.injEq, Prod.mk.injEq] at h
      obtain ⟨rfl, rfl⟩ := h
      simp [hb.1, List.takeWhile_append_dropWhile]
    · simp at h

/-! ### Arguments -/

/-- The content of braces up to the one that closes them, and what follows that. A backslash
takes the next character with it; inner braces must close first. -/
def takeBalanced (depth : Nat) : List Char → Option (List Char × List Char)
  | [] => none
  | c :: rest =>
    if c = '\\' then
      match rest with
      | [] => none
      | e :: rest => (takeBalanced depth rest).map fun (body, after) => (c :: e :: body, after)
    else if c = '{' then
      (takeBalanced (depth + 1) rest).map fun (body, after) => (c :: body, after)
    else if c = '}' then
      match depth with
      | 0 => some ([], rest)
      | d + 1 => (takeBalanced d rest).map fun (body, after) => (c :: body, after)
    else
      (takeBalanced depth rest).map fun (body, after) => (c :: body, after)

theorem takeBalanced_append {depth : Nat} {cs body after : List Char}
    (h : takeBalanced depth cs = some (body, after)) : cs = body ++ '}' :: after := by
  fun_induction takeBalanced depth cs generalizing body after with
  | case1 => simp at h
  | case2 => simp at h
  | case3 depth e rest ih =>
    obtain ⟨⟨b, a⟩, hb, heq⟩ := Option.map_eq_some_iff.1 h
    simp only [Prod.mk.injEq] at heq
    obtain ⟨rfl, rfl⟩ := heq
    simp [ih hb]
  | case4 depth rest _ ih =>
    obtain ⟨⟨b, a⟩, hb, heq⟩ := Option.map_eq_some_iff.1 h
    simp only [Prod.mk.injEq] at heq
    obtain ⟨rfl, rfl⟩ := heq
    simp [ih hb]
  | case5 rest _ _ =>
    simp only [Option.some.injEq, Prod.mk.injEq] at h
    obtain ⟨rfl, rfl⟩ := h
    rfl
  | case6 rest _ _ d ih =>
    obtain ⟨⟨b, a⟩, hb, heq⟩ := Option.map_eq_some_iff.1 h
    simp only [Prod.mk.injEq] at heq
    obtain ⟨rfl, rfl⟩ := heq
    simp [ih hb]
  | case7 depth c rest _ _ _ ih =>
    obtain ⟨⟨b, a⟩, hb, heq⟩ := Option.map_eq_some_iff.1 h
    simp only [Prod.mk.injEq] at heq
    obtain ⟨rfl, rfl⟩ := heq
    simp [ih hb]

/-- An argument as scanned: the space before its brace, and what the braces hold. -/
structure RawArgument where
  space : List Char
  content : List Char
deriving DecidableEq, Repr, Inhabited

/-- All characters of an argument. -/
def RawArgument.chars (a : RawArgument) : List Char := a.space ++ '{' :: a.content ++ ['}']

/-- A run of arguments and what follows the last one. If a brace that never closes ended the run,
`unclosed` is the space in front of it. -/
structure ArgumentScan where
  args : List RawArgument
  rest : List Char
  unclosed : Option (List Char)
deriving DecidableEq, Repr, Inhabited

/-- As many arguments as follow. -/
def scanArguments (cs : List Char) : ArgumentScan :=
  match _h : cs.dropWhile isInlineSpace with
  | [] => ⟨[], cs, none⟩
  | c :: body =>
    if c = '{' then
      match _hb : takeBalanced 0 body with
      | none => ⟨[], cs, some (cs.takeWhile isInlineSpace)⟩
      | some (content, rest) =>
        let scan := scanArguments rest
        { scan with args := ⟨cs.takeWhile isInlineSpace, content⟩ :: scan.args }
    else ⟨[], cs, none⟩
termination_by cs.length
decreasing_by
  have h1 := length_lt_of_dropWhile_eq_cons _h
  have h2 := congrArg List.length (takeBalanced_append _hb)
  simp only [List.length_append, List.length_cons] at h2
  omega

theorem scanArguments_append (cs : List Char) :
    cs = (scanArguments cs).args.flatMap RawArgument.chars ++ (scanArguments cs).rest := by
  fun_induction scanArguments cs with
  | case1 => rfl
  | case2 => rfl
  | case3 cs body content rest hb scan h ih =>
    have hcs : cs = cs.takeWhile isInlineSpace ++ '{' :: body := by
      rw [← h, List.takeWhile_append_dropWhile]
    simp only [List.flatMap_cons, RawArgument.chars, List.append_assoc]
    rw [← ih]
    conv => lhs; rw [hcs, takeBalanced_append hb]
    simp
  | case4 => rfl

/-- The characters that settle the form of an argument: it has a name if the first of them is an
equals sign. -/
def isKeywordStop (c : Char) : Bool := ['\\', '{', '}', '$', '='].contains c

/-- The name and value of a keyword argument, both as written. -/
def splitKeyword (content : List Char) : Option (List Char × List Char) :=
  match content.dropWhile (!isKeywordStop ·) with
  | c :: value => if c = '=' then some (content.takeWhile (!isKeywordStop ·), value) else none
  | [] => none

/-! ### Commands -/

/-- A command as scanned. -/
structure RawCall where
  name : List Char
  scan : ArgumentScan
deriving DecidableEq, Repr, Inhabited

/-- The command at the start of a text. -/
def scanCall (cs : List Char) : Option RawCall :=
  (scanName cs).map fun (name, rest) => ⟨name, scanArguments rest⟩

theorem scanCall_rest_length {cs : List Char} {c : RawCall} (h : scanCall cs = some c) :
    c.scan.rest.length < cs.length := by
  obtain ⟨⟨name, rest⟩, hn, rfl⟩ := Option.map_eq_some_iff.1 h
  have h1 := congrArg List.length (scanName_append hn)
  have h2 := congrArg List.length (scanArguments_append rest)
  simp only [List.length_append, List.length_cons] at h1 h2
  show (scanArguments rest).rest.length < cs.length
  omega

/-! ### Text and newlines -/

/-- A character of plain text: no backslash and no part of a newline. -/
def isTextChar (c : Char) : Bool := c != '\\' && c != '\r' && c != '\n'

/-- The newlines that a text starts with, and what follows them. -/
def scanBreaks : List Char → List Newline × List Char
  | [] => ([], [])
  | c :: rest =>
    if c = '\n' then (scanBreaks rest).map (.lf :: ·) id
    else
      match rest with
      | d :: rest' =>
        if c = '\r' ∧ d = '\n' then (scanBreaks rest').map (.crlf :: ·) id
        else ([], c :: d :: rest')
      | [] => ([], [c])

theorem scanBreaks_append (cs : List Char) :
    cs = (scanBreaks cs).1.flatMap Newline.chars ++ (scanBreaks cs).2 := by
  fun_induction scanBreaks cs with
  | case1 => rfl
  | case2 rest ih => simpa [Newline.chars] using ih
  | case3 c _ d rest hcd ih => simpa [Newline.chars, hcd] using ih
  | case4 => rfl
  | case5 => rfl

/-! ### Regions -/

/-- A part of a region as scanned: as much text, as many newlines, or a command with as many
arguments as there are. -/
inductive RawPiece where
  | text (run : List Char)
  | breaks (ends : List Newline)
  | call (name : List Char) (args : List RawArgument)
deriving DecidableEq, Repr, Inhabited

/-- All characters of a part. -/
def RawPiece.chars : RawPiece → List Char
  | text run => run
  | breaks ends => ends.flatMap Newline.chars
  | call name args => '\\' :: name ++ args.flatMap RawArgument.chars

/-- Why a scan stops before the end of its region: the next argument of a command never closes, a
backslash has no name, or a character starts nothing. -/
inductive ScanStop where
  | unclosed (name : List Char) (args : List RawArgument) (space : List Char)
  | nameless
  | unexpected (c : Char)
deriving DecidableEq, Repr, Inhabited

/-- The parts of a region, and what stopped the scan if it was not the end. -/
structure RegionScan where
  pieces : List RawPiece
  stop : Option ScanStop
deriving DecidableEq, Repr, Inhabited

/-- One more part in front. -/
def RegionScan.cons (p : RawPiece) (s : RegionScan) : RegionScan :=
  { s with pieces := p :: s.pieces }

/-- Divides a region into its parts. -/
def scanRegion : List Char → RegionScan
  | [] => ⟨[], none⟩
  | c :: tail =>
    match _hc : scanCall (c :: tail) with
    | some call =>
      match call.scan.unclosed with
      | some space => ⟨[], some (.unclosed call.name call.scan.args space)⟩
      | none => (scanRegion call.scan.rest).cons (.call call.name call.scan.args)
    | none =>
      if isTextChar c then
        (scanRegion (tail.dropWhile isTextChar)).cons (.text (c :: tail.takeWhile isTextChar))
      else
        match _hb : scanBreaks (c :: tail) with
        | ([], _) => ⟨[], some (if c = '\\' then .nameless else .unexpected c)⟩
        | (e :: ends, rest) => (scanRegion rest).cons (.breaks (e :: ends))
termination_by cs => cs.length
decreasing_by
  · exact scanCall_rest_length _hc
  · have := (tail.dropWhile_sublist isTextChar).length_le
    simp only [List.length_cons]
    omega
  · have h := congrArg List.length (scanBreaks_append (c :: tail))
    have he := e.length_chars_pos
    simp only [_hb, List.flatMap_cons, List.length_append] at h
    omega

end Markup
