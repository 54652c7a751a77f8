import Markup.Doc
import Markup.Doc.Node
import Markup.Text
import Markup.Unicode.Category
import Markup.Unicode.Lowercase

/-! # Writing HTML

`render` writes a document as the body of a page, or as a whole page. Writing keeps two things
in mind (`Writer`): the slugs that headings have taken, and the notes that were referred to, in
order. The notes follow the body, in the order of their references; a note may refer to further
notes, which go to the end of the queue. Each turn of that loop writes one note of the document,
so the number of notes in it bounds the turns.

Two things cannot be written (`RenderError`): a heading of a level that HTML does not have, and a
value that is no part of a document. -/

namespace Markup.Html

/-! ### Character references

Text in HTML: the characters that have a meaning there are written by name, and those outside
ASCII by their code point in upper-case hexadecimal digits. -/

/-- A hexadecimal digit in upper case. -/
def upperHexDigit (n : Nat) : Char := if n < 10 then Char.ofNat (48 + n) else Char.ofNat (55 + n)

/-- The hexadecimal digits of a number in upper case, most significant first. -/
def upperHex (n : Nat) : List Char :=
  if n < 16 then [upperHexDigit n] else upperHex (n / 16) ++ [upperHexDigit (n % 16)]
termination_by n

/-- A character as it stands in HTML. -/
def escapeChar (c : Char) : List Char :=
  if c = '&' then "&amp;".toList
  else if c = '<' then "&lt;".toList
  else if c = '>' then "&gt;".toList
  else if c = '"' then "&quot;".toList
  else if 0x7F < c.toNat then "&#x".toList ++ upperHex c.toNat ++ [';']
  else [c]

/-- A text as it stands in HTML. -/
def escape (s : String) : String := String.ofList (s.toList.flatMap escapeChar)

/-- The escaped form of a concatenation is the concatenation of the escaped forms. -/
theorem escape_append (s t : String) : escape (s ++ t) = escape s ++ escape t := by
  simp [escape, String.toList_append, String.ofList_append]

open Unicode

/-! ### Slugs

The anchor of a heading is made from its text: trimmed, in lower case, and with every run of
whitespace and control characters as one hyphen; a hyphen right before such a run serves for it.
An empty anchor is called `section`. A slug that is taken gets the least number from two on that
makes it new (`freshSlug`); among as many numbers as there are slugs, and one more, there is
always such a one. -/

/-- A character that cannot stand in a slug. -/
def breaksSlug (c : Char) : Bool := isWhitespace c || isOther c

/-- The characters of a slug, where `hyphen` says whether one stands right before. -/
def slugChars (hyphen : Bool) : List Char → List Char
  | [] => []
  | c :: rest =>
    if breaksSlug c then
      if hyphen then slugChars true rest else '-' :: slugChars true rest
    else c :: slugChars (c == '-') rest

/-- The slug of a text. -/
def slugify (text : String) : String :=
  let chars := slugChars false (toLower (Text.trim isWhitespace text.toList))
  if chars.isEmpty then "section" else String.ofList chars

/-- A slug with a number. -/
def numbered (slug : String) (n : Nat) : String := slug ++ "-" ++ toString n

/-- The slug itself if it is not taken, else the first numbered one that is not. -/
def freshSlug (taken : List String) (slug : String) : String :=
  if taken.contains slug then
    let n := (List.range (taken.length + 1)).find? fun n => !taken.contains (numbered slug (n + 2))
    numbered slug (n.getD 0 + 2)
  else slug

end Markup.Html

namespace Markup

/-! ### What cannot be written -/

/-- Why a document has no HTML. -/
inductive RenderError where
  | unknownNode (kind : String)
  | headingLevel (level : Int)
  | other (message : String)
deriving DecidableEq, Repr, Inhabited

/-- The wording of an error. -/
def RenderError.message : RenderError → String
  | unknownNode kind => "cannot serialize " ++ kind ++ " as HTML"
  | headingLevel level => "heading level " ++ toString level ++ " is outside 1-6"
  | other message => message

namespace Html

/-- How a document is written. -/
structure Options where
  standalone : Bool := false
  lang : Option String := none
  css : List String := []
deriving DecidableEq, Repr, Inhabited

/-- What has been written so far, as far as it matters to what follows. -/
structure Writer where
  notes : List (List Block) := []
  slugs : List String := []
deriving Inhabited

/-- Writing may fail. -/
abbrev Render := StateT Writer (Except RenderError)

/-! ### Templates -/

/-- The tags around a styled run. -/
def styleTags : Style → String × String
  | .emph => ("<em>", "</em>")
  | .strong => ("<strong>", "</strong>")
  | .superscript => ("<sup>", "</sup>")
  | .subscript => ("<sub>", "</sub>")
  | .smallCaps => ("<span class=\"smallcaps\">", "</span>")
  | .strikeout => ("<s>", "</s>")
  | .underline => ("<u>", "</u>")

/-- The class of code in a language, if one is given. -/
def languageClass : Option String → String
  | some language =>
    if language.isEmpty then "" else " class=\"language-" ++ escape language ++ "\""
  | none => ""

/-- The text that a side has in a style. -/
def alignmentText : Alignment → String
  | .left => "left"
  | .right => "right"
  | .center => "center"

/-- The attributes of a cell. -/
def cellAttributes (alignment : Option Alignment) (rowSpan colSpan : Int) : String :=
  (if colSpan = 1 then "" else " colspan=\"" ++ toString colSpan ++ "\"") ++
    (if rowSpan = 1 then "" else " rowspan=\"" ++ toString rowSpan ++ "\"") ++
    (match alignment with
      | some a => " style=\"text-align: " ++ alignmentText a ++ "\""
      | none => "")

/-- The attributes of a tagged block. -/
def dataAttributes (m : Metadata) : String :=
  String.join (m.map fun (k, v) => " data-" ++ escape k ++ "=\"" ++ escape v ++ "\"")

/-- The tag of a kind of list. -/
def listTag : ListKind → String
  | .ordered => "ol"
  | .unordered => "ul"

/-- The reference to the note with number `n`. -/
def noteReference (n : Nat) : String :=
  let n := toString n
  "<sup class=\"footnote-ref\"><a href=\"#fn-" ++ n ++ "\" id=\"fn-link-" ++ n ++ "\">" ++ n ++
    "</a></sup>"

/-- The note with number `n`, after the document. -/
def noteItem (n : Nat) (body : String) : String :=
  let n := toString n
  "<li id=\"fn-" ++ n ++ "\">" ++ body ++ " <a href=\"#fn-link-" ++ n ++ "\">&#x21A9;</a></li>"

/-- A heading with its anchor. -/
def headingText (level : Int) (slug text : String) : String :=
  let tag := "h" ++ toString level
  "<" ++ tag ++ " id=\"" ++ escape slug ++ "\"><a href=\"#" ++ escape slug ++ "\">" ++ text ++
    "</a></" ++ tag ++ ">"

/-- Parts on lines of their own. -/
def joinLines (parts : List String) : String := "\n".intercalate parts

/-! ### Steps -/

/-- Queues a note and gives its number. -/
def addNote (content : List Block) : Render Nat := do
  modify fun w => { w with notes := w.notes ++ [content] }
  return (← get).notes.length

/-- Takes a slug for a heading of this text. -/
def takeSlug (text : String) : Render String := do
  let slug := freshSlug (← get).slugs (slugify text)
  modify fun w => { w with slugs := w.slugs ++ [slug] }
  return slug

/-! ### The tree -/

mutual

/-- Inline content as HTML. -/
def inlineHtml : Inline → Render String
  | .text text => return escape text
  | .styled style content => do
    let inner ← inlinesHtml content
    return (styleTags style).1 ++ inner ++ (styleTags style).2
  | .quote kind content => do
    let inner ← inlinesHtml content
    return escape kind.marks.1 ++ inner ++ escape kind.marks.2
  | .code content language =>
    return "<code" ++ languageClass language ++ ">" ++ escape content ++ "</code>"
  | .space => return " "
  | .link target content label _ => do
    let inner ← linkHtml target label content
    return "<a href=\"" ++ escape target ++ "\">" ++ inner ++ "</a>"
  | .footnote content => return noteReference (← addNote content)
  | .math tex => return "<span class=\"math inline\">\\(" ++ escape tex ++ "\\)</span>"
  | .foreign value => throw (.unknownNode value.kindName)

/-- A run of inline content as HTML. -/
def inlinesHtml : List Inline → Render String
  | [] => return ""
  | i :: rest => do
    let here ← inlineHtml i
    let after ← inlinesHtml rest
    return here ++ after

/-- What a link shows as HTML. -/
def linkHtml (target : String) (label : Option String) : Option (List Inline) → Render String
  | some content => inlinesHtml content
  | none => return escape (label.getD target)

/-- A block as HTML; a blank paragraph is empty. -/
def blockHtml : Block → Render String
  | .plain content => return Text.strip (← inlinesHtml content)
  | .par content => do
    if isBlankRun content then return ""
    return "<p>" ++ Text.strip (← inlinesHtml content) ++ "</p>"
  | .codeBlock language content => do
    let inner ← inlinesHtml content
    return "<pre><code" ++ languageClass language ++ ">" ++ inner ++ "</code></pre>"
  | .blockQuote content => do
    let inner ← blockParts content
    return "<blockquote>\n" ++ joinLines inner ++ "\n</blockquote>"
  | .tagged content metadata => do
    let inner ← blockParts content
    return "<div" ++ dataAttributes metadata ++ ">\n" ++ joinLines inner ++ "\n</div>"
  | .list kind items => do
    let inner ← itemParts items
    return joinLines (["<" ++ listTag kind ++ ">"] ++ inner ++ ["</" ++ listTag kind ++ ">"])
  | .termList items => do
    let inner ← termParts items
    return joinLines (["<dl>"] ++ inner ++ ["</dl>"])
  | .heading level text => do
    unless 1 ≤ level ∧ level ≤ 6 do throw (.headingLevel level)
    let slug ← takeSlug (plainText text)
    let inner ← inlinesHtml text
    return headingText level slug (Text.strip inner)
  | .rule => return "<hr>"
  | .table _ rows => do
    let inner ← rowParts rows
    return joinLines (["<table>"] ++ inner ++ ["</table>"])
  | .figure content caption => do
    let caption := Text.strip (← inlinesHtml caption)
    let inner ← blockParts content
    let under := if caption.isEmpty then "" else "\n<figcaption>" ++ caption ++ "</figcaption>"
    return "<figure>\n" ++ joinLines inner ++ under ++ "\n</figure>"
  | .defn kind content => do
    let inner ← blockParts content
    return "<div class=\"defn defn-" ++ escape kind ++ "\">\n" ++ joinLines inner ++ "\n</div>"
  | .mathBlock tex => return "<div class=\"math display\">\\[" ++ escape tex ++ "\\]</div>"
  | .foreign value => throw (.unknownNode value.kindName)

/-- Blocks as HTML, those left out that are empty. -/
def blockParts : List Block → Render (List String)
  | [] => return []
  | b :: rest => do
    let here ← blockHtml b
    let after ← blockParts rest
    return if here.isEmpty then after else here :: after

/-- The blocks of an item as HTML; a lone paragraph stands without its tags. -/
def tightHtml : List Block → Render String
  | [] => return ""
  | b :: rest => do
    match b, rest with
    | .par content, [] | .plain content, [] => return Text.strip (← inlinesHtml content)
    | _, _ =>
      let here ← blockHtml b
      let after ← blockParts rest
      return joinLines (if here.isEmpty then after else here :: after)

/-- The items of a list as HTML. -/
def itemParts : List ListItem → Render (List String)
  | [] => return []
  | .mk content label :: rest => do
    let label ← labelHtml label
    let inner ← tightHtml content
    let after ← itemParts rest
    return ("<li>" ++ label ++ inner ++ "</li>") :: after

/-- The label of an item as HTML, and a space after it. -/
def labelHtml : Option (List Inline) → Render String
  | none => return ""
  | some label => do
    return "<span class=\"label\">" ++ Text.strip (← inlinesHtml label) ++ "</span> "

/-- Terms and definitions as HTML. -/
def termParts : List TermItem → Render (List String)
  | [] => return []
  | .mk term content :: rest => do
    let term := Text.strip (← inlinesHtml term)
    let inner ← tightHtml content
    let after ← termParts rest
    return ("<dt>" ++ term ++ "</dt>") :: ("<dd>" ++ inner ++ "</dd>") :: after

/-- The cells of a row as HTML. -/
def cellsHtml : List TableCell → Render String
  | [] => return ""
  | .mk content alignment rowSpan colSpan :: rest => do
    let inner ← tightHtml content
    let after ← cellsHtml rest
    return "<td" ++ cellAttributes alignment rowSpan colSpan ++ ">" ++ inner ++ "</td>" ++ after

/-- The rows of a table as HTML. -/
def rowParts : List (List TableCell) → Render (List String)
  | [] => return []
  | row :: rest => do
    let cells ← cellsHtml row
    let after ← rowParts rest
    return ("<tr>" ++ cells ++ "</tr>") :: after

end

/-! ### Notes -/

mutual

/-- Number of notes in inline content. -/
def inlineNotes : Inline → Nat
  | .styled _ content | .quote _ content => inlinesNotes content
  | .link _ content _ _ => optionNotes content
  | .footnote content => blocksNotes content + 1
  | .text _ | .code .. | .space | .math _ | .foreign _ => 0

/-- Number of notes in a run of inline content. -/
def inlinesNotes : List Inline → Nat
  | [] => 0
  | i :: rest => inlineNotes i + inlinesNotes rest

/-- Number of notes in inline content that may be missing. -/
def optionNotes : Option (List Inline) → Nat
  | none => 0
  | some content => inlinesNotes content

/-- Number of notes in a block. -/
def blockNotes : Block → Nat
  | .plain content | .par content | .codeBlock _ content | .heading _ content =>
    inlinesNotes content
  | .blockQuote content | .tagged content _ | .defn _ content => blocksNotes content
  | .list _ items => itemsNotes items
  | .termList items => termsNotes items
  | .table _ rows => rowsNotes rows
  | .figure content caption => blocksNotes content + inlinesNotes caption
  | .rule | .mathBlock _ | .foreign _ => 0

/-- Number of notes in blocks. -/
def blocksNotes : List Block → Nat
  | [] => 0
  | b :: rest => blockNotes b + blocksNotes rest

/-- Number of notes in the items of a list. -/
def itemsNotes : List ListItem → Nat
  | [] => 0
  | .mk content label :: rest => optionNotes label + blocksNotes content + itemsNotes rest

/-- Number of notes in terms and definitions. -/
def termsNotes : List TermItem → Nat
  | [] => 0
  | .mk term content :: rest => inlinesNotes term + blocksNotes content + termsNotes rest

/-- Number of notes in the cells of a row. -/
def cellsNotes : List TableCell → Nat
  | [] => 0
  | .mk content _ _ _ :: rest => blocksNotes content + cellsNotes rest

/-- Number of notes in the rows of a table. -/
def rowsNotes : List (List TableCell) → Nat
  | [] => 0
  | row :: rest => cellsNotes row + rowsNotes rest

end

/-- The notes in the queue from number `i` (counted from zero) on, as HTML. -/
def noteParts : Nat → Nat → Render (List String)
  | 0, _ => return []
  | turns + 1, i => do
    match (← get).notes[i]? with
    | none => return []
    | some content =>
      let body ← tightHtml content
      let after ← noteParts turns (i + 1)
      return noteItem (i + 1) body :: after

/-- All notes of blocks that have been written, as a list; `turns` bounds their number. -/
def notesHtml (turns : Nat) : Render String := do
  if (← get).notes.isEmpty then return ""
  let items ← noteParts turns 0
  return joinLines (["<ol class=\"footnotes\">"] ++ items ++ ["</ol>"])

/-! ### Pages -/

/-- The head of a page. -/
def pageHead (o : Options) (m : Metadata) : String :=
  let opening := match o.lang with
    | some lang => if lang.isEmpty then "<html>\n" else "<html lang=\"" ++ escape lang ++ "\">\n"
    | none => "<html>\n"
  let title := match m.get? "title" with
    | some title => "<title>" ++ escape title ++ "</title>\n"
    | none => ""
  let entries := (m.filter (·.1 != "title")).map fun (k, v) =>
    "<meta name=\"" ++ escape k ++ "\" content=\"" ++ escape v ++ "\">\n"
  let sheets := o.css.map fun href =>
    "<link rel=\"stylesheet\" href=\"" ++ escape href ++ "\">\n"
  "<!DOCTYPE html>\n" ++ opening ++ "<head>\n<meta charset=\"utf-8\">\n" ++ title ++
    String.join entries ++ String.join sheets ++ "</head>\n<body>\n"

/-- The body of a document and its notes. -/
def bodyHtml (content : List Block) : Render (String × String) := do
  let body ← blockParts content
  let notes ← notesHtml (blocksNotes content)
  return (joinLines body, notes)

/-- A text with a line end, unless it is empty. -/
def endLine (s : String) : String := if s.isEmpty then "" else s ++ "\n"

/-- A body and notes as the options ask for them. -/
def pageHtml (o : Options) (m : Metadata) (body notes : String) : String :=
  let inner := endLine body ++ endLine notes
  if o.standalone then pageHead o m ++ inner ++ "</body>\n</html>\n" else inner

/-- A document as HTML. -/
def render (o : Options) (d : Document) : Except RenderError String := do
  let ((body, notes), _) ← (bodyHtml d.content).run {}
  return pageHtml o d.metadata body notes

/-! ### Serializers -/

/-- A stream of documents written with the same options. What the last document left behind stays in
the writer, but the next one starts afresh. -/
structure Serializer where
  options : Options := {}
  writer : Writer := {}
  written : String := ""
deriving Inhabited

/-- Writes one more document to the stream: all of it, or nothing where it cannot be written. -/
def Serializer.write (s : Serializer) (d : Document) : Except RenderError Unit × Serializer :=
  match (bodyHtml d.content).run {} with
  | .error e => (.error e, { s with writer := {} })
  | .ok ((body, notes), writer) =>
    let html := pageHtml s.options d.metadata body notes
    (.ok (), { s with writer, written := s.written ++ html })

end Html

end Markup
