import Markup.Proofs.Html.Escape
import Markup.Html.Render

/-! # Tags and their nesting

Two views of written HTML.  Reading it needs no knowledge of what was written: `cut` divides a
text at its angle brackets and gives what stands between each `<` and the next `>`; it gives
nothing if a bracket is left over.  `TagRole.of` tells from such a piece which element it opens or
closes, and `nest` matches the two in stack order.  The other view lists what the serializer
writes: `Template` has its start tags, each a name with attributes, whose names and values are
escaped whatever they are.

`WellNested` joins the two views: a text can be cut, into tags that were written, and these nest.
Of a written tag the reader finds out the name and the role it was written with
(`Template.role_start`, `role_stop`), since no attribute can hold a bracket. -/

namespace Markup.Html

/-! ### Reading tags -/

/-- Cuts a text at its angle brackets; `inside` is what has been read of a tag that is open. -/
def cutFrom : Option (List Char) → List Char → Option (List (List Char))
  | none, [] => some []
  | some _, [] => none
  | none, c :: cs =>
    if c = '<' then cutFrom (some []) cs else if c = '>' then none else cutFrom none cs
  | some inside, c :: cs =>
    if c = '<' then none
    else if c = '>' then (cutFrom none cs).map (inside :: ·)
    else cutFrom (some (inside ++ [c])) cs

/-- What stands between each `<` of a text and the next `>`, if every bracket is one of such a
pair. -/
def cut (html : String) : Option (List (List Char)) := cutFrom none html.toList

/-- The names of tags that are never closed. -/
def standAlone : List (List Char) :=
  ["!DOCTYPE".toList, "hr".toList, "meta".toList, "link".toList]

/-- What a tag does to the elements that are open: it opens one, closes one, or stands alone. -/
inductive TagRole where
  | opens (name : List Char)
  | closes (name : List Char)
  | alone
deriving DecidableEq, Repr

/-- The role of a tag by what stands between its brackets; a name ends at the first space. -/
def TagRole.of (inside : List Char) : TagRole :=
  match inside with
  | '/' :: name => closes name
  | _ =>
    let name := inside.takeWhile (· != ' ')
    if name ∈ standAlone then alone else opens name

/-- The elements that are open after some tags, innermost first, if every tag that closes an
element closes the innermost one. -/
def nest : List (List Char) → List TagRole → Option (List (List Char))
  | stack, [] => some stack
  | stack, .alone :: rest => nest stack rest
  | stack, .opens name :: rest => nest (name :: stack) rest
  | [], .closes _ :: _ => none
  | top :: stack, .closes name :: rest => if top = name then nest stack rest else none

/-! ### Written tags -/

/-- Keys and values as attributes. -/
def attributesText (attributes : List (String × String)) : String :=
  String.join (attributes.map fun (k, v) => " " ++ escape k ++ "=\"" ++ escape v ++ "\"")

/-- The elements that are written without attributes. -/
def bareNames : List String :=
  ["em", "strong", "sup", "sub", "s", "u", "code", "p", "pre", "blockquote", "ol", "ul", "li",
    "dl", "dt", "dd", "hr", "table", "tr", "figure", "figcaption", "html", "head", "title", "body"]

/-- The elements that are written with a fixed class. -/
def classedNames : List (String × String) :=
  [("span", "smallcaps"), ("span", "label"), ("span", "math inline"), ("div", "math display"),
    ("sup", "footnote-ref"), ("ol", "footnotes")]

/-- The attributes of a cell of a table. -/
def cellPairs (alignment : Option Alignment) (rowSpan colSpan : Int) : List (String × String) :=
  (if colSpan = 1 then [] else [("colspan", toString colSpan)]) ++
    (if rowSpan = 1 then [] else [("rowspan", toString rowSpan)]) ++
    (alignment.map fun a => ("style", "text-align: " ++ alignmentText a)).toList

/-- The start tags that are written: a name and its attributes. -/
inductive Template : String → List (String × String) → Prop
  | bare {name : String} (h : name ∈ bareNames) : Template name []
  | classed {name value : String} (h : (name, value) ∈ classedNames) :
      Template name [("class", value)]
  | code (language : String) : Template "code" [("class", "language-" ++ language)]
  | defn (kind : String) : Template "div" [("class", "defn defn-" ++ kind)]
  | tagged (m : Metadata) : Template "div" (m.map fun (k, v) => ("data-" ++ k, v))
  | cell (alignment : Option Alignment) (rowSpan colSpan : Int) :
      Template "td" (cellPairs alignment rowSpan colSpan)
  | heading {level : Int} (slug : String) (h : 1 ≤ level ∧ level ≤ 6) :
      Template ("h" ++ toString level) [("id", slug)]
  | link (target : String) : Template "a" [("href", target)]
  | reference (n : Nat) :
      Template "a" [("href", "#fn-" ++ toString n), ("id", "fn-link-" ++ toString n)]
  | note (n : Nat) : Template "li" [("id", "fn-" ++ toString n)]
  | page (lang : String) : Template "html" [("lang", lang)]
  | charset : Template "meta" [("charset", "utf-8")]
  | entry (key value : String) : Template "meta" [("name", key), ("content", value)]
  | sheet (href : String) : Template "link" [("rel", "stylesheet"), ("href", href)]

/-- What stands between the brackets of a tag that is written. -/
inductive Written : List Char → Prop
  | doctype : Written "!DOCTYPE html".toList
  | start {name : String} {attributes : List (String × String)} (h : Template name attributes) :
      Written (name ++ attributesText attributes).toList
  | stop {name : String} {attributes : List (String × String)} (h : Template name attributes)
      (hclosed : name.toList ∉ standAlone) : Written ("/" ++ name).toList

/-- **Well-nested HTML**: every angle bracket belongs to a tag that was written, and start tags,
apart from those that stand alone, are closed in stack order. -/
def WellNested (html : String) : Prop :=
  ∃ insides, cut html = some insides ∧ (∀ inside ∈ insides, Written inside) ∧
    nest [] (insides.map TagRole.of) = some []

/-! ### The text of a tag -/

/-- A character that may stand between the brackets of a tag. -/
def InsideChar (c : Char) : Prop := c.toNat < 128 ∧ c ≠ '<' ∧ c ≠ '>'

instance : DecidablePred InsideChar := fun _ => inferInstanceAs (Decidable (_ ∧ _))

theorem SafeChar.inside {c : Char} (h : SafeChar c) : InsideChar c := ⟨h.1, h.2.1, h.2.2.1⟩

/-- A character of an element's name. -/
def NameChar (c : Char) : Prop := SafeChar c ∧ c ≠ ' ' ∧ c ≠ '/'

instance : DecidablePred NameChar := fun _ => inferInstanceAs (Decidable (_ ∧ _))

theorem Template.nameChar {name : String} {attributes : List (String × String)}
    (h : Template name attributes) : Every NameChar name.toList := by
  cases h with
  | bare h =>
      have : ∀ name ∈ bareNames, Every NameChar name.toList := by decide
      exact this name h
  | @classed name value h =>
      have : ∀ p ∈ classedNames, Every NameChar p.1.toList := by decide
      exact this (name, value) h
  | @heading level slug h =>
      obtain rfl | rfl | rfl | rfl | rfl | rfl :
          level = 1 ∨ level = 2 ∨ level = 3 ∨ level = 4 ∨ level = 5 ∨ level = 6 := by omega
      all_goals decide
  | _ => decide

theorem attributesText_cons (k v : String) (rest : List (String × String)) :
    attributesText ((k, v) :: rest) =
      " " ++ escape k ++ "=\"" ++ escape v ++ "\"" ++ attributesText rest := by
  rw [attributesText, List.map_cons, String.join_cons]
  rfl

theorem insideChar_attributesText (attributes : List (String × String)) :
    Every InsideChar (attributesText attributes).toList := by
  induction attributes with
  | nil => intro c hc; cases hc
  | cons p rest ih =>
      obtain ⟨k, v⟩ := p
      intro c hc
      rw [attributesText_cons] at hc
      simp only [String.toList_append, List.mem_append] at hc
      rcases hc with ((((hc | hc) | hc) | hc) | hc) | hc
      · exact (by decide : Every InsideChar " ".toList) c hc
      · exact (safe_escape k c hc).inside
      · exact (by decide : Every InsideChar "=\"".toList) c hc
      · exact (safe_escape v c hc).inside
      · exact (by decide : Every InsideChar "\"".toList) c hc
      · exact ih c hc

theorem Written.insideChar {inside : List Char} (h : Written inside) :
    Every InsideChar inside := by
  intro c hc
  cases h with
  | doctype =>
      exact (by decide : Every InsideChar "!DOCTYPE html".toList) c hc
  | @start name attributes h =>
      rw [String.toList_append] at hc
      rcases List.mem_append.mp hc with hc | hc
      · exact (h.nameChar c hc).1.inside
      · exact insideChar_attributesText attributes c hc
  | @stop name attributes h =>
      rw [String.toList_append] at hc
      rcases List.mem_append.mp hc with hc | hc
      · exact (by decide : Every InsideChar "/".toList) c hc
      · exact (h.nameChar c hc).1.inside

/-- The name of a start tag ends where its attributes begin. -/
theorem Template.takeWhile_name {name : String} {attributes : List (String × String)}
    (h : Template name attributes) :
    (name ++ attributesText attributes).toList.takeWhile (· != ' ') = name.toList := by
  rw [String.toList_append, List.takeWhile_append_of_pos]
  · have hnil : (attributesText attributes).toList.takeWhile (· != ' ') = [] := by
      cases attributes with
      | nil => rfl
      | cons p rest =>
          rw [attributesText_cons]
          simp
    rw [hnil, List.append_nil]
  · intro c hc
    simpa using (h.nameChar c hc).2.1

theorem Template.role_start {name : String} {attributes : List (String × String)}
    (h : Template name attributes) :
    TagRole.of (name ++ attributesText attributes).toList =
      if name.toList ∈ standAlone then .alone else .opens name.toList := by
  have hname := h.takeWhile_name
  unfold TagRole.of
  split
  · next rest hslash =>
    rw [hslash] at hname
    have hmem : '/' ∈ name.toList := by rw [← hname]; simp
    exact absurd rfl (h.nameChar _ hmem).2.2
  · rw [hname]

theorem role_stop (name : String) : TagRole.of ("/" ++ name).toList = .closes name.toList := by
  rw [String.toList_append]
  rfl

end Markup.Html
