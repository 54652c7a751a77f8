import Markup.Proofs.Html.Flow

/-! # The templates write flows

Each template of the serializer puts tags around what it is given, or stands alone.  What is
written in tags of `Template`, the texts of the source escaped, is said once for every template
(`Encloses`), apart from headings and the two templates that number notes, which have ids and
equations of their own.  Where it matters which tags these are, `Element` names them.
So every template writes a flow if what it is given is one, and the same holds of any property
that is passed on from parts to the whole (`Compositional`). -/

namespace Markup.Html

theorem Flow.of_eq {s t : String} (h : Flow s) (e : t = s) : Flow t := e ▸ h

/-! ### Parts and the whole -/

/-- The names of headings. -/
def headingNames : List String := ["h1", "h2", "h3", "h4", "h5", "h6"]

/-- A start tag that has no id: it has no attributes, or points somewhere and no more, or its
element is of a name that never has one. -/
def Anonymous (name : String) (attributes : List (String × String)) : Prop :=
  attributes = [] ∨ (∃ target, attributes = [("href", target)]) ∨ name ∉ "a" :: "li" :: headingNames

/-- An element that has no id, and what stands between its tags. -/
def Encloses (html inner : String) : Prop :=
  ∃ name attributes, Template name attributes ∧ Anonymous name attributes ∧
    name.toList ∉ standAlone ∧ html = startTag name attributes ++ inner ++ stopTag name

/-- An element by its start tag, and what stands between its tags. -/
structure Element (name : String) (attributes : List (String × String)) (html inner : String) :
    Prop where
  template : Template name attributes
  closed : name.toList ∉ standAlone
  text : html = startTag name attributes ++ inner ++ stopTag name

theorem Element.of_eq {name : String} {attributes : List (String × String)}
    {html html' inner : String} (h : Element name attributes html inner) (e : html' = html) :
    Element name attributes html' inner := e ▸ h

theorem Element.encloses {name : String} {attributes : List (String × String)}
    {html inner : String} (h : Element name attributes html inner)
    (hanonymous : Anonymous name attributes) : Encloses html inner :=
  ⟨name, attributes, h.template, hanonymous, h.closed, h.text⟩

theorem Encloses.of_eq {html html' inner : String} (h : Encloses html inner) (e : html' = html) :
    Encloses html' inner := e ▸ h

theorem Encloses.flow {html inner : String} (h : Encloses html inner) (hinner : Flow inner) :
    Flow html := by
  obtain ⟨name, attributes, htemplate, -, hclosed, rfl⟩ := h
  exact .element htemplate hclosed hinner

/-- A property of written HTML that the parts pass on to the whole. -/
structure Compositional (P : String → Prop) : Prop where
  text : ∀ {s : String}, Safe s → P s
  append : ∀ {s t : String}, P s → P t → P (s ++ t)
  doctype : P "<!DOCTYPE html>"
  alone : ∀ {name : String} {attributes : List (String × String)}, Template name attributes →
    name.toList ∈ standAlone → P (startTag name attributes)
  encloses : ∀ {html inner : String}, Encloses html inner → P inner → P html

theorem flow_compositional : Compositional Flow where
  text := .text
  append := .append
  doctype := .doctype
  alone := .alone
  encloses := Encloses.flow

/-! ### Tags -/

theorem startTag_nil (name : String) : startTag name [] = "<" ++ name ++ ">" := by
  simp [startTag, attributesText]

/-- An attribute whose key needs no escaping. -/
theorem attributesText_cons_of_unmarked {k : String} (hk : Unmarked k) (v : String)
    (rest : List (String × String)) :
    attributesText ((k, v) :: rest) =
      " " ++ k ++ "=\"" ++ escape v ++ "\"" ++ attributesText rest := by
  rw [attributesText_cons, escape_eq_self hk]

/-- The fixed part of a value needs no escaping. -/
theorem escape_append_of_unmarked {s : String} (hs : Unmarked s) (t : String) :
    escape (s ++ t) = s ++ escape t := by
  rw [escape_append, escape_eq_self hs]

/-- A value that is a fixed part and a number needs no escaping. -/
theorem escape_append_toString {s : String} (hs : Unmarked s) (n : Nat) :
    escape (s ++ toString n) = s ++ toString n := by
  rw [escape_append_of_unmarked hs, escape_eq_self (unmarked_toString_nat n)]

theorem attributesText_nil : attributesText [] = "" := rfl

theorem attributesText_append (a b : List (String × String)) :
    attributesText (a ++ b) = attributesText a ++ attributesText b := by
  induction a with
  | nil => simp [attributesText_nil]
  | cons p a ih =>
      obtain ⟨k, v⟩ := p
      rw [List.cons_append, attributesText_cons, attributesText_cons, ih]
      simp only [String.append_assoc]

/-- A start tag with one attribute, the value of which begins with a fixed part. -/
theorem startTag_singleton {k s : String} (hk : Unmarked k) (hs : Unmarked s)
    (name v : String) :
    startTag name [(k, s ++ v)] = "<" ++ name ++ " " ++ k ++ "=\"" ++ s ++ escape v ++ "\">" := by
  rw [startTag, attributesText_cons_of_unmarked hk, escape_append_of_unmarked hs]
  apply String.toList_inj.mp
  simp [attributesText_nil]

theorem flow_escape (s : String) : Flow (escape s) := .text (safe_escape s)

theorem flow_newline : Flow "\n" := .text (by decide)

/-! ### Elements of fixed form -/

/-- An element without attributes. -/
theorem Element.bare (name inner : String) (h : name ∈ bareNames)
    (hclosed : name.toList ∉ standAlone) :
    Element name [] ("<" ++ name ++ ">" ++ inner ++ ("</" ++ name ++ ">")) inner := by
  refine ⟨.bare h, hclosed, ?_⟩
  rw [startTag_nil, stopTag]
  apply String.toList_inj.mp
  simp

theorem Encloses.bare (name inner : String) (h : name ∈ bareNames)
    (hclosed : name.toList ∉ standAlone) :
    Encloses ("<" ++ name ++ ">" ++ inner ++ ("</" ++ name ++ ">")) inner :=
  (Element.bare name inner h hclosed).encloses (.inl rfl)

theorem Flow.bare (name : String) {inner : String} (h : name ∈ bareNames)
    (hclosed : name.toList ∉ standAlone) (hinner : Flow inner) :
    Flow ("<" ++ name ++ ">" ++ inner ++ ("</" ++ name ++ ">")) :=
  (Encloses.bare name inner h hclosed).flow hinner

/-- An element with a fixed class. -/
theorem Element.classed (name value inner : String) (h : (name, value) ∈ classedNames)
    (hvalue : Unmarked value) (hclosed : name.toList ∉ standAlone) :
    Element name [("class", value)]
      ("<" ++ name ++ " class=\"" ++ value ++ "\">" ++ inner ++ ("</" ++ name ++ ">")) inner := by
  refine ⟨.classed h, hclosed, ?_⟩
  rw [startTag, attributesText_cons_of_unmarked (by decide), escape_eq_self hvalue, stopTag]
  apply String.toList_inj.mp
  simp [attributesText_nil]

theorem Encloses.classed (name value inner : String) (h : (name, value) ∈ classedNames)
    (hvalue : Unmarked value) (hclosed : name.toList ∉ standAlone) :
    Encloses ("<" ++ name ++ " class=\"" ++ value ++ "\">" ++ inner ++ ("</" ++ name ++ ">"))
      inner := by
  have hname : ∀ p ∈ classedNames, p.1 ∉ "a" :: "li" :: headingNames := by decide
  exact (Element.classed name value inner h hvalue hclosed).encloses
    (.inr (.inr (hname (name, value) h)))

theorem Flow.classed (name value : String) {inner : String} (h : (name, value) ∈ classedNames)
    (hvalue : Unmarked value) (hclosed : name.toList ∉ standAlone) (hinner : Flow inner) :
    Flow ("<" ++ name ++ " class=\"" ++ value ++ "\">" ++ inner ++ ("</" ++ name ++ ">")) :=
  (Encloses.classed name value inner h hvalue hclosed).flow hinner

theorem encloses_styled (style : Style) (inner : String) :
    Encloses ((styleTags style).1 ++ inner ++ (styleTags style).2) inner := by
  cases style with
  | emph => exact .bare "em" inner (by decide) (by decide)
  | strong => exact .bare "strong" inner (by decide) (by decide)
  | superscript => exact .bare "sup" inner (by decide) (by decide)
  | subscript => exact .bare "sub" inner (by decide) (by decide)
  | smallCaps => exact .classed "span" "smallcaps" inner (by decide) (by decide) (by decide)
  | strikeout => exact .bare "s" inner (by decide) (by decide)
  | underline => exact .bare "u" inner (by decide) (by decide)

theorem flow_styled (style : Style) {inner : String} (h : Flow inner) :
    Flow ((styleTags style).1 ++ inner ++ (styleTags style).2) :=
  (encloses_styled style inner).flow h

theorem encloses_list (kind : ListKind) (inner : String) :
    Encloses ("<" ++ listTag kind ++ ">" ++ inner ++ ("</" ++ listTag kind ++ ">")) inner := by
  cases kind with
  | ordered => exact .bare "ol" inner (by decide) (by decide)
  | unordered => exact .bare "ul" inner (by decide) (by decide)

theorem flow_list (kind : ListKind) {inner : String} (h : Flow inner) :
    Flow ("<" ++ listTag kind ++ ">" ++ inner ++ ("</" ++ listTag kind ++ ">")) :=
  (encloses_list kind inner).flow h

/-- The caption of a figure, on a line of its own, unless it is empty. -/
theorem flow_caption {caption : String} (h : Flow caption) :
    Flow (if caption.isEmpty then "" else "\n<figcaption>" ++ caption ++ "</figcaption>") := by
  split
  · exact .empty
  · have htag := Flow.bare "figcaption" (by decide) (by decide) h
    refine (flow_newline.append htag).of_eq ?_
    apply String.toList_inj.mp
    simp

theorem element_math (tex : String) :
    Element "span" [("class", "math inline")]
      ("<span class=\"math inline\">\\(" ++ escape tex ++ "\\)</span>")
      ("\\(" ++ escape tex ++ "\\)") := by
  refine (Element.classed "span" "math inline" _ (by decide) (by decide) (by decide)).of_eq ?_
  apply String.toList_inj.mp
  simp

theorem encloses_math (tex : String) :
    Encloses ("<span class=\"math inline\">\\(" ++ escape tex ++ "\\)</span>")
      ("\\(" ++ escape tex ++ "\\)") :=
  (element_math tex).encloses (.inr (.inr (by decide)))

theorem element_mathBlock (tex : String) :
    Element "div" [("class", "math display")]
      ("<div class=\"math display\">\\[" ++ escape tex ++ "\\]</div>")
      ("\\[" ++ escape tex ++ "\\]") := by
  refine (Element.classed "div" "math display" _ (by decide) (by decide) (by decide)).of_eq ?_
  apply String.toList_inj.mp
  simp

theorem encloses_mathBlock (tex : String) :
    Encloses ("<div class=\"math display\">\\[" ++ escape tex ++ "\\]</div>")
      ("\\[" ++ escape tex ++ "\\]") :=
  (element_mathBlock tex).encloses (.inr (.inr (by decide)))

namespace Compositional

variable {P : String → Prop} (hP : Compositional P)

include hP

theorem escape (s : String) : P (Html.escape s) := hP.text (safe_escape s)

theorem newline : P "\n" := hP.text (by decide)

theorem rule : P "<hr>" := by
  have h : Template "hr" [] := .bare (by decide)
  exact hP.alone h (by decide)

theorem math (tex : String) :
    P ("<span class=\"math inline\">\\(" ++ Html.escape tex ++ "\\)</span>") :=
  hP.encloses (encloses_math tex)
    (hP.append (hP.append (hP.text (by decide)) (hP.escape tex)) (hP.text (by decide)))

theorem mathBlock (tex : String) :
    P ("<div class=\"math display\">\\[" ++ Html.escape tex ++ "\\]</div>") :=
  hP.encloses (encloses_mathBlock tex)
    (hP.append (hP.append (hP.text (by decide)) (hP.escape tex)) (hP.text (by decide)))

end Compositional

theorem flow_math (tex : String) :
    Flow ("<span class=\"math inline\">\\(" ++ escape tex ++ "\\)</span>") :=
  flow_compositional.math tex

theorem flow_mathBlock (tex : String) :
    Flow ("<div class=\"math display\">\\[" ++ escape tex ++ "\\]</div>") :=
  flow_compositional.mathBlock tex

/-! ### Elements with attributes -/

/-- The attributes of code in a language, if one is given. -/
def languagePairs : Option String → List (String × String)
  | some language => if language.isEmpty then [] else [("class", "language-" ++ language)]
  | none => []

theorem element_code (language : Option String) (inner : String) :
    Element "code" (languagePairs language)
      ("<code" ++ languageClass language ++ ">" ++ inner ++ "</code>") inner := by
  cases language with
  | none => exact .bare "code" inner (by decide) (by decide)
  | some language =>
      rw [languageClass, languagePairs]
      split
      · exact .bare "code" inner (by decide) (by decide)
      · refine ⟨.code language, by decide, ?_⟩
        rw [startTag_singleton (by decide) (by decide), stopTag]
        apply String.toList_inj.mp
        simp

theorem encloses_code (language : Option String) (inner : String) :
    Encloses ("<code" ++ languageClass language ++ ">" ++ inner ++ "</code>") inner :=
  (element_code language inner).encloses (.inr (.inr (by decide)))

theorem flow_code (language : Option String) {inner : String} (h : Flow inner) :
    Flow ("<code" ++ languageClass language ++ ">" ++ inner ++ "</code>") :=
  (encloses_code language inner).flow h

theorem element_link (target inner : String) :
    Element "a" [("href", target)] ("<a href=\"" ++ escape target ++ "\">" ++ inner ++ "</a>")
      inner := by
  refine ⟨.link target, by decide, ?_⟩
  have := startTag_singleton (k := "href") (s := "") (by decide) (by decide) "a" target
  rw [String.empty_append] at this
  rw [this, stopTag]
  apply String.toList_inj.mp
  simp

theorem encloses_link (target inner : String) :
    Encloses ("<a href=\"" ++ escape target ++ "\">" ++ inner ++ "</a>") inner :=
  (element_link target inner).encloses (.inr (.inl ⟨target, rfl⟩))

theorem flow_link (target : String) {inner : String} (h : Flow inner) :
    Flow ("<a href=\"" ++ escape target ++ "\">" ++ inner ++ "</a>") :=
  (encloses_link target inner).flow h

theorem element_defn (kind inner : String) :
    Element "div" [("class", "defn defn-" ++ kind)]
      ("<div class=\"defn defn-" ++ escape kind ++ "\">" ++ inner ++ "</div>") inner := by
  refine ⟨.defn kind, by decide, ?_⟩
  rw [startTag_singleton (by decide) (by decide), stopTag]
  apply String.toList_inj.mp
  simp

theorem encloses_defn (kind inner : String) :
    Encloses ("<div class=\"defn defn-" ++ escape kind ++ "\">" ++ inner ++ "</div>") inner :=
  (element_defn kind inner).encloses (.inr (.inr (by decide)))

theorem flow_defn (kind : String) {inner : String} (h : Flow inner) :
    Flow ("<div class=\"defn defn-" ++ escape kind ++ "\">" ++ inner ++ "</div>") :=
  (encloses_defn kind inner).flow h

theorem attributesText_tagged (m : Metadata) :
    attributesText (m.map fun (k, v) => ("data-" ++ k, v)) = dataAttributes m := by
  induction m with
  | nil => simp [attributesText_nil, dataAttributes]
  | cons p m ih =>
      obtain ⟨k, v⟩ := p
      rw [List.map_cons, attributesText_cons, ih, escape_append_of_unmarked (by decide),
        dataAttributes, dataAttributes, List.map_cons, String.join_cons]
      apply String.toList_inj.mp
      simp

theorem element_tagged (m : Metadata) (inner : String) :
    Element "div" (m.map fun (k, v) => ("data-" ++ k, v))
      ("<div" ++ dataAttributes m ++ ">" ++ inner ++ "</div>") inner := by
  refine ⟨.tagged m, by decide, ?_⟩
  rw [startTag, attributesText_tagged, stopTag]
  apply String.toList_inj.mp
  simp

theorem encloses_tagged (m : Metadata) (inner : String) :
    Encloses ("<div" ++ dataAttributes m ++ ">" ++ inner ++ "</div>") inner :=
  (element_tagged m inner).encloses (.inr (.inr (by decide)))

theorem flow_tagged (m : Metadata) {inner : String} (h : Flow inner) :
    Flow ("<div" ++ dataAttributes m ++ ">" ++ inner ++ "</div>") :=
  (encloses_tagged m inner).flow h

theorem attributesText_cell (alignment : Option Alignment) (rowSpan colSpan : Int) :
    attributesText (cellPairs alignment rowSpan colSpan) =
      cellAttributes alignment rowSpan colSpan := by
  have hspan : ∀ (k : String) (n : Int), Unmarked k →
      attributesText (if n = 1 then [] else [(k, toString n)]) =
        if n = 1 then "" else " " ++ k ++ "=\"" ++ toString n ++ "\"" := by
    intro k n hk
    split
    · rfl
    · rw [attributesText_cons_of_unmarked hk, escape_eq_self (unmarked_toString_int n),
        attributesText_nil, String.append_empty]
  rw [cellPairs, attributesText_append, attributesText_append, hspan _ _ (by decide),
    hspan _ _ (by decide)]
  unfold cellAttributes
  congr 1
  cases alignment with
  | none => exact attributesText_nil
  | some a => cases a <;> decide

theorem element_cell (alignment : Option Alignment) (rowSpan colSpan : Int) (inner : String) :
    Element "td" (cellPairs alignment rowSpan colSpan)
      ("<td" ++ cellAttributes alignment rowSpan colSpan ++ ">" ++ inner ++ "</td>") inner := by
  refine ⟨.cell alignment rowSpan colSpan, by decide, ?_⟩
  rw [startTag, attributesText_cell, stopTag]
  apply String.toList_inj.mp
  simp

theorem encloses_cell (alignment : Option Alignment) (rowSpan colSpan : Int) (inner : String) :
    Encloses ("<td" ++ cellAttributes alignment rowSpan colSpan ++ ">" ++ inner ++ "</td>") inner :=
  (element_cell alignment rowSpan colSpan inner).encloses (.inr (.inr (by decide)))

theorem flow_cell (alignment : Option Alignment) (rowSpan colSpan : Int) {inner : String}
    (h : Flow inner) :
    Flow ("<td" ++ cellAttributes alignment rowSpan colSpan ++ ">" ++ inner ++ "</td>") :=
  (encloses_cell alignment rowSpan colSpan inner).flow h

/-! ### Headings and notes -/

theorem toString_level {level : Int} (h : 1 ≤ level ∧ level ≤ 6) :
    ("h" ++ toString level).toList ∉ standAlone ∧ "h" ++ toString level ∈ headingNames := by
  obtain rfl | rfl | rfl | rfl | rfl | rfl :
      level = 1 ∨ level = 2 ∨ level = 3 ∨ level = 4 ∨ level = 5 ∨ level = 6 := by omega
  all_goals decide

/-- What stands between the tags of a heading: a link to itself. -/
def selfLink (slug inner : String) : String :=
  "<a href=\"" ++ escape ("#" ++ slug) ++ "\">" ++ inner ++ "</a>"

theorem headingText_eq (level : Int) (slug inner : String) :
    headingText level slug inner = startTag ("h" ++ toString level) [("id", slug)] ++
      selfLink slug inner ++ stopTag ("h" ++ toString level) := by
  have htag := startTag_singleton (k := "id") (s := "") (by decide) (by decide)
    ("h" ++ toString level) slug
  rw [String.empty_append] at htag
  rw [htag, selfLink, escape_append_of_unmarked (by decide)]
  unfold headingText
  apply String.toList_inj.mp
  simp [stopTag]

theorem flow_heading {level : Int} (hlevel : 1 ≤ level ∧ level ≤ 6) (slug : String)
    {inner : String} (h : Flow inner) : Flow (headingText level slug inner) := by
  rw [headingText_eq]
  exact .element (.heading slug hlevel) (toString_level hlevel).1 (flow_link _ h)

theorem startTag_reference (n : Nat) :
    startTag "a" [("href", "#fn-" ++ toString n), ("id", "fn-link-" ++ toString n)] =
      "<a href=\"#fn-" ++ toString n ++ "\" id=\"fn-link-" ++ toString n ++ "\">" := by
  rw [startTag, attributesText_cons_of_unmarked (by decide),
    attributesText_cons_of_unmarked (by decide), escape_append_toString (by decide),
    escape_append_toString (by decide), attributesText_nil]
  apply String.toList_inj.mp
  simp

/-- A reference is a mark around the tag that numbers it. -/
theorem element_noteReference (n : Nat) :
    Element "sup" [("class", "footnote-ref")] (noteReference n)
      (startTag "a" [("href", "#fn-" ++ toString n), ("id", "fn-link-" ++ toString n)] ++
        toString n ++ stopTag "a") := by
  refine (Element.classed "sup" "footnote-ref" _ (by decide) (by decide) (by decide)).of_eq ?_
  rw [startTag_reference]
  unfold noteReference
  apply String.toList_inj.mp
  simp [stopTag]

theorem encloses_noteReference (n : Nat) :
    Encloses (noteReference n)
      (startTag "a" [("href", "#fn-" ++ toString n), ("id", "fn-link-" ++ toString n)] ++
        toString n ++ stopTag "a") :=
  (element_noteReference n).encloses (.inr (.inr (by decide)))

theorem flow_noteReference (n : Nat) : Flow (noteReference n) := by
  have hnumber := Flow.text (unmarked_toString_nat n).safe
  exact (encloses_noteReference n).flow (.element (.reference n) (by decide) hnumber)

/-- The link from a note back to the reference. -/
def backLink (n : Nat) : String :=
  startTag "a" [("href", "#fn-link-" ++ toString n)] ++ "&#x21A9;" ++ stopTag "a"

/-- A note ends in a link back. -/
theorem noteItem_eq (n : Nat) (body : String) :
    noteItem n body = startTag "li" [("id", "fn-" ++ toString n)] ++
      (body ++ (" " ++ backLink n)) ++ stopTag "li" := by
  rw [backLink, startTag_singleton (by decide) (by decide),
    startTag_singleton (by decide) (by decide), escape_eq_self (unmarked_toString_nat n)]
  unfold noteItem
  apply String.toList_inj.mp
  simp [stopTag]

theorem flow_noteItem (n : Nat) {body : String} (h : Flow body) : Flow (noteItem n body) := by
  have hspace : Flow " " := .text (by decide)
  have hback : Flow (backLink n) := .element (.link _) (by decide) (.text (by decide))
  rw [noteItem_eq]
  exact .element (.note n) (by decide) (h.append (hspace.append hback))

/-! ### Lines and pages -/

/-- Flows on lines of their own. -/
theorem flow_joinLines {parts : List String} (h : ∀ s ∈ parts, Flow s) :
    Flow (joinLines parts) := by
  unfold joinLines
  induction parts with
  | nil => exact .empty
  | cons s rest ih =>
      have hs := h s List.mem_cons_self
      have hrest := ih fun t ht => h t (List.mem_cons_of_mem s ht)
      cases rest with
      | nil => rw [String.intercalate_singleton]; exact hs
      | cons t rest =>
          rw [String.intercalate_cons_cons]
          exact (hs.append flow_newline).append hrest

theorem joinLines_concat (parts : List String) (last : String) :
    joinLines (parts ++ [last]) = joinLines (parts ++ [""]) ++ last := by
  unfold joinLines
  induction parts with
  | nil => simp
  | cons s parts ih =>
      have hne : ∀ t : String, parts ++ [t] ≠ [] := by simp
      rw [List.cons_append, List.cons_append, String.intercalate_cons_of_ne_nil (hne _),
        String.intercalate_cons_of_ne_nil (hne _), ih]
      simp only [String.append_assoc]

/-- Parts on the lines between a first and a last one. -/
theorem joinLines_between (first last : String) (parts : List String) :
    joinLines ([first] ++ parts ++ [last]) =
      first ++ ("\n" ++ joinLines (parts ++ [""])) ++ last := by
  rw [joinLines_concat, List.append_assoc, List.singleton_append]
  have e : joinLines (first :: (parts ++ [""])) = first ++ "\n" ++ joinLines (parts ++ [""]) :=
    String.intercalate_cons_of_ne_nil (by simp)
  rw [e]
  simp only [String.append_assoc]

theorem flow_between {parts : List String} (h : ∀ s ∈ parts, Flow s) :
    Flow ("\n" ++ joinLines (parts ++ [""])) := by
  refine flow_newline.append (flow_joinLines fun s hs => ?_)
  rcases List.mem_append.mp hs with hs | hs
  · exact h s hs
  · rw [List.mem_singleton.mp hs]
    exact .empty

theorem flow_endLine {s : String} (h : Flow s) : Flow (endLine s) := by
  unfold endLine
  split
  · exact .empty
  · exact h.append flow_newline

/-! ### The head of a page -/

/-- The tag that opens a page. -/
def pageOpening (lang : Option String) : String :=
  match lang with
  | some lang => if lang.isEmpty then "<html>" else "<html lang=\"" ++ escape lang ++ "\">"
  | none => "<html>"

/-- The attributes of a page in a language, if one is given. -/
def pagePairs : Option String → List (String × String)
  | some lang => if lang.isEmpty then [] else [("lang", lang)]
  | none => []

theorem element_page (lang : Option String) (inner : String) :
    Element "html" (pagePairs lang) (pageOpening lang ++ inner ++ "</html>") inner := by
  unfold pageOpening pagePairs
  split
  · next lang =>
    split
    · exact .bare "html" inner (by decide) (by decide)
    · refine ⟨.page lang, by decide, ?_⟩
      have := startTag_singleton (k := "lang") (s := "") (by decide) (by decide) "html" lang
      rw [String.empty_append] at this
      rw [this, stopTag]
      apply String.toList_inj.mp
      simp
  · exact .bare "html" inner (by decide) (by decide)

theorem encloses_page (lang : Option String) (inner : String) :
    Encloses (pageOpening lang ++ inner ++ "</html>") inner :=
  (element_page lang inner).encloses (.inr (.inr (by decide)))

/-- What stands between the tags of a page's head. -/
def headContent (o : Options) (m : Metadata) : String :=
  "\n<meta charset=\"utf-8\">\n" ++
    (match m.get? "title" with
      | some title => "<title>" ++ escape title ++ "</title>\n"
      | none => "") ++
    String.join ((m.filter (·.1 != "title")).map fun (k, v) =>
      "<meta name=\"" ++ escape k ++ "\" content=\"" ++ escape v ++ "\">\n") ++
    String.join (o.css.map fun href =>
      "<link rel=\"stylesheet\" href=\"" ++ escape href ++ "\">\n")

theorem startTag_entry (key value : String) :
    startTag "meta" [("name", key), ("content", value)] ++ "\n" =
      "<meta name=\"" ++ escape key ++ "\" content=\"" ++ escape value ++ "\">\n" := by
  rw [startTag, attributesText_cons_of_unmarked (by decide),
    attributesText_cons_of_unmarked (by decide), attributesText_nil]
  apply String.toList_inj.mp
  simp

theorem startTag_sheet (href : String) :
    startTag "link" [("rel", "stylesheet"), ("href", href)] ++ "\n" =
      "<link rel=\"stylesheet\" href=\"" ++ escape href ++ "\">\n" := by
  rw [startTag, attributesText_cons_of_unmarked (by decide),
    attributesText_cons_of_unmarked (by decide), escape_eq_self (s := "stylesheet") (by decide),
    attributesText_nil]
  apply String.toList_inj.mp
  simp

namespace Compositional

variable {P : String → Prop} (hP : Compositional P)

include hP

theorem charset : P "<meta charset=\"utf-8\">" := hP.alone .charset (by decide)

theorem entry (key value : String) :
    P ("<meta name=\"" ++ Html.escape key ++ "\" content=\"" ++ Html.escape value ++ "\">\n") := by
  have h := hP.append (hP.alone (.entry key value) (by decide)) hP.newline
  rwa [startTag_entry] at h

theorem sheet (href : String) :
    P ("<link rel=\"stylesheet\" href=\"" ++ Html.escape href ++ "\">\n") := by
  have h := hP.append (hP.alone (.sheet href) (by decide)) hP.newline
  rwa [startTag_sheet] at h

theorem title (title : String) : P ("<title>" ++ Html.escape title ++ "</title>\n") := by
  have htag := Encloses.bare "title" (Html.escape title) (by decide) (by decide)
  have h := hP.append (hP.encloses htag (hP.escape title)) hP.newline
  refine Eq.subst (motive := P) ?_ h
  apply String.toList_inj.mp
  simp

theorem join {parts : List String} (h : ∀ s ∈ parts, P s) : P (String.join parts) := by
  induction parts with
  | nil => exact hP.text (by decide)
  | cons s rest ih =>
      rw [String.join_cons]
      exact hP.append (h s List.mem_cons_self) (ih fun t ht => h t (List.mem_cons_of_mem s ht))

theorem headContent (o : Options) (m : Metadata) : P (Html.headContent o m) := by
  unfold Html.headContent
  refine hP.append (hP.append (hP.append ?_ ?_) (hP.join ?_)) (hP.join ?_)
  · exact hP.append (hP.append hP.newline hP.charset) hP.newline
  · split
    · exact hP.title _
    · exact hP.text (by decide)
  · intro s hs
    obtain ⟨⟨k, v⟩, -, rfl⟩ := List.mem_map.mp hs
    exact hP.entry k v
  · intro s hs
    obtain ⟨href, -, rfl⟩ := List.mem_map.mp hs
    exact hP.sheet href

end Compositional

/-- A page is its head and its body inside one element. -/
theorem pageHead_eq (o : Options) (m : Metadata) :
    pageHead o m = "<!DOCTYPE html>\n" ++ pageOpening o.lang ++ "\n<head>" ++ headContent o m ++
      "</head>\n<body>\n" := by
  unfold pageHead headContent pageOpening
  apply String.toList_inj.mp
  cases m.get? "title" <;> cases o.lang with
  | none => simp
  | some lang => by_cases h : lang = "" <;> simp [h]

/-- The head of a page as an element. -/
def headElement (o : Options) (m : Metadata) : String :=
  "<head>" ++ headContent o m ++ "</head>"

theorem Compositional.headElement {P : String → Prop} (hP : Compositional P) (o : Options)
    (m : Metadata) : P (Html.headElement o m) :=
  hP.encloses (.bare "head" _ (by decide) (by decide)) (hP.headContent o m)

/-- The elements of a page around what stands in its body. -/
theorem pageHtml_standalone {o : Options} (h : o.standalone = true) (m : Metadata)
    (body notes : String) :
    pageHtml o m body notes = "<!DOCTYPE html>" ++ "\n" ++ (pageOpening o.lang ++
      ("\n" ++ headElement o m ++
        ("\n" ++ ("<body>" ++ ("\n" ++ (endLine body ++ endLine notes)) ++ "</body>") ++ "\n")) ++
      "</html>" ++ "\n") := by
  unfold pageHtml headElement
  rw [if_pos h, pageHead_eq]
  apply String.toList_inj.mp
  simp

/-- A body and its notes as the options ask for them. -/
theorem flow_pageHtml (o : Options) (m : Metadata) {body notes : String} (hbody : Flow body)
    (hnotes : Flow notes) : Flow (pageHtml o m body notes) := by
  have hinner := (flow_endLine hbody).append (flow_endLine hnotes)
  by_cases h : o.standalone = true
  · rw [pageHtml_standalone h]
    have hhead := flow_compositional.headElement o m
    have hmain := Flow.bare "body" (by decide) (by decide) (flow_newline.append hinner)
    have hpage := (encloses_page o.lang _).flow
      ((flow_newline.append hhead).append ((flow_newline.append hmain).append flow_newline))
    exact (Flow.doctype.append flow_newline).append (hpage.append flow_newline)
  · unfold pageHtml
    rw [if_neg h]
    exact hinner

end Markup.Html
