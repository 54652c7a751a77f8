import Markup.Proofs.Html.Anchor
import Markup.Proofs.Html.StartTag

/-! # The start tags that a document means

`documentTags` goes through a document as the writer does, takes slugs and numbers notes as it does,
and lists the start tags that the templates have for the parts: their names, and their attributes
with the strings of the document as they are.  No text is written on the way, and nothing is
escaped.

`Holds` says of written HTML that reading its start tags gives these, up to what becomes of a tag
when it is written and read again (`StartTag.reread`).  It has a rule for each template, for parts
on lines of their own and for pages (`holds_pageHtml`). -/

namespace Markup

/-- Inline content that is gone once whitespace is taken off the ends of what is written of it.
Whitespace outside ASCII is not, since it is written as a reference. -/
def Inline.vanishes : Inline → Bool
  | .text s => s.toList.all fun c => c.toNat < 128 && Unicode.isWhitespace c
  | .space => true
  | _ => false

namespace Html

/-! ### The tags of a part -/

/-- The start tag of a styled run. -/
def styleTag : Style → StartTag
  | .emph => ⟨"em", []⟩
  | .strong => ⟨"strong", []⟩
  | .superscript => ⟨"sup", []⟩
  | .subscript => ⟨"sub", []⟩
  | .smallCaps => ⟨"span", [("class", "smallcaps")]⟩
  | .strikeout => ⟨"s", []⟩
  | .underline => ⟨"u", []⟩

/-- The start tags of the reference to a note. -/
def referenceTags (n : Nat) : List StartTag :=
  [⟨"sup", [("class", "footnote-ref")]⟩,
    ⟨"a", [("href", "#fn-" ++ toString n), ("id", "fn-link-" ++ toString n)]⟩]

/-- The start tags of what stands in an element, behind its own. -/
def StartTag.around (t : StartTag) (inner : Render (List StartTag)) : Render (List StartTag) := do
  let tags ← inner
  return t :: tags

/-- The start tags of one part, and those of the next. -/
def inTurn (first next : Render (List StartTag)) : Render (List StartTag) := do
  let here ← first
  let after ← next
  return here ++ after

mutual

/-- The start tags of inline content. -/
def inlineTags : Inline → Render (List StartTag)
  | .text _ | .space => return []
  | .styled style content => (styleTag style).around (inlinesTags content)
  | .quote _ content => inlinesTags content
  | .code _ language => return [⟨"code", languagePairs language⟩]
  | .link target content _ _ => StartTag.around ⟨"a", [("href", target)]⟩ (linkTags content)
  | .footnote content => return referenceTags (← addNote content)
  | .math _ => return [⟨"span", [("class", "math inline")]⟩]
  | .foreign value => throw (.unknownNode value.kindName)

/-- The start tags of a run of inline content. -/
def inlinesTags : List Inline → Render (List StartTag)
  | [] => return []
  | i :: rest => inTurn (inlineTags i) (inlinesTags rest)

/-- The start tags of what a link shows. -/
def linkTags : Option (List Inline) → Render (List StartTag)
  | some content => inlinesTags content
  | none => return []

/-- The start tags of a block; a blank paragraph has none. -/
def blockTags : Block → Render (List StartTag)
  | .plain content => inlinesTags content
  | .par content =>
    if isBlankRun content then return [] else StartTag.around ⟨"p", []⟩ (inlinesTags content)
  | .codeBlock language content =>
    StartTag.around ⟨"pre", []⟩ (StartTag.around ⟨"code", languagePairs language⟩
      (inlinesTags content))
  | .blockQuote content => StartTag.around ⟨"blockquote", []⟩ (blocksTags content)
  | .tagged content metadata => (StartTag.tagged metadata).around (blocksTags content)
  | .list kind items => StartTag.around ⟨listTag kind, []⟩ (itemsTags items)
  | .termList items => StartTag.around ⟨"dl", []⟩ (termsTags items)
  | .heading level text => do
    unless 1 ≤ level ∧ level ≤ 6 do throw (.headingLevel level)
    let slug ← takeSlug (plainText text)
    StartTag.around ⟨"h" ++ toString level, [("id", slug)]⟩
      (StartTag.around ⟨"a", [("href", "#" ++ slug)]⟩ (inlinesTags text))
  | .rule => return [⟨"hr", []⟩]
  | .table _ rows => StartTag.around ⟨"table", []⟩ (rowsTags rows)
  | .figure content caption => do
    -- the caption is numbered first and stands last
    let under ← inlinesTags caption
    let inner ← blocksTags content
    let caption := if caption.all Inline.vanishes then [] else ⟨"figcaption", []⟩ :: under
    return ⟨"figure", []⟩ :: (inner ++ caption)
  | .defn kind content =>
    StartTag.around ⟨"div", [("class", "defn defn-" ++ kind)]⟩ (blocksTags content)
  | .mathBlock _ => return [⟨"div", [("class", "math display")]⟩]
  | .foreign value => throw (.unknownNode value.kindName)

/-- The start tags of blocks. -/
def blocksTags : List Block → Render (List StartTag)
  | [] => return []
  | b :: rest => inTurn (blockTags b) (blocksTags rest)

/-- The start tags of the blocks of an item; a lone paragraph has none of its own. -/
def tightTags : List Block → Render (List StartTag)
  | [] => return []
  | b :: rest =>
    match b, rest with
    | .par content, [] | .plain content, [] => inlinesTags content
    | _, _ => inTurn (blockTags b) (blocksTags rest)

/-- The start tags of the items of a list. -/
def itemsTags : List ListItem → Render (List StartTag)
  | [] => return []
  | .mk content label :: rest =>
    inTurn (StartTag.around ⟨"li", []⟩ (inTurn (labelTags label) (tightTags content)))
      (itemsTags rest)

/-- The start tags of the label of an item. -/
def labelTags : Option (List Inline) → Render (List StartTag)
  | none => return []
  | some label => StartTag.around ⟨"span", [("class", "label")]⟩ (inlinesTags label)

/-- The start tags of terms and definitions. -/
def termsTags : List TermItem → Render (List StartTag)
  | [] => return []
  | .mk term content :: rest =>
    inTurn (StartTag.around ⟨"dt", []⟩ (inlinesTags term))
      (inTurn (StartTag.around ⟨"dd", []⟩ (tightTags content)) (termsTags rest))

/-- The start tags of the cells of a row. -/
def cellsTags : List TableCell → Render (List StartTag)
  | [] => return []
  | .mk content alignment rowSpan colSpan :: rest =>
    inTurn (StartTag.around ⟨"td", cellPairs alignment rowSpan colSpan⟩ (tightTags content))
      (cellsTags rest)

/-- The start tags of the rows of a table. -/
def rowsTags : List (List TableCell) → Render (List StartTag)
  | [] => return []
  | row :: rest => inTurn (StartTag.around ⟨"tr", []⟩ (cellsTags row)) (rowsTags rest)

end

/-! ### The tags of a page -/

/-- The start tags of a note, with the link back behind what is in it. -/
def noteTags (n : Nat) (content : List Block) : Render (List StartTag) :=
  StartTag.around ⟨"li", [("id", "fn-" ++ toString n)]⟩
    (inTurn (tightTags content) (return [⟨"a", [("href", "#fn-link-" ++ toString n)]⟩]))

/-- The start tags of the notes in the queue from number `i` (counted from zero) on. -/
def queueTags : Nat → Nat → Render (List StartTag)
  | 0, _ => return []
  | turns + 1, i => do
    match (← get).notes[i]? with
    | none => return []
    | some content => inTurn (noteTags (i + 1) content) (queueTags turns (i + 1))

/-- The start tags of all notes; `turns` bounds their number. -/
def notesTags (turns : Nat) : Render (List StartTag) := do
  if (← get).notes.isEmpty then return []
  StartTag.around ⟨"ol", [("class", "footnotes")]⟩ (queueTags turns 0)

/-- The start tags in the head of a page. -/
def headTags (o : Options) (m : Metadata) : List StartTag :=
  ⟨"meta", [("charset", "utf-8")]⟩ ::
    ((m.get? "title").map fun _ => ⟨"title", []⟩).toList ++
    (m.filter (·.1 != "title")).map (fun (k, v) => ⟨"meta", [("name", k), ("content", v)]⟩) ++
    o.css.map fun href => ⟨"link", [("rel", "stylesheet"), ("href", href)]⟩

/-- The start tags of a page around those of its body, as the options ask for them. -/
def pageTags (o : Options) (m : Metadata) (body : List StartTag) : List StartTag :=
  if o.standalone then
    ⟨"html", pagePairs o.lang⟩ :: ⟨"head", []⟩ :: headTags o m ++ ⟨"body", []⟩ :: body
  else body

/-- The start tags of the body of a document and of its notes. -/
def bodyTags (content : List Block) : Render (List StartTag) :=
  inTurn (blocksTags content) (notesTags (blocksNotes content))

/-- The start tags that a document means, in the order of the page. -/
def documentTags (o : Options) (d : Document) : Except RenderError (List StartTag) := do
  let (tags, _) ← (bodyTags d.content).run {}
  return pageTags o d.metadata tags

/-! ### Written HTML and its start tags -/

/-- Written HTML and the start tags that are meant in it, each read as it is when it was written. -/
structure Holds (html : String) (tags : List StartTag) : Prop where
  flow : Flow html
  template : ∀ t ∈ tags, Template t.name t.attributes
  reads : ∃ insides, Reads html insides ∧
    insides.filterMap StartTag.read? = tags.map StartTag.reread

section rules

variable {html inner s s' : String} {tags tags' : List StartTag}

theorem Holds.text (h : Safe s) : Holds s [] :=
  ⟨.text h, List.forall_mem_nil _, [], .text h, rfl⟩

theorem holds_escape (s : String) : Holds (escape s) [] := .text (safe_escape s)

theorem holds_newline : Holds "\n" [] := .text (by decide)

theorem Holds.append (h : Holds s tags) (h' : Holds s' tags') :
    Holds (s ++ s') (tags ++ tags') := by
  obtain ⟨hflow, htemplate, is, hreads, hread⟩ := h
  obtain ⟨hflow', htemplate', js, hreads', hread'⟩ := h'
  refine ⟨hflow.append hflow', List.forall_mem_append.mpr ⟨htemplate, htemplate'⟩, is ++ js,
    hreads.append hreads', ?_⟩
  rw [List.filterMap_append, hread, hread', List.map_append]

/-- An element holds its own tag, and what is between its tags. -/
theorem Holds.element {name : String} {attributes : List (String × String)}
    (h : Element name attributes html inner) (hinner : Holds inner tags) :
    Holds html (⟨name, attributes⟩ :: tags) := by
  obtain ⟨hflow, htemplates, is, hreads, hread⟩ := hinner
  obtain ⟨htemplate, hclosed, rfl⟩ := h
  refine ⟨.element htemplate hclosed hflow, List.forall_mem_cons.mpr ⟨htemplate, htemplates⟩, _,
    .element htemplate hclosed hreads, ?_⟩
  rw [List.cons_append, List.filterMap_cons_some htemplate.read?_text, List.filterMap_append,
    hread, List.filterMap_cons_none (read?_stop name), List.filterMap_nil, List.append_nil,
    List.map_cons]

/-- A tag that stands alone. -/
theorem Holds.alone {name : String} {attributes : List (String × String)}
    (h : Template name attributes) (halone : name.toList ∈ standAlone) :
    Holds (startTag name attributes) [⟨name, attributes⟩] := by
  have hrole : TagRole.of (name ++ attributesText attributes).toList = .alone := by
    rw [h.role_start, if_pos halone]
  refine ⟨.alone h halone, List.forall_mem_singleton.mpr h, _, .alone (.start h) hrole, ?_⟩
  rw [List.filterMap_cons_some h.read?_text]
  rfl

/-- The first line of a page is no start tag. -/
theorem holds_doctype : Holds "<!DOCTYPE html>" [] :=
  ⟨.doctype, List.forall_mem_nil _, _, .alone .doctype (by decide), rfl⟩

theorem Holds.strip (h : Holds html tags) : Holds (Text.strip html) tags := by
  obtain ⟨hflow, htemplate, is, hreads, hread⟩ := h
  exact ⟨hflow.strip, htemplate, is, hreads.strip hflow, hread⟩

/-- What is empty holds no tags. -/
theorem Holds.eq_nil (h : Holds "" tags) : tags = [] := by
  obtain ⟨-, -, is, hreads, hread⟩ := h
  have hnone : is = [] := hreads.unique (.text (by decide))
  rw [hnone] at hread
  exact List.map_eq_nil_iff.mp hread.symm

/-! ### Templates -/

theorem holds_bare (name : String) (h : name ∈ bareNames) (hclosed : name.toList ∉ standAlone)
    (hinner : Holds inner tags) :
    Holds ("<" ++ name ++ ">" ++ inner ++ ("</" ++ name ++ ">")) (⟨name, []⟩ :: tags) :=
  .element (.bare name inner h hclosed) hinner

theorem holds_rule : Holds "<hr>" [⟨"hr", []⟩] := by
  have h : Template "hr" [] := .bare (by decide)
  exact .alone h (by decide)

theorem holds_styled (style : Style) (hinner : Holds inner tags) :
    Holds ((styleTags style).1 ++ inner ++ (styleTags style).2) (styleTag style :: tags) := by
  cases style with
  | emph => exact holds_bare "em" (by decide) (by decide) hinner
  | strong => exact holds_bare "strong" (by decide) (by decide) hinner
  | superscript => exact holds_bare "sup" (by decide) (by decide) hinner
  | subscript => exact holds_bare "sub" (by decide) (by decide) hinner
  | smallCaps =>
      have h := Element.classed "span" "smallcaps" inner (by decide) (by decide) (by decide)
      exact .element h hinner
  | strikeout => exact holds_bare "s" (by decide) (by decide) hinner
  | underline => exact holds_bare "u" (by decide) (by decide) hinner

theorem holds_list (kind : ListKind) (hinner : Holds inner tags) :
    Holds ("<" ++ listTag kind ++ ">" ++ inner ++ ("</" ++ listTag kind ++ ">"))
      (⟨listTag kind, []⟩ :: tags) := by
  cases kind with
  | ordered => exact holds_bare "ol" (by decide) (by decide) hinner
  | unordered => exact holds_bare "ul" (by decide) (by decide) hinner

theorem holds_noteReference (n : Nat) : Holds (noteReference n) (referenceTags n) := by
  have hnumber : Holds (toString n) [] := .text (unmarked_toString_nat n).safe
  exact .element (element_noteReference n)
    (.element ⟨.reference n, by decide, rfl⟩ hnumber)

theorem holds_noteItem (n : Nat) (hinner : Holds inner tags) :
    Holds (noteItem n inner) (⟨"li", [("id", "fn-" ++ toString n)]⟩ ::
      (tags ++ [⟨"a", [("href", "#fn-link-" ++ toString n)]⟩])) := by
  have hspace : Holds " " [] := .text (by decide)
  have harrow : Holds "&#x21A9;" [] := .text (by decide)
  have hback : Holds (backLink n) [⟨"a", [("href", "#fn-link-" ++ toString n)]⟩] :=
    .element ⟨.link _, by decide, rfl⟩ harrow
  rw [noteItem_eq]
  exact .element ⟨.note n, by decide, rfl⟩ (hinner.append (hspace.append hback))

theorem holds_headingText {level : Int} (hlevel : 1 ≤ level ∧ level ≤ 6) (slug : String)
    (hinner : Holds inner tags) :
    Holds (headingText level slug inner) (⟨"h" ++ toString level, [("id", slug)]⟩ ::
      ⟨"a", [("href", "#" ++ slug)]⟩ :: tags) := by
  rw [headingText_eq]
  exact .element ⟨.heading slug hlevel, (toString_level hlevel).1, rfl⟩
    (.element (element_link ("#" ++ slug) inner) hinner)

/-! ### Lines -/

/-- Parts on lines of their own, and the start tags that are meant in them. -/
def HoldLines (parts : List String) (tags : List StartTag) : Prop := Holds (joinLines parts) tags

variable {parts : List String}

theorem HoldLines.nil : HoldLines [] [] := Holds.text (s := "") (by decide)

theorem HoldLines.cons (hs : Holds s tags) (h : HoldLines parts tags') :
    HoldLines (s :: parts) (tags ++ tags') := by
  unfold HoldLines joinLines at h ⊢
  cases parts with
  | nil =>
      rw [h.eq_nil, List.append_nil, String.intercalate_singleton]
      exact hs
  | cons t parts =>
      rw [String.intercalate_cons_cons]
      have hline := (hs.append holds_newline).append h
      rwa [List.append_nil] at hline

/-- Leaving out a part that is empty leaves out no tag. -/
theorem HoldLines.consUnlessEmpty (hs : Holds s tags) (h : HoldLines parts tags') :
    HoldLines (if s.isEmpty then parts else s :: parts) (tags ++ tags') := by
  split
  · next hempty =>
    rw [String.isEmpty_iff.mp hempty] at hs
    rwa [hs.eq_nil, List.nil_append]
  · exact .cons hs h

/-- Parts on the lines between the tags of an element. -/
theorem HoldLines.between (h : HoldLines parts tags) :
    Holds ("\n" ++ joinLines (parts ++ [""])) tags := by
  unfold HoldLines joinLines at *
  cases parts with
  | nil =>
      rw [h.eq_nil]
      exact holds_newline
  | cons t parts =>
      rw [String.intercalate_append_of_ne_nil (List.cons_ne_nil t parts) (List.cons_ne_nil _ _),
        String.intercalate_singleton, String.append_empty]
      have hlines := holds_newline.append (h.append holds_newline)
      rwa [List.nil_append, List.append_nil] at hlines

/-- Parts on lines, with a line end before and after. -/
theorem HoldLines.lines (h : HoldLines parts tags) :
    Holds ("\n" ++ joinLines parts ++ "\n") tags := by
  have hlines := (holds_newline.append h).append holds_newline
  rwa [List.nil_append, List.append_nil] at hlines

end rules

/-! ### Pages -/

theorem Holds.endLine {s : String} {tags : List StartTag} (h : Holds s tags) :
    Holds (endLine s) tags := by
  unfold Html.endLine
  split
  · next hempty =>
    rw [String.isEmpty_iff.mp hempty] at h
    exact h
  · simpa using h.append holds_newline

/-- Parts of which each holds tags, one behind another. -/
theorem holds_join {α : Type} {f : α → String} {g : α → StartTag} {xs : List α}
    (h : ∀ x ∈ xs, Holds (f x) [g x]) : Holds (String.join (xs.map f)) (xs.map g) := by
  induction xs with
  | nil => exact Holds.text (s := "") (by decide)
  | cons x xs ih =>
      rw [List.map_cons, String.join_cons]
      exact (h x List.mem_cons_self).append (ih fun y hy => h y (List.mem_cons_of_mem x hy))

/-- A tag that stands alone on its line. -/
theorem Holds.aloneLine {name : String} {attributes : List (String × String)} {line : String}
    (h : Template name attributes) (halone : name.toList ∈ standAlone)
    (hline : startTag name attributes ++ "\n" = line) : Holds line [⟨name, attributes⟩] := by
  have hboth := (Holds.alone h halone).append holds_newline
  rwa [List.append_nil, hline] at hboth

theorem holds_headContent (o : Options) (m : Metadata) :
    Holds (headContent o m) (headTags o m) := by
  unfold headContent headTags
  have hcharset : Holds "\n<meta charset=\"utf-8\">\n" [⟨"meta", [("charset", "utf-8")]⟩] := by
    have hline : Holds "<meta charset=\"utf-8\">\n" [⟨"meta", [("charset", "utf-8")]⟩] :=
      .aloneLine .charset (by decide) (by decide)
    exact holds_newline.append hline
  refine ((hcharset.append ?_).append (holds_join ?_)).append (holds_join ?_)
  · cases m.get? "title" with
    | none => exact .text (by decide)
    | some title =>
        have htag := holds_bare "title" (by decide) (by decide) (holds_escape title)
        have hline := htag.append holds_newline
        refine Eq.subst (motive := (Holds · _)) ?_ hline
        apply String.toList_inj.mp
        simp
  · exact fun (k, v) _ => .aloneLine (.entry k v) (by decide) (startTag_entry k v)
  · exact fun href _ => .aloneLine (.sheet href) (by decide) (startTag_sheet href)

theorem holds_pageHtml (o : Options) (m : Metadata) {body notes : String}
    {tags tags' : List StartTag} (hbody : Holds body tags) (hnotes : Holds notes tags') :
    Holds (pageHtml o m body notes) (pageTags o m (tags ++ tags')) := by
  have hinner := hbody.endLine.append hnotes.endLine
  by_cases h : o.standalone = true
  · rw [pageHtml_standalone h, pageTags, if_pos h, headElement]
    have hhead := holds_bare "head" (by decide) (by decide) (holds_headContent o m)
    have hmain := holds_bare "body" (by decide) (by decide) (holds_newline.append hinner)
    have hpage := Holds.element (element_page o.lang _) ((holds_newline.append hhead).append
      ((holds_newline.append hmain).append holds_newline))
    simpa using (holds_doctype.append holds_newline).append (hpage.append holds_newline)
  · rw [pageTags, if_neg h]
    unfold pageHtml
    rw [if_neg h]
    exact hinner

end Html

end Markup
