import Markup.Proofs.Html.Anchor

/-! # Headings and references in the order in which they are read

Reading the landmarks of written HTML off its tags: the ids of headings (`headingIds`), and the
references to notes, which `references` gives in the order of the text.  A heading should be
followed by a link to itself (`SelfLinked`).

`Bears` says of a text which slugs its headings have and which numbers its references have, both in
the order in which they stand there, and that each of these numbers can be seen.  As with the
numbers of notes, elements without an id, lines and whitespace at the ends change nothing; a
reference adds a number (`bears_noteReference`), and a heading a slug (`bears_headingText`). -/

namespace Markup.Html

open Text Unicode

/-! ### Reading headings -/

/-- The id of a heading. -/
def headingId? (inside : List Char) : Option String :=
  if tagName inside ∈ headingNames then (tagAttributes inside).lookup "id" else none

/-- The ids of all headings, in order. -/
def headingIds (tags : List (List Char)) : List String := tags.filterMap headingId?

/-- A heading with this id whose first element is a link to it. -/
def SelfLinked (tags : List (List Char)) (id : String) : Prop :=
  ∃ before heading link after, tags = before ++ heading :: link :: after ∧
    headingId? heading = some id ∧ tagName link = "a" ∧ tagAttributes link = [("href", "#" ++ id)]

theorem SelfLinked.between {tags : List (List Char)} {id : String} (h : SelfLinked tags id)
    (first last : List (List Char)) : SelfLinked (first ++ tags ++ last) id := by
  obtain ⟨before, heading, link, after, rfl, hlinked⟩ := h
  exact ⟨first ++ before, heading, link, after ++ last, by simp, hlinked⟩

theorem SelfLinked.mem_headingIds {tags : List (List Char)} {id : String}
    (h : SelfLinked tags id) : id ∈ headingIds tags := by
  obtain ⟨before, heading, link, after, rfl, hid, -⟩ := h
  exact List.mem_filterMap.mpr ⟨heading, by simp, hid⟩

/-! ### Tags that are no landmarks -/

/-- A tag that is neither a reference nor a heading. -/
def Silent (tag : List Char) : Prop := reference? tag = none ∧ headingId? tag = none

theorem Template.silent_start {name : String} {attributes : List (String × String)}
    (h : Template name attributes) (hanonymous : Anonymous name attributes) :
    Silent (name ++ attributesText attributes).toList := by
  refine ⟨(h.unnumbered_start hanonymous).1, ?_⟩
  unfold headingId?
  rw [h.tagName_start]
  obtain rfl | ⟨target, rfl⟩ | hname := hanonymous
  · rw [h.tagAttributes_start (by simp)]
    simp
  · rw [h.tagAttributes_start (by simp; decide)]
    simp
  · rw [if_neg fun hheading => hname (List.mem_cons_of_mem _ (List.mem_cons_of_mem _ hheading))]

theorem silent_stop (name : String) : Silent ("/" ++ name).toList := by
  refine ⟨(unnumbered_stop name).1, if_neg fun hheading => ?_⟩
  have hslash : (tagName ("/" ++ name).toList).toList.head? = some '/' := by simp [tagName]
  have hnames : ∀ name ∈ headingNames, name.toList.head? ≠ some '/' := by decide
  exact hnames _ hheading hslash

theorem silent_alone {inside : List Char} (h : TagRole.of inside = .alone) : Silent inside := by
  refine ⟨(unnumbered_alone h).1, if_neg fun hheading => ?_⟩
  have hnames : ∀ name ∈ standAlone, String.ofList name ∉ headingNames := by decide
  exact hnames _ (mem_standAlone_of_alone h) hheading

/-! ### The landmarks of tags -/

/-- The slugs of headings and the numbers of references, each in the order of a text. -/
structure Landmarks where
  slugs : List String := []
  refs : List Nat := []

namespace Landmarks

/-- The landmarks of one text and of another behind it. -/
def append (m m' : Landmarks) : Landmarks := ⟨m.slugs ++ m'.slugs, m.refs ++ m'.refs⟩

instance : Append Landmarks := ⟨append⟩

@[simp] theorem slugs_append (m m' : Landmarks) : (m ++ m').slugs = m.slugs ++ m'.slugs := rfl

@[simp] theorem refs_append (m m' : Landmarks) : (m ++ m').refs = m.refs ++ m'.refs := rfl

@[simp] theorem append_empty (m : Landmarks) : m ++ ({} : Landmarks) = m := by
  change Landmarks.mk _ _ = _
  simp

@[simp] theorem empty_append (m : Landmarks) : ({} : Landmarks) ++ m = m := rfl

theorem append_assoc (m m' m'' : Landmarks) : m ++ m' ++ m'' = m ++ (m' ++ m'') := by
  change Landmarks.mk _ _ = Landmarks.mk _ _
  simp

end Landmarks

/-- Tags with these landmarks, in this order; each heading links to itself. -/
structure Marks (tags : List (List Char)) (m : Landmarks) : Prop where
  refers : references tags = m.refs.map referenceTo
  heads : headingIds tags = m.slugs.map escape
  selfLinks : ∀ slug ∈ m.slugs, SelfLinked tags (escape slug)

theorem Marks.selfLinked {tags : List (List Char)} {m : Landmarks} (h : Marks tags m) :
    ∀ id ∈ headingIds tags, SelfLinked tags id := by
  intro id hid
  rw [h.heads] at hid
  obtain ⟨slug, hslug, rfl⟩ := List.mem_map.mp hid
  exact h.selfLinks slug hslug

theorem marks_nil : Marks [] {} where
  refers := rfl
  heads := rfl
  selfLinks := fun _ h => by cases h

theorem Marks.append {tags tags' : List (List Char)} {m m' : Landmarks} (h : Marks tags m)
    (h' : Marks tags' m') : Marks (tags ++ tags') (m ++ m') where
  refers := by
    rw [references, List.filterMap_append, Landmarks.refs_append, List.map_append, ← h.refers,
      ← h'.refers]
    rfl
  heads := by
    rw [headingIds, List.filterMap_append, Landmarks.slugs_append, List.map_append, ← h.heads,
      ← h'.heads]
    rfl
  selfLinks := by
    intro slug hslug
    rcases List.mem_append.mp hslug with hslug | hslug
    · exact (h.selfLinks slug hslug).between [] tags'
    · simpa using (h'.selfLinks slug hslug).between tags []

theorem marks_silent {tag : List Char} (h : Silent tag) : Marks [tag] {} where
  refers := by simp [references, h.1]
  heads := by simp [headingIds, h.2]
  selfLinks := fun _ h => by cases h

/-- The tags of an element that is no landmark. -/
theorem Marks.element {start stop : List Char} {tags : List (List Char)} {m : Landmarks}
    (h : Marks tags m) (hstart : Silent start) (hstop : Silent stop) :
    Marks (start :: tags ++ [stop]) m := by
  simpa using ((marks_silent hstart).append h).append (marks_silent hstop)

/-- The start tag of a heading, in front of a link to it. -/
theorem Marks.heading {start link : List Char} {rest : List (List Char)} {m : Landmarks}
    {slug : String} (h : Marks (link :: rest) m) (hstart : reference? start = none)
    (hid : headingId? start = some (escape slug)) (hname : tagName link = "a")
    (hlink : tagAttributes link = [("href", "#" ++ escape slug)]) :
    Marks (start :: link :: rest) (⟨[slug], []⟩ ++ m) where
  refers := by
    rw [Landmarks.refs_append, List.nil_append, ← h.refers]
    exact List.filterMap_cons_none hstart
  heads := by
    rw [Landmarks.slugs_append, List.map_append, ← h.heads]
    exact List.filterMap_cons_some hid
  selfLinks := by
    intro other hother
    rcases List.mem_append.mp hother with hother | hother
    · rw [List.mem_singleton.mp hother]
      exact ⟨[], start, link, rest, rfl, hid, hname, hlink⟩
    · simpa using (h.selfLinks other hother).between [start] []

/-! ### The landmarks of a text -/

/-- Written HTML with its landmarks; the reference of each number shows that number. -/
structure Bears (html : String) (m : Landmarks) : Prop where
  flow : Flow html
  spelled : ∀ n ∈ m.refs, (noteReference n).toList <:+: html.toList
  marks : ∃ tags, Reads html tags ∧ Marks tags m

section rules

variable {html s t inner : String} {m m' : Landmarks}

theorem Bears.text (h : Safe s) : Bears s {} :=
  ⟨.text h, List.forall_mem_nil _, [], .text h, marks_nil⟩

theorem Bears.append (hs : Bears s m) (ht : Bears t m') : Bears (s ++ t) (m ++ m') := by
  obtain ⟨hsflow, hsspelled, is, hsreads, hsmarks⟩ := hs
  obtain ⟨htflow, htspelled, js, htreads, htmarks⟩ := ht
  refine ⟨hsflow.append htflow, fun n hn => ?_, is ++ js, hsreads.append htreads,
    hsmarks.append htmarks⟩
  rw [String.toList_append]
  rcases List.mem_append.mp hn with hn | hn
  · exact (hsspelled n hn).trans (List.prefix_append _ _).isInfix
  · exact (htspelled n hn).trans (List.suffix_append _ _).isInfix

/-- What is inside an element can be seen in it. -/
theorem infix_element {piece : List Char} (h : piece <:+: inner.toList) (start stop : String) :
    piece <:+: (start ++ inner ++ stop).toList := by
  rw [String.toList_append, String.toList_append]
  exact h.trans ⟨start.toList, stop.toList, rfl⟩

/-- An element that is no landmark bears what stands between its tags. -/
theorem Bears.element {name : String} {attributes : List (String × String)}
    (hinner : Bears inner m) (h : Template name attributes) (hclosed : name.toList ∉ standAlone)
    (hsilent : Silent (name ++ attributesText attributes).toList) :
    Bears (startTag name attributes ++ inner ++ stopTag name) m := by
  obtain ⟨hflow, hspelled, tags, hreads, hmarks⟩ := hinner
  exact ⟨.element h hclosed hflow, fun n hn => infix_element (hspelled n hn) _ _, _,
    .element h hclosed hreads, hmarks.element hsilent (silent_stop name)⟩

theorem Bears.encloses (h : Encloses html inner) (hinner : Bears inner m) : Bears html m := by
  obtain ⟨name, attributes, htemplate, hanonymous, hclosed, rfl⟩ := h
  exact hinner.element htemplate hclosed (htemplate.silent_start hanonymous)

/-- Texts without landmarks are put together from parts without any. -/
theorem bears_compositional : Compositional (Bears · {}) where
  text := .text
  append := Bears.append
  doctype := ⟨.doctype, List.forall_mem_nil _, _, .alone .doctype (by decide),
    marks_silent (silent_alone (by decide))⟩
  alone := by
    intro name attributes h halone
    have hrole : TagRole.of (name ++ attributesText attributes).toList = .alone := by
      rw [h.role_start, if_pos halone]
    exact ⟨.alone h halone, List.forall_mem_nil _, _, .alone (.start h) hrole,
      marks_silent (silent_alone hrole)⟩
  encloses := Bears.encloses

/-- What is empty has no landmarks. -/
theorem Bears.eq_empty (h : Bears "" m) : m = {} := by
  obtain ⟨-, -, tags, hreads, hmarks⟩ := h
  have htags : tags = [] := hreads.unique (.text (by decide))
  subst htags
  have hrefs := hmarks.refers
  have hslugs := hmarks.heads
  simp [references, headingIds] at hrefs hslugs
  obtain ⟨slugs, refs⟩ := m
  rw [show slugs = [] from hslugs, show refs = [] from hrefs]

/-! ### Whitespace at the ends -/

/-- A piece that neither begins nor ends with whitespace stays when it is taken off the ends. -/
theorem infix_strip {piece : List Char}
    (hfirst : ∀ rest, (piece ++ rest).dropWhile isWhitespace = piece ++ rest)
    (hlast : ∀ before, trimEnd isWhitespace (before ++ piece) = before ++ piece)
    (h : piece <:+: html.toList) : piece <:+: (Text.strip html).toList := by
  obtain ⟨before, after, heq⟩ := h
  have hdrop : html.toList.dropWhile isWhitespace =
      before.dropWhile isWhitespace ++ piece ++ after := by
    rw [← heq, List.append_assoc, List.dropWhile_append, hfirst, List.append_assoc]
    split
    · next hempty => rw [List.isEmpty_iff.mp hempty, List.nil_append]
    · rfl
  rw [Text.strip, Text.trim, String.toList_ofList, hdrop, trimEnd_append, hlast]
  split
  · exact (List.suffix_append _ piece).isInfix
  · exact List.infix_append _ piece _

/-- A reference begins and ends with a bracket. -/
theorem noteReference_toList (n : Nat) :
    ∃ piece, (noteReference n).toList = '<' :: piece ++ ['>'] := by
  obtain ⟨name, attributes, -, -, -, heq⟩ := encloses_noteReference n
  rw [heq, String.toList_append, String.toList_append, startTag_toList, stopTag_toList]
  exact ⟨_, (List.append_assoc _ _ ['>']).symm⟩

theorem Bears.strip (h : Bears html m) : Bears (Text.strip html) m := by
  obtain ⟨hflow, hspelled, tags, hreads, hmarks⟩ := h
  refine ⟨hflow.strip, fun n hn => ?_, tags, hreads.strip hflow, hmarks⟩
  obtain ⟨piece, heq⟩ := noteReference_toList n
  refine infix_strip (fun rest => ?_) (fun before => ?_) (hspelled n hn)
  · rw [heq]
    exact List.dropWhile_cons_of_neg (by decide)
  · rw [heq, ← List.append_assoc, trimEnd, List.reverse_concat,
      List.dropWhile_cons_of_neg (by decide), ← List.reverse_concat, List.reverse_reverse]

end rules

/-! ### References, notes and headings -/

theorem marks_reference (n : Nat) :
    Marks [("a" ++ attributesText
      [("href", "#fn-" ++ toString n), ("id", "fn-link-" ++ toString n)]).toList] ⟨[], [n]⟩ where
  refers := List.perm_singleton.mp (mentions_reference n).refers
  heads := by
    rw [headingIds, List.filterMap_cons_none]
    · rfl
    · exact if_neg (by rw [(Template.reference n).tagName_start]; decide)
  selfLinks := fun _ h => by cases h

theorem bears_noteReference (n : Nat) : Bears (noteReference n) ⟨[], [n]⟩ := by
  have hnumber := (unmarked_toString_nat n).safe
  have hmarks := (marks_reference n).append (marks_silent (silent_stop "a"))
  refine ⟨flow_noteReference n, fun k hk => ?_, ?_⟩
  · obtain rfl : k = n := List.mem_singleton.mp hk
    exact List.infix_rfl
  · obtain ⟨name, attributes, htemplate, hanonymous, hclosed, heq⟩ := encloses_noteReference n
    rw [heq]
    exact ⟨_, .element htemplate hclosed (.element (.reference n) (by decide) (.text hnumber)),
      hmarks.element (htemplate.silent_start hanonymous) (silent_stop name)⟩

/-- A note bears what is in it; its own number and the link back are no landmarks. -/
theorem bears_noteItem (n : Nat) {body : String} {m : Landmarks} (h : Bears body m) :
    Bears (noteItem n body) m := by
  have hlink : Template "a" [("href", "#fn-link-" ++ toString n)] := .link _
  have hback : Bears (backLink n) {} := Bears.element (.text (by decide)) hlink (by decide)
    (hlink.silent_start (.inr (.inl ⟨_, rfl⟩)))
  have hspace : Bears " " {} := .text (by decide)
  have hnote : Silent ("li" ++ attributesText [("id", "fn-" ++ toString n)]).toList :=
    ⟨(note_start n).1, if_neg (by rw [(Template.note n).tagName_start]; decide)⟩
  rw [noteItem_eq]
  refine Bears.element ?_ (.note n) (by decide) hnote
  simpa using h.append (hspace.append hback)

/-- The start tag of a heading has the slug for its id. -/
theorem heading_start {level : Int} (hlevel : 1 ≤ level ∧ level ≤ 6) (slug : String) :
    headingId? ("h" ++ toString level ++ attributesText [("id", slug)]).toList =
      some (escape slug) := by
  have htemplate := Template.heading slug hlevel
  rw [headingId?, htemplate.tagName_start, if_pos (toString_level hlevel).2,
    htemplate.tagAttributes_start (by simp; decide)]
  rfl

/-- A heading bears its slug, and what stands in it. -/
theorem bears_headingText {level : Int} (hlevel : 1 ≤ level ∧ level ≤ 6) (slug : String)
    {inner : String} {m : Landmarks} (h : Bears inner m) :
    Bears (headingText level slug inner) (⟨[slug], []⟩ ++ m) := by
  have hlink := Template.link ("#" ++ slug)
  have hself :
      selfLink slug inner = startTag "a" [("href", "#" ++ slug)] ++ inner ++ stopTag "a" := by
    have hstart := startTag_singleton (k := "href") (s := "#") (by decide) (by decide) "a" slug
    rw [hstart, selfLink, escape_append_of_unmarked (by decide)]
    apply String.toList_inj.mp
    simp [stopTag]
  obtain ⟨hflow, hspelled, tags, hreads, hmarks⟩ := h
  refine ⟨flow_heading hlevel slug hflow, fun n hn => ?_, ?_⟩
  · rw [headingText_eq, hself]
    exact infix_element (infix_element (hspelled n hn) _ _) _ _
  · rw [headingText_eq, hself]
    refine ⟨_, .element (.heading slug hlevel) (toString_level hlevel).1
      (.element hlink (by decide) hreads), ?_⟩
    have hinner := hmarks.element (hlink.silent_start (.inr (.inl ⟨_, rfl⟩))) (silent_stop "a")
    have hrest := hinner.append (marks_silent (silent_stop ("h" ++ toString level)))
    rw [Landmarks.append_empty] at hrest
    refine hrest.heading (unnumbered_heading hlevel slug).1 (heading_start hlevel slug)
      hlink.tagName_start ?_
    rw [hlink.tagAttributes_start (by simp; decide), List.map_singleton,
      escape_append_of_unmarked (by decide)]

/-! ### Parts on lines -/

/-- Parts with their landmarks, one after another. -/
inductive AllBear : List String → Landmarks → Prop
  | nil : AllBear [] {}
  | cons {s : String} {parts : List String} {m m' : Landmarks} (hs : Bears s m)
      (h : AllBear parts m') : AllBear (s :: parts) (m ++ m')

section parts

variable {s : String} {parts : List String} {m m' : Landmarks}

/-- Leaving out a part that is empty leaves out no landmark. -/
theorem AllBear.consUnlessEmpty (hs : Bears s m) (h : AllBear parts m') :
    AllBear (if s.isEmpty then parts else s :: parts) (m ++ m') := by
  split
  · next hempty =>
    rw [String.isEmpty_iff.mp hempty] at hs
    rw [hs.eq_empty]
    exact h
  · exact .cons hs h

theorem AllBear.joinLines (h : AllBear parts m) : Bears (joinLines parts) m := by
  unfold Html.joinLines
  induction h with
  | nil => exact .text (by decide)
  | @cons s parts _ _ hs h ih =>
      cases parts with
      | nil =>
          cases h
          simpa using hs
      | cons t parts =>
          rw [String.intercalate_cons_cons]
          have hline := (hs.append bears_compositional.newline).append ih
          simpa using hline

/-- Parts on the lines between the tags of an element. -/
theorem AllBear.between (h : AllBear parts m) :
    Bears ("\n" ++ Html.joinLines (parts ++ [""])) m := by
  have hparts : AllBear (parts ++ [""]) m := by
    induction h with
    | nil => exact .cons (.text (by decide)) .nil
    | cons hs _ ih => exact .cons hs ih
  simpa using bears_compositional.newline.append hparts.joinLines

/-- Parts on lines, with a line end before and after. -/
theorem AllBear.lines (h : AllBear parts m) : Bears ("\n" ++ Html.joinLines parts ++ "\n") m := by
  simpa using (bears_compositional.newline.append h.joinLines).append bears_compositional.newline

end parts

/-! ### Captions and pages -/

/-- The caption of a figure, which is left out if it is empty. -/
theorem Bears.caption {caption : String} {m : Landmarks} (h : Bears caption m) :
    Bears (if caption.isEmpty then "" else "\n<figcaption>" ++ caption ++ "</figcaption>") m := by
  split
  · next hempty =>
    rw [String.isEmpty_iff.mp hempty] at h
    exact h
  · have htag := Bears.encloses (.bare "figcaption" _ (by decide) (by decide)) h
    have hline := bears_compositional.newline.append htag
    rw [Landmarks.empty_append] at hline
    refine Eq.subst (motive := (Bears · m)) ?_ hline
    apply String.toList_inj.mp
    simp

theorem Bears.endLine {s : String} {m : Landmarks} (h : Bears s m) : Bears (endLine s) m := by
  unfold Html.endLine
  split
  · next hempty =>
    rw [String.isEmpty_iff.mp hempty] at h
    exact h
  · simpa using h.append bears_compositional.newline

/-- A page bears what its body and its notes bear. -/
theorem bears_pageHtml (o : Options) (d : Metadata) {body notes : String} {m m' : Landmarks}
    (hbody : Bears body m) (hnotes : Bears notes m') :
    Bears (pageHtml o d body notes) (m ++ m') := by
  have hinner := hbody.endLine.append hnotes.endLine
  have hnewline := bears_compositional.newline
  by_cases h : o.standalone = true
  · rw [pageHtml_standalone h]
    have hhead := bears_compositional.headElement o d
    have hmain := Bears.encloses (.bare "body" _ (by decide) (by decide)) (hnewline.append hinner)
    have hpage := Bears.encloses (encloses_page o.lang _)
      ((hnewline.append hhead).append ((hnewline.append hmain).append hnewline))
    simpa using (bears_compositional.doctype.append hnewline).append (hpage.append hnewline)
  · unfold pageHtml
    rw [if_neg h]
    exact hinner

end Markup.Html
