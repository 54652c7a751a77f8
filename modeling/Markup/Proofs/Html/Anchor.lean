import Markup.Proofs.Html.Template

/-! # References and notes in written HTML

Reading the numbers of notes off written HTML.  A tag that `cut` gives is read as a name with
attributes (`tagName`, `tagAttributes`); a reference is a link with an id, and a note is an item of
a list with an id (`reference?`, `noteId?`).  Nothing here looks at how the tag was written.

`Mentions` says which numbers the tags of a text mention, in references and as notes, and `Shows`
says the same of the text itself.  Elements without an id, headings, lines and whitespace at the
ends change nothing (`Shows.encloses`, `shows_headingText`, `AllShow.joinLines`, `Shows.strip`); the
two templates that number notes add one number each (`shows_noteReference`, `shows_noteItem`). -/

namespace Markup.Html

open Text Unicode

/-! ### Reading attributes -/

/-- Where the reading of attributes stands: before a key, in a key or between it and its value, or
in a value. -/
inductive AttributeState where
  | between
  | key (read : List Char)
  | value (key read : List Char)

/-- The attributes that follow: keys up to an equals sign, with values in double quotes. -/
def attributesFrom : AttributeState → List Char → List (String × String)
  | _, [] => []
  | .between, c :: cs =>
    if c = ' ' then attributesFrom .between cs else attributesFrom (.key [c]) cs
  | .key k, c :: cs =>
    if c = '"' then attributesFrom (.value k []) cs
    else if c = '=' then attributesFrom (.key k) cs
    else attributesFrom (.key (k ++ [c])) cs
  | .value k v, c :: cs =>
    if c = '"' then (String.ofList k, String.ofList v) :: attributesFrom .between cs
    else attributesFrom (.value k (v ++ [c])) cs

/-- The name of a tag. -/
def tagName (inside : List Char) : String := String.ofList (inside.takeWhile (· != ' '))

/-- The attributes of a tag. -/
def tagAttributes (inside : List Char) : List (String × String) :=
  attributesFrom .between (inside.dropWhile (· != ' '))

/-- The target and the id of a link that has an id. -/
def reference? (inside : List Char) : Option (String × String) :=
  if tagName inside = "a" then
    ((tagAttributes inside).lookup "id").map
      ((((tagAttributes inside).lookup "href").getD ""), ·)
  else none

/-- The id of an item that has one. -/
def noteId? (inside : List Char) : Option String :=
  if tagName inside = "li" then (tagAttributes inside).lookup "id" else none

/-- All links with an id, in order. -/
def references (tags : List (List Char)) : List (String × String) := tags.filterMap reference?

/-- The ids of all items, in order. -/
def noteIds (tags : List (List Char)) : List String := tags.filterMap noteId?

/-! ### Attributes that were written -/

/-- A key that is read as it is written. -/
def PlainKey (k : String) : Prop :=
  k ≠ "" ∧ Unmarked k ∧ Every (fun c => c ≠ ' ' ∧ c ≠ '=') k.toList

instance : DecidablePred PlainKey := fun _ => inferInstanceAs (Decidable (_ ∧ _))

theorem attributesFrom_key {cs : List Char} (h : Every (fun c => c ≠ '"' ∧ c ≠ '=') cs)
    (k rest : List Char) :
    attributesFrom (.key k) (cs ++ '=' :: '"' :: rest) =
      attributesFrom (.value (k ++ cs) []) rest := by
  induction cs generalizing k with
  | nil => simp [attributesFrom]
  | cons c cs ih =>
      obtain ⟨hquote, hequals⟩ := h c List.mem_cons_self
      rw [List.cons_append, attributesFrom, if_neg hquote, if_neg hequals,
        ih fun d hd => h d (List.mem_cons_of_mem c hd)]
      simp

theorem attributesFrom_value {cs : List Char} (h : Every (· ≠ '"') cs) (k v rest : List Char) :
    attributesFrom (.value k v) (cs ++ '"' :: rest) =
      (String.ofList k, String.ofList (v ++ cs)) :: attributesFrom .between rest := by
  induction cs generalizing v with
  | nil => simp [attributesFrom]
  | cons c cs ih =>
      rw [List.cons_append, attributesFrom, if_neg (h c List.mem_cons_self),
        ih fun d hd => h d (List.mem_cons_of_mem c hd)]
      simp

/-- A plain key and its value are read off, whatever follows. -/
theorem attributesFrom_cons {k : String} (hk : PlainKey k) (v : String) (rest : List Char) :
    attributesFrom .between
        (' ' :: (k.toList ++ '=' :: '"' :: ((escape v).toList ++ '"' :: rest))) =
      (k, escape v) :: attributesFrom .between rest := by
  obtain ⟨hne, hunmarked, hplain⟩ := hk
  have hnil : k.toList ≠ [] := fun h => hne (String.toList_inj.mp h)
  obtain ⟨c, cs, hcs⟩ := List.exists_cons_of_ne_nil hnil
  have hmem : ∀ d ∈ c :: cs, d ∈ k.toList := fun d hd => hcs ▸ hd
  have hkey : Every (fun c => c ≠ '"' ∧ c ≠ '=') cs := by
    intro d hd
    have hd' := hmem d (List.mem_cons_of_mem c hd)
    exact ⟨(hunmarked d hd').1.2.2.2, (hplain d hd').2⟩
  have hvalue : Every (· ≠ '"') (escape v).toList := fun d hd => (safe_escape v d hd).2.2.2
  rw [attributesFrom, if_pos rfl, hcs, List.cons_append, attributesFrom,
    if_neg (hplain c (hmem c List.mem_cons_self)).1, attributesFrom_key hkey,
    attributesFrom_value hvalue, List.singleton_append, ← hcs]
  simp

/-- Attributes with plain keys are read as they were written. -/
theorem attributesFrom_attributesText {attributes : List (String × String)}
    (h : ∀ p ∈ attributes, PlainKey p.1) :
    attributesFrom .between (attributesText attributes).toList =
      attributes.map fun p => (p.1, escape p.2) := by
  induction attributes with
  | nil => rfl
  | cons p rest ih =>
      obtain ⟨k, v⟩ := p
      have hk : PlainKey k := h (k, v) List.mem_cons_self
      rw [attributesText_cons_of_unmarked hk.2.1, List.map_cons,
        ← ih fun p hp => h p (List.mem_cons_of_mem _ hp), ← attributesFrom_cons hk v]
      simp

section template

variable {name : String} {attributes : List (String × String)}

theorem Template.tagName_start (h : Template name attributes) :
    tagName (name ++ attributesText attributes).toList = name := by
  rw [tagName, h.takeWhile_name, String.ofList_toList]

theorem Template.tagAttributes_start (h : Template name attributes)
    (hkeys : ∀ p ∈ attributes, PlainKey p.1) :
    tagAttributes (name ++ attributesText attributes).toList =
      attributes.map fun p => (p.1, escape p.2) := by
  have hdrop : (name ++ attributesText attributes).toList.dropWhile (· != ' ') =
      (attributesText attributes).toList := by
    have hsplit := List.takeWhile_append_dropWhile (p := (· != ' '))
      (l := (name ++ attributesText attributes).toList)
    rw [h.takeWhile_name] at hsplit
    exact List.append_cancel_left (hsplit.trans String.toList_append)
  rw [tagAttributes, hdrop, attributesFrom_attributesText hkeys]

/-- A start tag without an id is neither a reference nor a note. -/
theorem Template.unnumbered_start (h : Template name attributes)
    (hanonymous : Anonymous name attributes) :
    reference? (name ++ attributesText attributes).toList = none ∧
      noteId? (name ++ attributesText attributes).toList = none := by
  unfold reference? noteId?
  rw [h.tagName_start]
  obtain rfl | ⟨target, rfl⟩ | hname := hanonymous
  · rw [h.tagAttributes_start (by simp)]
    simp
  · rw [h.tagAttributes_start (by simp; decide)]
    simp
  · obtain ⟨hlink, hrest⟩ := List.ne_and_not_mem_of_not_mem_cons hname
    rw [if_neg hlink, if_neg (List.ne_and_not_mem_of_not_mem_cons hrest).1]
    exact ⟨rfl, rfl⟩

end template

/-- An end tag is neither a reference nor a note. -/
theorem unnumbered_stop (name : String) :
    reference? ("/" ++ name).toList = none ∧ noteId? ("/" ++ name).toList = none := by
  have hname : ∃ cs, tagName ("/" ++ name).toList = String.ofList ('/' :: cs) :=
    ⟨name.toList.takeWhile (· != ' '), by simp [tagName]⟩
  obtain ⟨cs, hname⟩ := hname
  have hne : ∀ other : String, other.toList.head? ≠ some '/' →
      tagName ("/" ++ name).toList ≠ other := by
    rintro other hother rfl
    rw [hname] at hother
    simp at hother
  rw [reference?, noteId?, if_neg (hne "a" (by decide)), if_neg (hne "li" (by decide))]
  exact ⟨rfl, rfl⟩

theorem mem_standAlone_of_alone {inside : List Char} (h : TagRole.of inside = .alone) :
    inside.takeWhile (· != ' ') ∈ standAlone := by
  unfold TagRole.of at h
  split at h
  · cases h
  · dsimp only at h
    split at h
    · assumption
    · cases h

/-- A tag that stands alone is neither a reference nor a note. -/
theorem unnumbered_alone {inside : List Char} (h : TagRole.of inside = .alone) :
    reference? inside = none ∧ noteId? inside = none := by
  have hother : ∀ name ∈ standAlone, String.ofList name ≠ "a" ∧ String.ofList name ≠ "li" := by
    decide
  obtain ⟨hlink, hitem⟩ := hother _ (mem_standAlone_of_alone h)
  rw [reference?, noteId?, tagName, if_neg hlink, if_neg hitem]
  exact ⟨rfl, rfl⟩

/-! ### The numbers that tags mention -/

/-- An item with the id of note `n` whose last element is a link back to the reference. -/
def BackLinked (tags : List (List Char)) (n : Nat) : Prop :=
  ∃ before inner after,
    tags = before ++ ("li id=\"fn-" ++ toString n ++ "\"").toList :: inner ++
      [("a href=\"#fn-link-" ++ toString n ++ "\"").toList, "/a".toList, "/li".toList] ++ after ∧
    nest [] (inner.map TagRole.of) = some []

theorem BackLinked.between {tags : List (List Char)} {n : Nat} (h : BackLinked tags n)
    (first last : List (List Char)) : BackLinked (first ++ tags ++ last) n := by
  obtain ⟨before, inner, after, rfl, hinner⟩ := h
  exact ⟨first ++ before, inner, after ++ last, by simp, hinner⟩

/-- The target and the id of the reference to note `n`. -/
def referenceTo (n : Nat) : String × String := ("#fn-" ++ toString n, "fn-link-" ++ toString n)

/-- The numbers that tags mention: in references, in any order, and as notes, in this order; each
note leads back to its reference. -/
structure Mentions (tags : List (List Char)) (refs notes : List Nat) : Prop where
  refers : (references tags).Perm (refs.map referenceTo)
  lists : noteIds tags = notes.map fun n => "fn-" ++ toString n
  backLinks : ∀ n ∈ notes, BackLinked tags n

theorem mentions_nil : Mentions [] [] [] where
  refers := .refl _
  lists := rfl
  backLinks := fun _ hn => by cases hn

theorem Mentions.append {tags tags' : List (List Char)} {refs refs' notes notes' : List Nat}
    (h : Mentions tags refs notes) (h' : Mentions tags' refs' notes') :
    Mentions (tags ++ tags') (refs ++ refs') (notes ++ notes') where
  refers := by
    rw [references, List.filterMap_append, List.map_append]
    exact h.refers.append h'.refers
  lists := by
    rw [noteIds, List.filterMap_append, List.map_append, ← h.lists, ← h'.lists]
    rfl
  backLinks := by
    intro n hn
    rcases List.mem_append.mp hn with hn | hn
    · exact (h.backLinks n hn).between [] tags'
    · simpa using (h'.backLinks n hn).between tags []

/-- A tag that is neither a reference nor a note. -/
theorem mentions_singleton {tag : List Char} (h : reference? tag = none ∧ noteId? tag = none) :
    Mentions [tag] [] [] where
  refers := by simp [references, h.1]
  lists := by simp [noteIds, h.2]
  backLinks := fun _ hn => by cases hn

/-- The tags of an item that is a note. -/
theorem Mentions.item {start stop : List Char} {inner : List (List Char)} {refs : List Nat}
    {n : Nat} (hinner : Mentions inner refs [])
    (hstart : reference? start = none ∧ noteId? start = some ("fn-" ++ toString n))
    (hstop : reference? stop = none ∧ noteId? stop = none)
    (hback : BackLinked (start :: inner ++ [stop]) n) :
    Mentions (start :: inner ++ [stop]) refs [n] where
  refers := by
    have h : references (start :: inner ++ [stop]) = references inner := by
      simp [references, hstart.1, hstop.1]
    rw [h]
    exact hinner.refers
  lists := by
    have h : noteIds (start :: inner ++ [stop]) = ("fn-" ++ toString n) :: noteIds inner := by
      simp [noteIds, hstart.2, hstop.2]
    rw [h, hinner.lists]
    rfl
  backLinks := by
    intro m hm
    rw [List.mem_singleton.mp hm]
    exact hback

/-! ### The numbers that a text shows -/

/-- Written HTML with the numbers that its tags mention. -/
structure Shows (html : String) (refs notes : List Nat) : Prop where
  flow : Flow html
  mentions : ∃ tags, Reads html tags ∧ Mentions tags refs notes

theorem Reads.unique {html : String} {tags tags' : List (List Char)} (h : Reads html tags)
    (h' : Reads html tags') : tags = tags' :=
  Option.some.inj (h.cut_eq.symm.trans h'.cut_eq)

section rules

variable {html s t inner : String} {refs refs' notes notes' : List Nat}

theorem Shows.perm (h : Shows html refs notes) (hrefs : refs.Perm refs') :
    Shows html refs' notes := by
  obtain ⟨hflow, tags, hreads, hmentions⟩ := h
  exact ⟨hflow, tags, hreads, hmentions.refers.trans (hrefs.map _), hmentions.lists,
    hmentions.backLinks⟩

theorem Shows.text (h : Safe s) : Shows s [] [] := ⟨.text h, [], .text h, mentions_nil⟩

theorem Shows.append (hs : Shows s refs notes) (ht : Shows t refs' notes') :
    Shows (s ++ t) (refs ++ refs') (notes ++ notes') := by
  obtain ⟨hsflow, is, hsreads, hsmentions⟩ := hs
  obtain ⟨htflow, js, htreads, htmentions⟩ := ht
  exact ⟨hsflow.append htflow, is ++ js, hsreads.append htreads, hsmentions.append htmentions⟩

/-- An element without an id shows what it encloses. -/
theorem Shows.encloses (h : Encloses html inner) (hinner : Shows inner refs notes) :
    Shows html refs notes := by
  obtain ⟨hflow, is, hreads, hmentions⟩ := hinner
  refine ⟨h.flow hflow, ?_⟩
  obtain ⟨name, attributes, htemplate, hanonymous, hclosed, rfl⟩ := h
  refine ⟨_, .element htemplate hclosed hreads, ?_⟩
  have hstart := mentions_singleton (htemplate.unnumbered_start hanonymous)
  have hstop := mentions_singleton (unnumbered_stop name)
  simpa using (hstart.append hmentions).append hstop

/-- Texts that mention no number are put together from parts that mention none. -/
theorem shows_compositional : Compositional (Shows · [] []) where
  text := .text
  append := Shows.append
  doctype :=
    ⟨.doctype, _, .alone .doctype (by decide), mentions_singleton (unnumbered_alone (by decide))⟩
  alone := by
    intro name attributes h halone
    have hrole : TagRole.of (name ++ attributesText attributes).toList = .alone := by
      rw [h.role_start, if_pos halone]
    exact ⟨.alone h halone, _, .alone (.start h) hrole,
      mentions_singleton (unnumbered_alone hrole)⟩
  encloses := Shows.encloses

/-- What is empty shows nothing. -/
theorem Shows.eq_nil (h : Shows "" refs notes) : refs = [] ∧ notes = [] := by
  obtain ⟨-, tags, hreads, hmentions⟩ := h
  have htags : tags = [] := hreads.unique (.text (by decide))
  subst htags
  have hrefs := hmentions.refers
  have hnotes := hmentions.lists
  simp [references, noteIds] at hrefs hnotes
  exact ⟨hrefs, hnotes⟩

end rules

/-! ### Whitespace at the ends -/

/-- A text is whitespace, what is left of it without, and whitespace. -/
theorem exists_eq_append_strip (s : String) :
    ∃ first last, s.toList = first ++ (Text.strip s).toList ++ last ∧
      Every (isWhitespace ·) first ∧ Every (isWhitespace ·) last := by
  refine ⟨s.toList.takeWhile isWhitespace,
    ((s.toList.dropWhile isWhitespace).reverse.takeWhile isWhitespace).reverse, ?_, ?_, ?_⟩
  · rw [Text.strip, Text.trim, Text.trimEnd, String.toList_ofList, List.append_assoc,
      ← List.reverse_append, List.takeWhile_append_dropWhile, List.reverse_reverse,
      List.takeWhile_append_dropWhile]
  · exact fun c hc => List.all_eq_true.mp List.all_takeWhile c hc
  · exact fun c hc => List.all_eq_true.mp List.all_takeWhile c (List.mem_reverse.mp hc)

/-- Taking whitespace off the ends leaves the tags. -/
theorem Reads.strip {html : String} {tags : List (List Char)} (hreads : Reads html tags)
    (hflow : Flow html) : Reads (Text.strip html) tags := by
  obtain ⟨tags', hreads'⟩ := hflow.strip.exists_reads
  have hspace : ∀ cs, Every (isWhitespace ·) cs → Every (fun c => c ≠ '<' ∧ c ≠ '>') cs := by
    intro cs hcs c hc
    constructor <;> rintro rfl <;> exact absurd (hcs _ hc) (by decide)
  have hcut : cut html = some tags' := by
    obtain ⟨first, last, heq, hfirst, hlast⟩ := exists_eq_append_strip html
    have hend := cutFrom_noBracket (hspace _ hlast) []
    rw [List.append_nil] at hend
    rw [cut, heq, List.append_assoc, cutFrom_noBracket (hspace _ hfirst), hreads'.cuts, hend]
    simp [cutFrom]
  have htags : tags = tags' := Option.some.inj (hreads.cut_eq.symm.trans hcut)
  rw [htags]
  exact hreads'

theorem Shows.strip {html : String} {refs notes : List Nat} (h : Shows html refs notes) :
    Shows (Text.strip html) refs notes := by
  obtain ⟨hflow, tags, hreads, hmentions⟩ := h
  exact ⟨hflow.strip, tags, hreads.strip hflow, hmentions⟩

/-! ### Headings -/

/-- The start tag of a heading is neither a reference nor a note. -/
theorem unnumbered_heading {level : Int} (hlevel : 1 ≤ level ∧ level ≤ 6) (slug : String) :
    reference? ("h" ++ toString level ++ attributesText [("id", slug)]).toList = none ∧
      noteId? ("h" ++ toString level ++ attributesText [("id", slug)]).toList = none := by
  have hname : ∀ name ∈ headingNames, name ≠ "a" ∧ name ≠ "li" := by decide
  obtain ⟨hlink, hitem⟩ := hname _ (toString_level hlevel).2
  rw [reference?, noteId?, (Template.heading slug hlevel).tagName_start, if_neg hlink,
    if_neg hitem]
  exact ⟨rfl, rfl⟩

theorem shows_headingText {level : Int} (hlevel : 1 ≤ level ∧ level ≤ 6) (slug : String)
    {inner : String} {refs notes : List Nat} (h : Shows inner refs notes) :
    Shows (headingText level slug inner) refs notes := by
  obtain ⟨hflow, tags, hreads, hmentions⟩ := Shows.encloses (encloses_link ("#" ++ slug) inner) h
  refine ⟨flow_heading hlevel slug h.flow, ?_⟩
  rw [headingText_eq]
  refine ⟨_, .element (.heading slug hlevel) (toString_level hlevel).1 hreads, ?_⟩
  have hstart := mentions_singleton (unnumbered_heading hlevel slug)
  have hstop := mentions_singleton (unnumbered_stop ("h" ++ toString level))
  simpa using (hstart.append hmentions).append hstop

/-! ### References and notes -/

theorem mentions_reference (n : Nat) :
    Mentions [("a" ++ attributesText
      [("href", "#fn-" ++ toString n), ("id", "fn-link-" ++ toString n)]).toList] [n] [] := by
  have htemplate := Template.reference n
  have hattributes := htemplate.tagAttributes_start (by simp; decide)
  simp only [List.map_cons, List.map_nil, escape_append_toString (by decide : Unmarked "#fn-"),
    escape_append_toString (by decide : Unmarked "fn-link-")] at hattributes
  refine ⟨?_, ?_, fun _ hn => by cases hn⟩
  · rw [references, List.filterMap_cons_some (b := referenceTo n)]
    · rfl
    · rw [reference?, htemplate.tagName_start, if_pos rfl, hattributes]
      rfl
  · rw [noteIds, List.filterMap_cons_none]
    · rfl
    · rw [noteId?, htemplate.tagName_start, if_neg (by decide)]

theorem shows_noteReference (n : Nat) : Shows (noteReference n) [n] [] := by
  have hnumber := (unmarked_toString_nat n).safe
  have hmentions := (mentions_reference n).append (mentions_singleton (unnumbered_stop "a"))
  exact .encloses (encloses_noteReference n) ⟨.element (.reference n) (by decide) (.text hnumber),
    _, .element (.reference n) (by decide) (.text hnumber), hmentions⟩

/-- The start tag of a note is no reference, and has the id of the note. -/
theorem note_start (n : Nat) :
    reference? ("li" ++ attributesText [("id", "fn-" ++ toString n)]).toList = none ∧
      noteId? ("li" ++ attributesText [("id", "fn-" ++ toString n)]).toList =
        some ("fn-" ++ toString n) := by
  have htemplate := Template.note n
  rw [reference?, noteId?, htemplate.tagName_start, if_neg (by decide), if_pos rfl,
    htemplate.tagAttributes_start (by simp; decide), List.map_singleton,
    escape_append_toString (by decide)]
  exact ⟨rfl, rfl⟩

/-- The text of a tag with one attribute that ends in a number. -/
theorem tag_numbered {k s : String} (hk : Unmarked k) (hs : Unmarked s) (name : String) (n : Nat) :
    name ++ attributesText [(k, s ++ toString n)] =
      name ++ " " ++ k ++ "=\"" ++ s ++ toString n ++ "\"" := by
  rw [attributesText_cons_of_unmarked hk, escape_append_toString hs, attributesText_nil]
  apply String.toList_inj.mp
  simp

/-- A link back is neither a reference nor a note. -/
theorem mentions_backLink (n : Nat) :
    Mentions [("a" ++ attributesText [("href", "#fn-link-" ++ toString n)]).toList,
      ("/" ++ "a").toList] [] [] := by
  have hstart := (Template.link ("#fn-link-" ++ toString n)).unnumbered_start
    (.inr (.inl ⟨_, rfl⟩))
  exact (mentions_singleton hstart).append (mentions_singleton (unnumbered_stop "a"))

/-- A note shows its number, and the references in it. -/
theorem shows_noteItem (n : Nat) {body : String} {refs : List Nat} (h : Shows body refs []) :
    Shows (noteItem n body) refs [n] := by
  obtain ⟨hflow, tags, hreads, hmentions⟩ := h
  have hspace : Reads " " [] := .text (by decide)
  have hback : Reads (backLink n) _ := .element (.link _) (by decide) (.text (by decide))
  refine ⟨flow_noteItem n hflow, ?_⟩
  rw [noteItem_eq]
  refine ⟨_, .element (.note n) (by decide) (hreads.append (hspace.append hback)), ?_⟩
  have hinner := hmentions.append (mentions_backLink n)
  rw [List.append_nil, List.append_nil] at hinner
  refine hinner.item (note_start n) (unnumbered_stop "li") ?_
  have hnests := hreads.nests [] []
  rw [List.append_nil] at hnests
  refine ⟨[], tags, [], ?_, hnests⟩
  rw [tag_numbered (by decide) (by decide), tag_numbered (by decide) (by decide)]
  simp

/-! ### Parts on lines -/

/-- Parts with the numbers that they show, one after another. -/
inductive AllShow : List String → List Nat → List Nat → Prop
  | nil : AllShow [] [] []
  | cons {s : String} {parts : List String} {refs refs' notes notes' : List Nat}
      (hs : Shows s refs notes) (h : AllShow parts refs' notes') :
      AllShow (s :: parts) (refs ++ refs') (notes ++ notes')

section parts

variable {s : String} {parts : List String} {refs refs' notes notes' : List Nat}

/-- Leaving out a part that is empty leaves out no number. -/
theorem AllShow.consUnlessEmpty (hs : Shows s refs notes) (h : AllShow parts refs' notes') :
    AllShow (if s.isEmpty then parts else s :: parts) (refs ++ refs') (notes ++ notes') := by
  split
  · next hempty =>
    rw [String.isEmpty_iff.mp hempty] at hs
    obtain ⟨rfl, rfl⟩ := hs.eq_nil
    exact h
  · exact .cons hs h

theorem AllShow.joinLines (h : AllShow parts refs notes) :
    Shows (joinLines parts) refs notes := by
  unfold Html.joinLines
  induction h with
  | nil => exact .text (by decide)
  | @cons s parts _ _ _ _ hs h ih =>
      cases parts with
      | nil =>
          cases h
          simpa using hs
      | cons t parts =>
          rw [String.intercalate_cons_cons]
          have hline := (hs.append shows_compositional.newline).append ih
          simpa using hline

/-- Parts on the lines between the tags of an element. -/
theorem AllShow.between (h : AllShow parts refs notes) :
    Shows ("\n" ++ Html.joinLines (parts ++ [""])) refs notes := by
  have hparts : AllShow (parts ++ [""]) refs notes := by
    induction h with
    | nil => exact .cons (.text (by decide)) .nil
    | cons hs _ ih => exact .cons hs ih
  simpa using shows_compositional.newline.append hparts.joinLines

/-- Parts on lines, with a line end before and after. -/
theorem AllShow.lines (h : AllShow parts refs notes) :
    Shows ("\n" ++ Html.joinLines parts ++ "\n") refs notes := by
  simpa using (shows_compositional.newline.append h.joinLines).append shows_compositional.newline

end parts

/-! ### Captions and pages -/

/-- The caption of a figure, which is left out if it is empty. -/
theorem Shows.caption {caption : String} {refs notes : List Nat} (h : Shows caption refs notes) :
    Shows (if caption.isEmpty then "" else "\n<figcaption>" ++ caption ++ "</figcaption>") refs
      notes := by
  split
  · next hempty =>
    rw [String.isEmpty_iff.mp hempty] at h
    exact h
  · have htag := Shows.encloses (.bare "figcaption" _ (by decide) (by decide)) h
    have hline := shows_compositional.newline.append htag
    refine Eq.subst (motive := (Shows · refs notes)) ?_ hline
    apply String.toList_inj.mp
    simp

theorem Shows.endLine {s : String} {refs notes : List Nat} (h : Shows s refs notes) :
    Shows (endLine s) refs notes := by
  unfold Html.endLine
  split
  · next hempty =>
    rw [String.isEmpty_iff.mp hempty] at h
    exact h
  · simpa using h.append shows_compositional.newline

/-- A page shows what its body and its notes show. -/
theorem shows_pageHtml (o : Options) (m : Metadata) {body notes : String}
    {refs refs' numbers numbers' : List Nat} (hbody : Shows body refs numbers)
    (hnotes : Shows notes refs' numbers') :
    Shows (pageHtml o m body notes) (refs ++ refs') (numbers ++ numbers') := by
  have hinner := hbody.endLine.append hnotes.endLine
  have hnewline := shows_compositional.newline
  by_cases h : o.standalone = true
  · rw [pageHtml_standalone h]
    have hhead := shows_compositional.headElement o m
    have hmain := Shows.encloses (.bare "body" _ (by decide) (by decide)) (hnewline.append hinner)
    have hpage := Shows.encloses (encloses_page o.lang _)
      ((hnewline.append hhead).append ((hnewline.append hmain).append hnewline))
    simpa using (shows_compositional.doctype.append hnewline).append (hpage.append hnewline)
  · unfold pageHtml
    rw [if_neg h]
    exact hinner

end Markup.Html
