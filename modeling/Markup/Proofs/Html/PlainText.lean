import Markup.Proofs.Html.Template
import Markup.Proofs.Html.Unescape

/-! # The text of written inline content

Reading HTML as text deletes its tags, from each `<` to the next `>`, and replaces the references
that are left by what they stand for (`visibleText`).  A piece of HTML reads as a text if that is
what comes of it, whatever follows (`ReadsAs`): escaped text reads as the text, an element as what
is between its tags, and one piece after another as one text after the other.

So a run of text, spaces, styled runs, code and links, however they are nested and whatever their
texts are, reads as its plain text, which is what slugs are made of
(`inlinesHtml_preserves_text`).  A run without notes does not depend on what was written before it,
and runs one after the other are written one after the other (`inlinesHtml_append`). -/

namespace Markup

/-! ### Text runs -/

mutual

/-- Text, spaces, code, and styled runs and links of such. -/
def Inline.isTextual : Inline → Bool
  | .text _ | .space | .code _ _ => true
  | .styled _ content => runIsTextual content
  | .link _ content _ _ => optionIsTextual content
  | .quote _ _ | .footnote _ | .math _ | .foreign _ => false

/-- A run of nothing else. -/
def runIsTextual : List Inline → Bool
  | [] => true
  | i :: rest => i.isTextual && runIsTextual rest

/-- Content that may be missing, and is nothing else. -/
def optionIsTextual : Option (List Inline) → Bool
  | none => true
  | some content => runIsTextual content

end

namespace Html

/-! ### Reading -/

/-- Deletes tags; the flag says whether one is open. -/
def deleteTags : Bool → List Char → List Char
  | _, [] => []
  | false, c :: cs => if c = '<' then deleteTags true cs else c :: deleteTags false cs
  | true, c :: cs => deleteTags (c != '>') cs

/-- What is left of HTML when its tags are deleted and its references are read. -/
def visible (cs : List Char) : List Char := unescapeFrom none (deleteTags false cs)

/-- The text that HTML shows. -/
def visibleText (html : String) : String := String.ofList (visible html.toList)

/-- The HTML shows the text, whatever follows it. -/
def ReadsAs (html text : String) : Prop :=
  ∀ rest, visible (html.toList ++ rest) = text.toList ++ visible rest

theorem ReadsAs.visibleText_eq {html text : String} (h : ReadsAs html text) :
    visibleText html = text := by
  have hvisible := h []
  rw [List.append_nil] at hvisible
  rw [visibleText, hvisible]
  change String.ofList (text.toList ++ []) = text
  rw [List.append_nil, String.ofList_toList]

theorem ReadsAs.empty : ReadsAs "" "" := fun _ => rfl

theorem ReadsAs.append {html html' text text' : String} (h : ReadsAs html text)
    (h' : ReadsAs html' text') : ReadsAs (html ++ html') (text ++ text') := by
  intro rest
  rw [String.toList_append, String.toList_append, List.append_assoc, List.append_assoc, h, h']

/-! ### Text and tags -/

/-- Text without a bracket has no tags to delete. -/
theorem deleteTags_safe {cs : List Char} (h : Every SafeChar cs) (rest : List Char) :
    deleteTags false (cs ++ rest) = cs ++ deleteTags false rest := by
  induction cs with
  | nil => rfl
  | cons c cs ih =>
      rw [List.cons_append, deleteTags, if_neg (h c List.mem_cons_self).2.1,
        ih fun d hd => h d (List.mem_cons_of_mem c hd), List.cons_append]

/-- Escaped text is read back. -/
theorem readsAs_escape (s : String) : ReadsAs (escape s) s := by
  intro rest
  have hread : ∀ cs : List Char, visible (cs.flatMap escapeChar ++ rest) = cs ++ visible rest := by
    intro cs
    induction cs with
    | nil => rfl
    | cons c cs ih =>
        rw [List.flatMap_cons, List.append_assoc, visible,
          deleteTags_safe (safeChar_of_mem_escapeChar c), unescapeFrom_escapeChar]
        exact congrArg (c :: ·) ih
  rw [escape, String.toList_ofList, hread]

theorem readsAs_space : ReadsAs " " " " := readsAs_escape " "

theorem deleteTags_inside {inside : List Char} (h : Every InsideChar inside) (rest : List Char) :
    deleteTags true (inside ++ '>' :: rest) = deleteTags false rest := by
  induction inside with
  | nil => rfl
  | cons c cs ih =>
      have hopen : (c != '>') = true := bne_iff_ne.mpr (h c List.mem_cons_self).2.2
      rw [List.cons_append, deleteTags, hopen, ih fun d hd => h d (List.mem_cons_of_mem c hd)]

/-- A tag that is written shows nothing. -/
theorem readsAs_tag {inside : String} (h : Written inside.toList) :
    ReadsAs ("<" ++ inside ++ ">") "" := by
  intro rest
  have htag : ("<" ++ inside ++ ">").toList ++ rest = '<' :: (inside.toList ++ '>' :: rest) := by
    simp
  rw [htag, visible, deleteTags, if_pos rfl, deleteTags_inside h.insideChar]
  rfl

/-- An element shows what stands between its tags. -/
theorem Encloses.readsAs {html inner text : String} (h : Encloses html inner)
    (hinner : ReadsAs inner text) : ReadsAs html text := by
  obtain ⟨name, attributes, htemplate, -, hclosed, rfl⟩ := h
  have hstart : ReadsAs (startTag name attributes) "" := readsAs_tag (.start htemplate)
  have hstop : ReadsAs (stopTag name) "" := readsAs_tag (.stop htemplate hclosed)
  have hall := (hstart.append hinner).append hstop
  rwa [String.empty_append, String.append_empty] at hall

/-! ### Writing without a state -/

/-- A step of the writer that neither looks at what was written nor adds to it. -/
def Stateless {α : Type} (x : Render α) : Prop :=
  ∃ outcome : Except RenderError α, ∀ w, x w = outcome.map (·, w)

namespace Stateless

variable {α β : Type} {x : Render α}

theorem pure (a : α) : Stateless (Pure.pure a : Render α) := ⟨.ok a, fun _ => rfl⟩

theorem throw (e : RenderError) : Stateless (MonadExcept.throw e : Render α) :=
  ⟨.error e, fun _ => rfl⟩

theorem bind {next : α → Render β} (h : Stateless x) (hnext : ∀ a, Stateless (next a)) :
    Stateless (x >>= next) := by
  obtain ⟨outcome, hx⟩ := h
  cases outcome with
  | error e => exact ⟨.error e, fun w => by change (x w >>= _) = _; rw [hx]; rfl⟩
  | ok a =>
      obtain ⟨outcome, ha⟩ := hnext a
      refine ⟨outcome, fun w => ?_⟩
      change (x w >>= fun r => next r.1 r.2) = _
      rw [hx, ← ha]
      rfl

end Stateless

mutual

/-- Inline content without notes is written the same wherever it stands. -/
theorem inlineHtml_stateless : ∀ i : Inline, inlineNotes i = 0 → Stateless (inlineHtml i)
  | .text _, _ => by
      rw [inlineHtml]
      exact .pure _
  | .styled _ content, h => by
      rw [inlineHtml]
      exact (inlinesHtml_stateless content h).bind fun _ => .pure _
  | .quote _ content, h => by
      rw [inlineHtml]
      exact (inlinesHtml_stateless content h).bind fun _ => .pure _
  | .code _ _, _ => by
      rw [inlineHtml]
      exact .pure _
  | .space, _ => by
      rw [inlineHtml]
      exact .pure _
  | .link target content label _, h => by
      rw [inlineHtml]
      exact (linkHtml_stateless target label content h).bind fun _ => .pure _
  | .footnote content, h => by
      rw [inlineNotes] at h
      omega
  | .math _, _ => by
      rw [inlineHtml]
      exact .pure _
  | .foreign _, _ => by
      rw [inlineHtml]
      exact .throw _

theorem inlinesHtml_stateless : ∀ run : List Inline, inlinesNotes run = 0 →
    Stateless (inlinesHtml run)
  | [], _ => by
      rw [inlinesHtml]
      exact .pure _
  | i :: rest, h => by
      rw [inlinesNotes] at h
      rw [inlinesHtml]
      refine (inlineHtml_stateless i (by omega)).bind fun _ => ?_
      exact (inlinesHtml_stateless rest (by omega)).bind fun _ => .pure _

theorem linkHtml_stateless (target : String) (label : Option String) :
    ∀ content : Option (List Inline), optionNotes content = 0 →
      Stateless (linkHtml target label content)
  | none, _ => by
      rw [linkHtml]
      exact .pure _
  | some content, h => by
      rw [linkHtml]
      exact inlinesHtml_stateless content h

end

/-- A run as HTML where nothing was written before. -/
def runHtml (run : List Inline) : Except RenderError String := (inlinesHtml run {}).map Prod.fst

/-- What was written before a run without notes makes no difference. -/
theorem inlinesHtml_eq_runHtml {run : List Inline} (h : inlinesNotes run = 0) (w : Writer) :
    inlinesHtml run w = (runHtml run).map (·, w) := by
  obtain ⟨outcome, hrun⟩ := inlinesHtml_stateless run h
  rw [runHtml, hrun, hrun]
  cases outcome <;> rfl

theorem inlinesHtml_append (xs ys : List Inline) :
    inlinesHtml (xs ++ ys) = (do
      let before ← inlinesHtml xs
      let after ← inlinesHtml ys
      return before ++ after) := by
  induction xs with
  | nil =>
      rw [List.nil_append, inlinesHtml, pure_bind]
      simp only [String.empty_append, bind_pure]
  | cons x xs ih =>
      rw [List.cons_append, inlinesHtml, ih, inlinesHtml]
      simp only [bind_assoc, pure_bind, String.append_assoc]

/-! ### Text runs as HTML -/

/-- The step always writes HTML that shows the text, and changes nothing. -/
def Conveys (x : Render String) (text : String) : Prop :=
  ∃ html, (∀ w, x w = .ok (html, w)) ∧ ReadsAs html text

namespace Conveys

variable {x y : Render String} {html text text' : String}

theorem pure (h : ReadsAs html text) : Conveys (Pure.pure html) text := ⟨html, fun _ => rfl, h⟩

/-- What is made of the HTML that is written. -/
theorem map {f : String → String} (h : Conveys x text)
    (hf : ∀ html, ReadsAs html text → ReadsAs (f html) text') :
    Conveys (x >>= fun html => Pure.pure (f html)) text' := by
  obtain ⟨html, hx, hreads⟩ := h
  refine ⟨f html, fun w => ?_, hf html hreads⟩
  change (x w >>= fun r => Except.ok (f r.1, r.2)) = _
  rw [hx]
  rfl

theorem append (hx : Conveys x text) (hy : Conveys y text') :
    Conveys (do let here ← x; let after ← y; return here ++ after) (text ++ text') := by
  obtain ⟨html, hx, hreads⟩ := hx
  obtain ⟨html', hy, hreads'⟩ := hy
  refine ⟨html ++ html', fun w => ?_, hreads.append hreads'⟩
  change (x w >>= fun r => y r.2 >>= fun q => Except.ok (r.1 ++ q.1, q.2)) = _
  rw [hx]
  change (y w >>= fun q => Except.ok (html ++ q.1, q.2)) = _
  rw [hy]
  rfl

end Conveys

mutual

theorem inlineHtml_conveys : ∀ i : Inline, i.isTextual = true → Conveys (inlineHtml i) i.plainText
  | .text text, _ => by
      rw [inlineHtml, Inline.plainText]
      exact .pure (readsAs_escape text)
  | .styled style content, h => by
      rw [inlineHtml, Inline.plainText]
      exact (inlinesHtml_conveys content h).map fun inner hinner =>
        (encloses_styled style inner).readsAs hinner
  | .code content language, _ => by
      rw [inlineHtml, Inline.plainText]
      exact .pure ((encloses_code language (escape content)).readsAs (readsAs_escape content))
  | .space, _ => by
      rw [inlineHtml, Inline.plainText]
      exact .pure readsAs_space
  | .link target content label _, h => by
      rw [inlineHtml, Inline.plainText]
      exact (linkHtml_conveys target label content h).map fun inner hinner =>
        (encloses_link target inner).readsAs hinner
  | .quote _ _, h => by cases h
  | .footnote _, h => by cases h
  | .math _, h => by cases h
  | .foreign _, h => by cases h

theorem inlinesHtml_conveys : ∀ run : List Inline, runIsTextual run = true →
    Conveys (inlinesHtml run) (plainText run)
  | [], _ => by
      rw [inlinesHtml, plainText]
      exact .pure .empty
  | i :: rest, h => by
      rw [runIsTextual, Bool.and_eq_true] at h
      rw [inlinesHtml, plainText]
      exact (inlineHtml_conveys i h.1).append (inlinesHtml_conveys rest h.2)

theorem linkHtml_conveys (target : String) (label : Option String) :
    ∀ content : Option (List Inline), optionIsTextual content = true →
      Conveys (linkHtml target label content) (linkPlainText target label content)
  | none, _ => by
      rw [linkHtml, linkPlainText]
      exact .pure (readsAs_escape _)
  | some content, h => by
      rw [linkHtml, linkPlainText]
      exact inlinesHtml_conveys content h

end

/-- **Writing inline content preserves its text.**  A run of text, spaces, code, styled runs and
links is written whatever was written before; with its tags deleted and its references read, it is
the plain text of the run.  Two runs of any kind that hold no notes are written one after the other
as each is written alone. -/
theorem inlinesHtml_preserves_text :
    (∀ run, runIsTextual run = true → ∃ html,
      (∀ w, (inlinesHtml run).run w = .ok (html, w)) ∧ visibleText html = plainText run) ∧
    ∀ xs ys, inlinesNotes xs = 0 → inlinesNotes ys = 0 → ∀ w,
      (inlinesHtml (xs ++ ys)).run w = (do
        let before ← runHtml xs
        let after ← runHtml ys
        return (before ++ after, w)) := by
  refine ⟨fun run hrun => ?_, fun xs ys hxs hys w => ?_⟩
  · obtain ⟨html, hwritten, hreads⟩ := inlinesHtml_conveys run hrun
    exact ⟨html, hwritten, hreads.visibleText_eq⟩
  · rw [inlinesHtml_append]
    change (inlinesHtml xs w >>= fun r => inlinesHtml ys r.2 >>= fun q =>
      Except.ok (r.1 ++ q.1, q.2)) = _
    rw [inlinesHtml_eq_runHtml hxs]
    cases runHtml xs with
    | error e => rfl
    | ok before =>
        change (inlinesHtml ys w >>= fun q => Except.ok (before ++ q.1, q.2)) = _
        rw [inlinesHtml_eq_runHtml hys]
        cases runHtml ys <;> rfl

/-- Texts that look like tags and references, in a styled run, in code and in a link without
content. -/
theorem inlinesHtml_preserves_text_lookalikes :
    let styled : List Inline := [.text "a<b>", .styled .strong [.code "&lt;é\u0000" (some "\">")]]
    let link : List Inline := [.space, .link "&#x41;" none (some "</a>\u200b;") .url]
    runIsTextual (styled ++ link) = true ∧ inlinesNotes styled = 0 ∧ inlinesNotes link = 0 ∧
    (∃ html, (∀ w, (inlinesHtml (styled ++ link)).run w = .ok (html, w)) ∧
      visibleText html = plainText (styled ++ link)) ∧
    ∀ w, (inlinesHtml (styled ++ link)).run w = (do
      let before ← runHtml styled
      let after ← runHtml link
      return (before ++ after, w)) :=
  ⟨rfl, rfl, rfl, inlinesHtml_preserves_text.1 _ rfl, inlinesHtml_preserves_text.2 _ _ rfl rfl⟩

end Html

end Markup
