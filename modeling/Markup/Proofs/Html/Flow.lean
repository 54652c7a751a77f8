import Markup.Proofs.Html.Tag

/-! # A grammar of written HTML

`Flow` is what the serializer writes, put together from below: safe text, start tags that stand
alone, elements with a flow between their tags, and one flow after another.  Every flow is ASCII
and well nested (`Flow.ascii`, `Flow.wellNested`).  Whitespace may be taken off the ends of a flow
(`Flow.strip`), since tags begin and end with a bracket. -/

namespace Markup.Html

open Text Unicode

/-- A start tag. -/
def startTag (name : String) (attributes : List (String × String)) : String :=
  "<" ++ (name ++ attributesText attributes) ++ ">"

/-- An end tag. -/
def stopTag (name : String) : String := "<" ++ ("/" ++ name) ++ ">"

/-- Written HTML. -/
inductive Flow : String → Prop
  | text {s : String} (h : Safe s) : Flow s
  | doctype : Flow "<!DOCTYPE html>"
  | alone {name : String} {attributes : List (String × String)} (h : Template name attributes)
      (halone : name.toList ∈ standAlone) : Flow (startTag name attributes)
  | element {name : String} {attributes : List (String × String)} {inner : String}
      (h : Template name attributes) (hclosed : name.toList ∉ standAlone) (hinner : Flow inner) :
      Flow (startTag name attributes ++ inner ++ stopTag name)
  | append {s t : String} (hs : Flow s) (ht : Flow t) : Flow (s ++ t)

theorem Flow.empty : Flow "" := .text (by decide)

theorem Flow.rule : Flow "<hr>" := by
  have h : Template "hr" [] := .bare (by decide)
  exact .alone h (by decide)

/-! ### Reading a flow -/

/-- What reading a piece of HTML comes to, whatever follows it and whatever elements are open: its
tags are cut off, and they close all that they open, and no more. -/
structure Reads (html : String) (insides : List (List Char)) : Prop where
  ascii : ∀ c ∈ html.toList, c.toNat < 128
  cuts : ∀ rest, cutFrom none (html.toList ++ rest) = (cutFrom none rest).map (insides ++ ·)
  written : ∀ inside ∈ insides, Written inside
  nests : ∀ stack rest, nest stack (insides.map TagRole.of ++ rest) = nest stack rest

/-- Text without brackets has no tags. -/
theorem cutFrom_noBracket {cs : List Char} (h : Every (fun c => c ≠ '<' ∧ c ≠ '>') cs)
    (rest : List Char) : cutFrom none (cs ++ rest) = cutFrom none rest := by
  induction cs with
  | nil => rfl
  | cons c cs ih =>
      obtain ⟨hlt, hgt⟩ := h c List.mem_cons_self
      rw [List.cons_append, cutFrom, if_neg hlt, if_neg hgt]
      exact ih fun d hd => h d (List.mem_cons_of_mem c hd)

theorem cutFrom_safe {cs : List Char} (h : Every SafeChar cs) (rest : List Char) :
    cutFrom none (cs ++ rest) = cutFrom none rest :=
  cutFrom_noBracket (fun c hc => ⟨(h c hc).2.1, (h c hc).2.2.1⟩) rest

theorem cutFrom_inside {inside : List Char} (h : Every InsideChar inside) (before : List Char)
    (rest : List Char) :
    cutFrom (some before) (inside ++ '>' :: rest) =
      (cutFrom none rest).map ((before ++ inside) :: ·) := by
  induction inside generalizing before with
  | nil =>
      rw [List.nil_append, List.append_nil, cutFrom, if_neg (by decide), if_pos rfl]
  | cons c cs ih =>
      obtain ⟨-, hlt, hgt⟩ := h c List.mem_cons_self
      rw [List.cons_append, cutFrom, if_neg hlt, if_neg hgt,
        ih (fun d hd => h d (List.mem_cons_of_mem c hd)), List.append_assoc, List.singleton_append]

/-- A written tag is cut off whole. -/
theorem cutFrom_tag {inside : String} (h : Written inside.toList) (rest : List Char) :
    cutFrom none (("<" ++ inside ++ ">").toList ++ rest) =
      (cutFrom none rest).map (inside.toList :: ·) := by
  have e : ("<" ++ inside ++ ">").toList ++ rest = '<' :: (inside.toList ++ '>' :: rest) := by simp
  rw [e, cutFrom, if_pos rfl, cutFrom_inside h.insideChar]
  rfl

theorem ascii_tag {inside : String} (h : Written inside.toList) :
    ∀ c ∈ ("<" ++ inside ++ ">").toList, c.toNat < 128 := by
  intro c hc
  simp only [String.toList_append, List.mem_append] at hc
  rcases hc with (hc | hc) | hc
  · exact (by decide : Every (·.toNat < 128) "<".toList) c hc
  · exact (h.insideChar c hc).1
  · exact (by decide : Every (·.toNat < 128) ">".toList) c hc

theorem Reads.text {s : String} (h : Safe s) : Reads s [] where
  ascii := fun c hc => (h c hc).1
  cuts := fun rest => by rw [cutFrom_safe h]; simp
  written := fun _ hi => by cases hi
  nests := fun _ _ => rfl

theorem Reads.append {s t : String} {is js : List (List Char)} (hs : Reads s is)
    (ht : Reads t js) : Reads (s ++ t) (is ++ js) where
  ascii := by
    intro c hc
    rw [String.toList_append] at hc
    rcases List.mem_append.mp hc with hc | hc
    · exact hs.ascii c hc
    · exact ht.ascii c hc
  cuts := by
    intro rest
    rw [String.toList_append, List.append_assoc, hs.cuts, ht.cuts, Option.map_map]
    simp only [Function.comp_def, List.append_assoc]
  written := by
    intro inside hi
    rcases List.mem_append.mp hi with hi | hi
    · exact hs.written inside hi
    · exact ht.written inside hi
  nests := by
    intro stack rest
    rw [List.map_append, List.append_assoc, hs.nests, ht.nests]

/-- A tag that stands alone opens nothing. -/
theorem Reads.alone {inside : String} (h : Written inside.toList)
    (hrole : TagRole.of inside.toList = .alone) :
    Reads ("<" ++ inside ++ ">") [inside.toList] where
  ascii := ascii_tag h
  cuts := fun rest => cutFrom_tag h rest
  written := by
    intro i hi
    rw [List.mem_singleton.mp hi]
    exact h
  nests := by
    intro stack rest
    rw [List.map_singleton, hrole]
    rfl

/-- An element closes what its start tag opens. -/
theorem Reads.element {name : String} {attributes : List (String × String)} {inner : String}
    {is : List (List Char)} (h : Template name attributes) (hclosed : name.toList ∉ standAlone)
    (hinner : Reads inner is) :
    Reads (startTag name attributes ++ inner ++ stopTag name)
      ((name ++ attributesText attributes).toList :: is ++ [("/" ++ name).toList]) where
  ascii := by
    intro c hc
    simp only [String.toList_append, List.mem_append] at hc
    rcases hc with (hc | hc) | hc
    · exact ascii_tag (.start h) c (by simpa [startTag] using hc)
    · exact hinner.ascii c hc
    · exact ascii_tag (.stop h hclosed) c (by simpa [stopTag] using hc)
  cuts := by
    intro rest
    rw [String.toList_append, String.toList_append, List.append_assoc, List.append_assoc, startTag,
      cutFrom_tag (.start h), hinner.cuts, stopTag, cutFrom_tag (.stop h hclosed)]
    simp [Option.map_map, Function.comp_def]
  written := by
    intro inside hi
    simp only [List.cons_append, List.mem_cons, List.mem_append, List.not_mem_nil, or_false] at hi
    rcases hi with rfl | hi | rfl
    · exact .start h
    · exact hinner.written inside hi
    · exact .stop h hclosed
  nests := by
    intro stack rest
    simp only [List.map_cons, List.map_append, List.map_nil, List.cons_append, List.append_assoc,
      h.role_start, if_neg hclosed, role_stop, nest, hinner.nests, List.nil_append]
    rw [if_pos trivial]

/-- What is read is what `cut` gives. -/
theorem Reads.cut_eq {html : String} {insides : List (List Char)} (h : Reads html insides) :
    cut html = some insides := by
  have := h.cuts []
  rw [List.append_nil] at this
  rw [cut, this]
  simp [cutFrom]

/-- Every flow can be read. -/
theorem Flow.exists_reads {html : String} (h : Flow html) : ∃ insides, Reads html insides := by
  induction h with
  | text h => exact ⟨[], .text h⟩
  | doctype => exact ⟨["!DOCTYPE html".toList], .alone .doctype (by decide)⟩
  | alone h halone =>
      refine ⟨_, Reads.alone (.start h) ?_⟩
      rw [h.role_start, if_pos halone]
  | element h hclosed _ ih =>
      obtain ⟨is, hinner⟩ := ih
      exact ⟨_, .element h hclosed hinner⟩
  | append _ _ ihs iht =>
      obtain ⟨is, hs⟩ := ihs
      obtain ⟨js, ht⟩ := iht
      exact ⟨_, hs.append ht⟩

theorem Flow.ascii {html : String} (h : Flow html) : ∀ c ∈ html.toList, c.toNat < 128 := by
  obtain ⟨is, hreads⟩ := h.exists_reads
  exact hreads.ascii

theorem Flow.wellNested {html : String} (h : Flow html) : WellNested html := by
  obtain ⟨is, hreads⟩ := h.exists_reads
  refine ⟨is, hreads.cut_eq, hreads.written, ?_⟩
  have := hreads.nests [] []
  rw [List.append_nil] at this
  rw [this, nest]

/-! ### Whitespace at the ends -/

theorem trimEnd_append (p : Char → Bool) (xs ys : List Char) :
    trimEnd p (xs ++ ys) = if (trimEnd p ys).isEmpty then trimEnd p xs else xs ++ trimEnd p ys := by
  unfold trimEnd
  rw [List.reverse_append, List.dropWhile_append]
  simp only [List.isEmpty_reverse]
  split
  · rfl
  · rw [List.reverse_append, List.reverse_reverse]

theorem trimEnd_subset (p : Char → Bool) (cs : List Char) : ∀ c ∈ trimEnd p cs, c ∈ cs := by
  intro c hc
  rw [trimEnd, List.mem_reverse] at hc
  exact List.mem_reverse.mp ((List.dropWhile_sublist p).subset hc)

theorem startTag_toList (name : String) (attributes : List (String × String)) :
    (startTag name attributes).toList =
      '<' :: (name ++ attributesText attributes).toList ++ ['>'] := by
  simp [startTag]

theorem stopTag_toList (name : String) :
    (stopTag name).toList = '<' :: '/' :: name.toList ++ ['>'] := by
  simp [stopTag]

/-- A flow whose first characters are dropped up to a bracket is a flow. -/
theorem Flow.dropWhile {p : Char → Bool} (hp : p '<' = false) {html : String} (h : Flow html) :
    Flow (String.ofList (html.toList.dropWhile p)) := by
  induction h with
  | @text s h =>
      refine .text fun c hc => h c ?_
      rw [String.toList_ofList] at hc
      exact (List.dropWhile_sublist p).subset hc
  | doctype =>
      have e : "<!DOCTYPE html>".toList.dropWhile p = "<!DOCTYPE html>".toList := by simp [hp]
      rw [e]
      exact .doctype
  | @alone name attributes h halone =>
      rw [startTag_toList, List.cons_append, List.dropWhile_cons_of_neg (by simp [hp]),
        ← List.cons_append, ← startTag_toList, String.ofList_toList]
      exact .alone h halone
  | @element name attributes inner h hclosed hinner _ =>
      have e : (startTag name attributes ++ inner ++ stopTag name).toList.dropWhile p =
          (startTag name attributes ++ inner ++ stopTag name).toList := by
        rw [String.toList_append, String.toList_append, startTag_toList, List.cons_append,
          List.cons_append, List.cons_append, List.dropWhile_cons_of_neg (by simp [hp])]
      rw [e, String.ofList_toList]
      exact .element h hclosed hinner
  | @append s t _ ht ihs iht =>
      rw [String.toList_append, List.dropWhile_append]
      split
      · exact iht
      · rw [String.ofList_append, String.ofList_toList]
        exact ihs.append ht

/-- A flow whose last characters are dropped down to a bracket is a flow. -/
theorem Flow.trimEnd {p : Char → Bool} (hp : p '>' = false) {html : String} (h : Flow html) :
    Flow (String.ofList (Text.trimEnd p html.toList)) := by
  -- what ends in a bracket is left alone
  have hend : ∀ cs : List Char, Text.trimEnd p (cs ++ ['>']) = cs ++ ['>'] := by
    intro cs
    simp [Text.trimEnd, hp]
  induction h with
  | @text s h =>
      refine .text fun c hc => h c ?_
      rw [String.toList_ofList] at hc
      exact trimEnd_subset p _ c hc
  | doctype =>
      have e := hend "<!DOCTYPE html".toList
      have e' : "<!DOCTYPE html".toList ++ ['>'] = "<!DOCTYPE html>".toList := by decide
      rw [e'] at e
      rw [e]
      exact .doctype
  | @alone name attributes h halone =>
      rw [startTag_toList, hend, ← startTag_toList, String.ofList_toList]
      exact .alone h halone
  | @element name attributes inner h hclosed hinner _ =>
      rw [String.toList_append, stopTag_toList, ← List.append_assoc, hend, List.append_assoc,
        ← stopTag_toList, ← String.toList_append, String.ofList_toList]
      exact .element h hclosed hinner
  | @append s t hs _ ihs iht =>
      rw [String.toList_append, trimEnd_append]
      split
      · exact ihs
      · rw [String.ofList_append, String.ofList_toList]
        exact hs.append iht

/-- Whitespace may be taken off both ends of a flow. -/
theorem Flow.strip {html : String} (h : Flow html) : Flow (Text.strip html) := by
  have hdrop := h.dropWhile (p := isWhitespace) (by decide)
  have htrim := hdrop.trimEnd (p := isWhitespace) (by decide)
  rw [String.toList_ofList] at htrim
  exact htrim

end Markup.Html
