import Markup.Proofs.Library.ListBodies
import Markup.Proofs.Library.ListText

/-! # Space between the entries of a list

The space behind an entry of a list is drained into it up to the first paragraph break, and then
the end of the entry is trimmed (`Entry.settle`).  What stands behind the break, and in front of the
first entry, is dropped.  So a list with space between its entries is evaluated to the entries of
the list without space, each settled with the space that clings to it
(`ListText.exists_entries`).

Trimming looks no deeper than the last paragraph of an entry, while draining goes down to the last
block.  The main statement, `ListText.compile_spacing`, says when this shows in the HTML: the space
has no effect just if every entry that space clings to hides it.  `spacing_shows_in_code` is a list
where it has one. -/

namespace Markup

open Text

/-! ### What words add -/

/-- Whatever piece says these words, it adds this. -/
def World.WordAdds (w : World Builtin) (word : Wording) (a : Addition) : Prop :=
  ∀ p : Piece, p.wording = word → w.PieceAdds p a

theorem forall₂_pieceAdds {w : World Builtin} {pieces : List Piece} {adds : List Addition}
    (h : List.Forall₂ w.WordAdds (pieces.map Piece.wording) adds) :
    List.Forall₂ w.PieceAdds pieces adds :=
  (List.forall₂_map_left_iff.mp h).imp fun p _ hp => hp p rfl

/-- What is added can be added to an empty builder. -/
theorem Addition.perform_empty (a : Addition) (metadata : Metadata) (log : List LogEntry) :
    a.perform ⟨{ metadata }, log⟩ = (.ok (), ⟨⟨metadata, a.alone.1, a.alone.2⟩, log⟩) := by
  cases a with
  | nothing => rfl
  | inline value => rfl
  | block value => rfl

namespace World.PieceAdds

variable {w w' : World Builtin} {p : Piece} {a : Addition}

theorem run_empty (h : w.PieceAdds p a) (log : List LogEntry) :
    ∃ s, runPiece (w.call {} Builtin.library) p ⟨{}, log⟩ = (.ok (), s) ∧
      a.alone = (s.builder.blocks, s.builder.pending) := by
  obtain ⟨metadata, last, f, hrun⟩ := h.adds {} log
  rw [adapt_run, a.perform_empty] at hrun
  exact ⟨_, hrun, rfl⟩

theorem text (w : World Builtin) (span : Span) :
    w.PieceAdds (.text span) (.inline (.text span.fragment)) := by
  have hrun := runPiece_text_run (w.call {} Builtin.library) span {} []
  obtain ⟨a, ha⟩ := exists_pieceAdds hrun
  obtain rfl : a = .inline (.text span.fragment) := ha.makes
  exact ha

/-- A piece of the same words adds the same in another source. -/
theorem wordAdds (h : w.PieceAdds p a) (hscope : w.scope = w'.scope)
    (hdepth : w.depth = w'.depth) (hmax : w.maxDepth = w'.maxDepth) : w'.WordAdds p.wording a := by
  intro q hq
  cases p with
  | text span =>
      cases q with
      | call c => cases hq
      | text span' =>
          obtain rfl : a = .inline (.text span.fragment) := h.makes
          rw [← Wording.text.inj hq]
          exact text w' span'
  | call c =>
      cases q with
      | text span => cases hq
      | call c' =>
          obtain ⟨s, hrun, halone⟩ := h.run_empty []
          have hrepeats :
          Repeats (w.call {} Builtin.library c) (w'.call {} Builtin.library c') := by
            unfold World.call
            rw [hmax, hdepth]
            exact callWithin_repeats _ hscope hq.symm
          obtain ⟨last, hrun'⟩ := hrepeats _ () _ hrun []
          obtain ⟨a', ha'⟩ := exists_pieceAdds (p := .call c') hrun'
          obtain ⟨s', hempty, halone'⟩ := ha'.run_empty []
          rw [runPiece, hrun'] at hempty
          cases hempty
          obtain rfl : a = a' := Addition.eq_of_alone_eq (halone.trans halone'.symm)
          exact ha'

end World.PieceAdds

/-! ### What space adds -/

/-- What a word of space adds: text, or an empty paragraph. -/
def Wording.addition : Wording → Addition
  | .text t => .inline (.text t)
  | .call _ _ => .block (.par [])

section space

variable {form : ListForm} {source : Source} {maxDepth : Int}

theorem wordAdds_par (hroom : 2 ≤ maxDepth) :
    (form.world source maxDepth).WordAdds (.call parCommand []) (.block (.par [])) := by
  intro p hp
  cases p with
  | text span => cases hp
  | call c =>
      obtain ⟨hname, hargs⟩ := Wording.call.inj hp
      have hpar : (form.world source maxDepth).scope.find? parCommand =
          some ⟨parCommand, .par, .markup⟩ := by
        rcases form with (_ | _) | _ <;> rfl
      have hdepth : (form.world source maxDepth).depth < (form.world source maxDepth).maxDepth := by
        change (1 : Int) < maxDepth
        omega
      obtain ⟨f, told, hcall⟩ := parCall_run hpar hdepth hname (List.map_eq_nil_iff.mp hargs) {}
      rw [adapt_run] at hcall
      obtain ⟨a, ha⟩ := exists_pieceAdds (p := .call c) hcall
      obtain ⟨d, hfind, hmakes⟩ := ha.makes
      rw [hname, hpar] at hfind
      cases hfind
      cases hmakes
      exact ha

theorem Spacing.wordAdds (s : Spacing) (hroom : 2 ≤ maxDepth) :
    List.Forall₂ (form.world source maxDepth).WordAdds s.words (s.words.map Wording.addition) := by
  rw [List.forall₂_map_right_iff, List.forall₂_same]
  intro word hword
  have hplain := s.plain_words word hword
  cases word with
  | text t =>
      intro p hp
      cases p with
      | call c => cases hp
      | text span =>
          rw [← Wording.text.inj hp]
          exact .text _ span
  | call name args =>
      obtain ⟨rfl, rfl⟩ := hplain
      exact wordAdds_par hroom

end space

/-! ### Groups -/

theorem groups_append {ys : List Addition} (hys : (groups ys).1 = []) : ∀ xs : List Addition,
    groups (xs ++ ys) = ((groups xs).1, (groups xs).2 ++ (groups ys).2)
  | [] => by
      rw [List.nil_append, groups, List.nil_append, ← hys]
  | .nothing :: xs => by
      rw [List.cons_append, groups, groups, groups_append hys xs]
  | .inline i :: xs => by
      rw [List.cons_append, groups, groups, groups_append hys xs]
  | .block b :: xs => by
      rw [List.cons_append, groups, groups, groups_append hys xs]
      rfl

/-- Space falls into the groups of its texts, each behind an empty paragraph but for the first. -/
theorem groups_addition (words : List Wording) : groups (words.map Wording.addition) =
    (((textGroups words).headD []).map .text,
      (textGroups words).tail.map fun g => (.par [], g.map .text)) := by
  induction words with
  | nil => rfl
  | cons word rest ih =>
      obtain ⟨g, gs, hrest⟩ := exists_textGroups_cons rest
      rw [hrest] at ih
      cases word with
      | text t =>
          rw [List.map_cons, Wording.addition, groups, ih, textGroups, hrest]
          rfl
      | call name args =>
          rw [List.map_cons, Wording.addition, groups, ih, textGroups, hrest]
          rfl

/-! ### Entries and the space that clings to them -/

/-- The entry with a run drained into it, and its end trimmed. -/
def Entry.settle (run : List Inline) (x : Entry) : Except BuildError Entry :=
  (place run x.content).map fun bs => ⟨x.head, trimBlocks bs⟩

theorem Entry.settle_nil (x : Entry) : x.settle [] = .ok x.trim := by
  rw [settle, place_nil]
  rfl

namespace ListForm

variable {form : ListForm}

/-- The entries that are collected from blocks with runs behind them. -/
def Collected (form : ListForm) (gs : List (Block × List Inline)) (es : List Entry) : Prop :=
  ∃ parts, AllPlaced gs parts ∧ form.collect parts.flatten = .ok es

theorem collected_nil {es : List Entry} : form.Collected [] es ↔ es = [] := by
  constructor
  · rintro ⟨parts, hparts, hes⟩
    cases hparts
    cases hes
    rfl
  · rintro rfl
    exact ⟨[], .nil, rfl⟩

theorem collected_cons {b : Block} {run : List Inline} {gs : List (Block × List Inline)}
    {es : List Entry} : form.Collected ((b, run) :: gs) es ↔ ∃ part es₁ es₂,
      place run [b] = .ok part ∧ form.collect part = .ok es₁ ∧ form.Collected gs es₂ ∧
        es = es₁ ++ es₂ := by
  constructor
  · rintro ⟨parts, hparts, hes⟩
    cases hparts with
    | cons hpart hrest =>
        obtain ⟨es₁, es₂, hes₁, hes₂, rfl⟩ := exists_of_collect_append hes
        exact ⟨_, es₁, es₂, hpart, hes₁, ⟨_, hrest, hes₂⟩, rfl⟩
  · rintro ⟨part, es₁, es₂, hpart, hes₁, ⟨parts, hparts, hes₂⟩, rfl⟩
    refine ⟨part :: parts, .cons hpart hparts, ?_⟩
    rw [List.flatten_cons, collect_append, hes₁, hes₂]
    rfl

/-- Nothing is collected from what stands behind a paragraph break. -/
theorem collected_gaps {later : List (List String)} {gs : List (Block × List Inline)}
    {es : List Entry} (h : ∀ g ∈ later, IsSpacing (String.join g)) :
    form.Collected ((later.map fun g => (.par [], g.map .text)) ++ gs) es ↔
      form.Collected gs es := by
  induction later with
  | nil => rfl
  | cons g later ih =>
      have hblank := (h g List.mem_cons_self).isBlankRun_texts
      have hpar : form.collect [.par (g.map .text)] = .ok [] := by
        rw [collect_par, if_pos hblank]
      rw [List.map_cons, List.cons_append, collected_cons, place_emptyPar,
        ← ih fun g' hg' => h g' (List.mem_cons_of_mem g hg')]
      constructor
      · rintro ⟨part, es₁, es₂, hpart, hes₁, hrest, rfl⟩
        cases hpart
        rw [hpar] at hes₁
        cases hes₁
        exact hrest
      · intro hrest
        exact ⟨_, [], es, rfl, hpar, hrest, rfl⟩

/-- An entry takes a run if its content does. -/
theorem place_entry {b : Block} {x : Entry} (hb : form.entries? b = some [x]) (run : List Inline) :
    (∃ e, place run [b] = .error e ∧ x.settle run = .error e) ∨
      ∃ part y, place run [b] = .ok part ∧ form.collect part = .ok [y] ∧ x.settle run = .ok y := by
  by_cases hrun : run = []
  · subst hrun
    exact .inr ⟨[b], x.trim, place_nil [b], collect_of_entries? hb, x.settle_nil⟩
  have hplace (bs : List Block) : place run bs = (absorbBlocks run bs).map Prod.fst := if_neg hrun
  match form, b, hb with
  | itemized kind, .list kind' items, hb =>
      obtain ⟨⟨content, label⟩, rfl, rfl⟩ := List.map_eq_singleton_iff.mp (Option.some.inj hb)
      rw [Entry.settle, hplace, hplace, absorbBlocks, absorbBlock, absorbItems]
      change (∃ e, _ ∧ Except.map _ ((absorbBlocks run content).map _) = _) ∨
        ∃ part y, _ ∧ _ ∧ Except.map _ ((absorbBlocks run content).map _) = _
      cases absorbBlocks run content with
      | error e => exact .inl ⟨e, rfl, rfl⟩
      | ok drained =>
          have hlist : (itemized kind).entries? (.list kind' [.mk drained.1 label]) =
              some [⟨label, drained.1⟩] := rfl
          exact .inr ⟨_, _, rfl, collect_of_entries? hlist, rfl⟩
  | glossary, .termList items, hb =>
      obtain ⟨⟨term, content⟩, rfl, rfl⟩ := List.map_eq_singleton_iff.mp (Option.some.inj hb)
      rw [Entry.settle, hplace, hplace, absorbBlocks, absorbBlock, absorbTerms]
      change (∃ e, _ ∧ Except.map _ ((absorbBlocks run content).map _) = _) ∨
        ∃ part y, _ ∧ _ ∧ Except.map _ ((absorbBlocks run content).map _) = _
      cases absorbBlocks run content with
      | error e => exact .inl ⟨e, rfl, rfl⟩
      | ok drained =>
          have hlist : glossary.entries? (.termList [.mk term drained.1]) =
              some [⟨some term, drained.1⟩] := rfl
          exact .inr ⟨_, _, rfl, collect_of_entries? hlist, rfl⟩

/-- What is collected from an entry and the run behind it. -/
theorem collected_entry {b : Block} {x : Entry} (hb : form.entries? b = some [x])
    {run : List Inline} {gs : List (Block × List Inline)} {es : List Entry} :
    form.Collected ((b, run) :: gs) es ↔
      ∃ y es', x.settle run = .ok y ∧ form.Collected gs es' ∧ es = y :: es' := by
  rw [collected_cons]
  rcases form.place_entry hb run with ⟨e, hplace, hsettle⟩ | ⟨part, y, hplace, hcollect, hsettle⟩
  · refine iff_of_false ?_ ?_
    · rintro ⟨part, es₁, es₂, hpart, -⟩
      rw [hplace] at hpart
      cases hpart
    · rintro ⟨y, es', hy, -⟩
      rw [hsettle] at hy
      cases hy
  · constructor
    · rintro ⟨part', es₁, es₂, hpart, hes₁, hrest, rfl⟩
      rw [hplace] at hpart
      cases hpart
      rw [hcollect] at hes₁
      cases hes₁
      exact ⟨y, es₂, hsettle, hrest, rfl⟩
    · rintro ⟨y', es', hy, hrest, rfl⟩
      rw [hsettle] at hy
      cases hy
      exact ⟨part, [y], es', hplace, hcollect, hrest, rfl⟩

end ListForm

/-! ### Lists with space -/

/-- The command of the entry comes to the entry `x` in every source. -/
def EntryText.ComesTo (form : ListForm) (maxDepth : Int) (e : EntryText) (x : Entry) : Prop :=
  ∃ b, form.entries? b = some [x] ∧
    ∀ source, (form.world source maxDepth).WordAdds (e.word form) (.block b)

/-- The entry with the space that clings to it. -/
def EntryText.Settles (e : EntryText) (x y : Entry) : Prop :=
  x.settle (e.behind.run.map .text) = .ok y

/-- Entries that come to `xs`, each settled with the space that clings to it. -/
inductive AllSettle : List EntryText → List Entry → List Entry → Prop
  | nil : AllSettle [] [] []
  | cons {e : EntryText} {x y : Entry} {entries : List EntryText} {xs ys : List Entry}
      (h : e.Settles x y) (hrest : AllSettle entries xs ys) :
      AllSettle (e :: entries) (x :: xs) (y :: ys)

section lists

variable {form : ListForm} {maxDepth : Int}

/-- Words of entries and the space between them add blocks and the runs behind them. -/
theorem exists_entryAdds (hroom : 2 ≤ maxDepth) (source : Source) {entries : List EntryText}
    {xs : List Entry} (h : List.Forall₂ (EntryText.ComesTo form maxDepth) entries xs) :
    ∃ adds, List.Forall₂ (form.world source maxDepth).WordAdds
        (entries.flatMap fun e => e.word form :: e.behind.words) adds ∧
      (groups adds).1 = [] ∧
      ∀ ys, form.Collected (groups adds).2 ys ↔ AllSettle entries xs ys := by
  induction h with
  | nil =>
      refine ⟨[], .nil, rfl, fun ys => ?_⟩
      rw [groups, ListForm.collected_nil]
      constructor
      · rintro rfl
        exact .nil
      · rintro ⟨⟩
        rfl
  | @cons e x entries xs hx _ ih =>
      obtain ⟨b, hb, hword⟩ := hx
      obtain ⟨adds, hadds, hfront, hcollected⟩ := ih
      refine ⟨.block b :: (e.behind.words.map Wording.addition ++ adds), ?_, rfl, fun ys => ?_⟩
      · rw [List.flatMap_cons, List.cons_append]
        exact .cons (hword source) (List.rel_append (e.behind.wordAdds hroom) hadds)
      · have hgaps : ∀ g ∈ (textGroups e.behind.words).tail, IsSpacing (String.join g) :=
          fun g hg => Spacing.isSpacing_join (List.mem_of_mem_tail hg)
        rw [groups, groups_append hfront, groups_addition, ListForm.collected_entry hb]
        simp only [ListForm.collected_gaps hgaps, hcollected]
        constructor
        · rintro ⟨y, ys, hy, hys, rfl⟩
          exact .cons hy hys
        · rintro (_ | ⟨hy, hys⟩)
          exact ⟨_, _, hy, hys, rfl⟩

/-- The entries that can be collected from the body of a list with space. -/
theorem ListText.gives_iff (t : ListText) (hroom : 2 ≤ maxDepth) {source : Source}
    {pieces : List Piece} (hwords : pieces.map Piece.wording = t.words) {xs es : List Entry}
    (h : List.Forall₂ (EntryText.ComesTo t.form maxDepth) t.entries xs) :
    (∃ blocks, (t.form.world source maxDepth).Gives pieces blocks ∧
      t.form.collect blocks = .ok es) ↔ AllSettle t.entries xs es := by
  obtain ⟨adds, hadds, hfront, hcollected⟩ := exists_entryAdds hroom source h
  have hpieces : List.Forall₂ (t.form.world source maxDepth).PieceAdds pieces
      (t.lead.words.map Wording.addition ++ adds) := by
    refine forall₂_pieceAdds ?_
    rw [hwords]
    exact List.rel_append (t.lead.wordAdds hroom) hadds
  have hgaps : ∀ g ∈ (textGroups t.lead.words).tail, IsSpacing (String.join g) :=
    fun g hg => Spacing.isSpacing_join (List.mem_of_mem_tail hg)
  have hlead := (Spacing.isSpacing_join t.lead.run_mem).isBlankRun_texts
  have hgives (blocks : List Block) :
      (t.form.world source maxDepth).Gives pieces blocks ↔ _ := intoBlocks_eq_ok_iff hpieces
  rw [groups_append hfront, groups_addition] at hgives
  rw [← hcollected, ← ListForm.collected_gaps hgaps]
  constructor
  · rintro ⟨blocks, hblocks, hes⟩
    obtain ⟨front, parts, hplace, hparts, rfl⟩ := (hgives blocks).mp hblocks
    obtain ⟨es₁, es₂, hes₁, hes₂, rfl⟩ := ListForm.exists_of_collect_append hes
    rw [ListForm.collect_front hplace] at hes₁
    change (if isBlankRun (t.lead.run.map .text) then _ else _) = _ at hes₁
    rw [if_pos hlead] at hes₁
    cases hes₁
    exact ⟨parts, hparts, hes₂⟩
  · rintro ⟨parts, hparts, hes⟩
    obtain ⟨front, hplace⟩ : ∃ front, place (t.lead.run.map .text) [] = .ok front := by
      unfold place
      split <;> exact ⟨_, rfl⟩
    have hnone : t.form.collect front = .ok [] := by
      rw [ListForm.collect_front hplace, if_pos hlead]
    refine ⟨front ++ parts.flatten, (hgives _).mpr ⟨front, parts, hplace, hparts, rfl⟩, ?_⟩
    rw [ListForm.collect_append, hnone, hes]
    rfl

/-- The command of an entry that is evaluated at all comes to one entry. -/
theorem exists_comesTo {source : Source} {p : Piece} {a : Addition} {e : EntryText}
    (h : (form.world source maxDepth).PieceAdds p a) (hp : p.wording = e.word form) :
    ∃ x, e.ComesTo form maxDepth x := by
  have hwords (source' : Source) : (form.world source' maxDepth).WordAdds (e.word form) a :=
    hp ▸ h.wordAdds rfl rfl rfl
  cases p with
  | text span => cases hp
  | call c =>
      obtain ⟨hname, -⟩ := Wording.call.inj hp
      obtain ⟨d, hfind, hmakes⟩ := h.makes
      have hmember : form.scope.find? form.member.name = some form.member := by
        cases form <;> rfl
      change form.scope.find? c.name.fragment = some d at hfind
      rw [hname, hmember] at hfind
      cases hfind
      cases form with
      | itemized kind =>
          cases hmakes with
          | item content => exact ⟨⟨none, content⟩, _, rfl, hwords⟩
      | glossary =>
          cases hmakes with
          | term term content => exact ⟨⟨some term, content⟩, _, rfl, hwords⟩

theorem Spacing.words_none : Spacing.none.words = [] := by
  rw [words]
  change (scanRegion []).pieces.map RawPiece.wording = []
  rw [scanRegion]
  rfl

theorem Spacing.run_none : Spacing.none.run = [] := by
  rw [run, words_none]
  rfl

theorem ListText.words_tight (t : ListText) :
    t.tight.words = t.entries.map (EntryText.word t.form) := by
  have hentry (e : EntryText) : e.tight.word t.form :: e.tight.behind.words = [e.word t.form] :=
    congrArg (e.word t.form :: ·) Spacing.words_none
  change Spacing.none.words ++ (t.entries.map EntryText.tight).flatMap
    (fun e => e.word t.form :: e.behind.words) = _
  rw [Spacing.words_none, List.nil_append, List.flatMap_map, List.map_eq_flatMap]
  exact List.flatMap_congr fun e _ => hentry e

/-- Without space the entries are just trimmed. -/
theorem AllSettle.eq_of_tight : ∀ {entries : List EntryText} {xs ys : List Entry},
    AllSettle (entries.map EntryText.tight) xs ys → ys = xs.map Entry.trim
  | [], _, _, .nil => rfl
  | e :: rest, x :: xs, y :: ys, .cons h hrest => by
      change x.settle (Spacing.none.run.map .text) = .ok y at h
      rw [Spacing.run_none, List.map_nil, Entry.settle_nil] at h
      cases h
      rw [eq_of_tight hrest, List.map_cons]

/-- The entries of a body without space. -/
theorem exists_allComeTo {source : Source} {pieces : List Piece} {adds : List Addition}
    (h : List.Forall₂ (form.world source maxDepth).PieceAdds pieces adds) :
    ∀ {entries : List EntryText},
      pieces.map Piece.wording = entries.map (EntryText.word form) →
        ∃ xs, List.Forall₂ (EntryText.ComesTo form maxDepth) entries xs := by
  induction h with
  | nil =>
      intro entries hwords
      obtain rfl := List.map_eq_nil_iff.mp hwords.symm
      exact ⟨[], .nil⟩
  | @cons p a pieces adds hp _ ih =>
      intro entries hwords
      obtain ⟨e, rest, rfl, he, hrest⟩ := List.map_eq_cons_iff.mp hwords.symm
      obtain ⟨x, hx⟩ := exists_comesTo hp he.symm
      obtain ⟨xs, hxs⟩ := ih hrest.symm
      exact ⟨x :: xs, .cons hx hxs⟩

/-- **Space between entries is drained into them.**  If the list without space is evaluated, the
list with space is evaluated to its entries, each with the space that clings to it. -/
theorem ListText.exists_entries (t : ListText) (hroom : 2 ≤ maxDepth) {d : Document}
    (h : (evaluateStandard t.tight.source maxDepth).1 = .ok d) :
    ∃ xs : List Entry, xs.length = t.entries.length ∧
      d = ⟨[], [t.form.ofEntries (xs.map Entry.trim)]⟩ ∧
      ∀ d', (evaluateStandard t.source maxDepth).1 = .ok d' ↔
        ∃ ys, AllSettle t.entries xs ys ∧ d' = ⟨[], [t.form.ofEntries ys]⟩ := by
  have hone : 1 ≤ maxDepth := by omega
  obtain ⟨c, pieces, halone, hwords⟩ := t.tight.exists_alone
  obtain ⟨c', pieces', halone', hwords'⟩ := t.exists_alone
  obtain ⟨blocks, es, hgives, hes, rfl⟩ :=
    (ListForm.evaluateStandard_eq_ok_iff halone hone).mp h
  obtain ⟨adds, hadds⟩ := hgives.exists_pieceAdds
  obtain ⟨xs, hxs⟩ := exists_allComeTo hadds (hwords.trans t.words_tight)
  have htight : List.Forall₂ (EntryText.ComesTo t.form maxDepth) t.tight.entries xs :=
    List.forall₂_map_left_iff.mpr hxs
  have hsettle := (t.tight.gives_iff hroom hwords htight).mp ⟨blocks, hgives, hes⟩
  obtain rfl := AllSettle.eq_of_tight hsettle
  refine ⟨xs, hxs.length_eq.symm, rfl, fun d' => ?_⟩
  rw [ListForm.evaluateStandard_eq_ok_iff halone' hone]
  constructor
  · rintro ⟨blocks', ys, hgives', hys, rfl⟩
    exact ⟨ys, (t.gives_iff hroom hwords' hxs).mp ⟨blocks', hgives', hys⟩, rfl⟩
  · rintro ⟨ys, hys, rfl⟩
    obtain ⟨blocks', hgives', hcollect⟩ := (t.gives_iff hroom hwords' hxs).mpr hys
    exact ⟨blocks', ys, hgives', hcollect, rfl⟩

end lists

/-! ### Whether space shows -/

/-- The entry does not show the space that clings to it. -/
def EntryText.Hides (e : EntryText) (x : Entry) : Prop :=
  e.behind.clings = true → blocksHideSpace x.content = true

namespace Html

/-- Entries that are written side by side. -/
inductive EntriesTrack : Bool → List Entry → List Entry → Prop
  | nil : EntriesTrack false [] []
  | cons {more more' : Bool} {x y : Entry} {xs ys : List Entry} (hhead : y.head = x.head)
      (h : Tracks (Grown more) (tightHtml x.content) (tightHtml y.content))
      (hrest : EntriesTrack more' xs ys) : EntriesTrack (more || more') (x :: xs) (y :: ys)

theorem EntriesTrack.itemParts {more : Bool} {xs ys : List Entry} (h : EntriesTrack more xs ys) :
    Tracks (PartsGrown more) (itemParts (xs.map Entry.item)) (itemParts (ys.map Entry.item)) := by
  induction h with
  | nil => exact .refl .same _
  | @cons more more' x y xs ys hhead h _ ih =>
      rw [List.map_cons, List.map_cons, Entry.item, Entry.item, hhead]
      exact itemParts_cons_tracks x.head h ih

theorem EntriesTrack.termParts {more : Bool} {xs ys : List Entry} (h : EntriesTrack more xs ys) :
    Tracks (PartsGrown more) (termParts (xs.map Entry.termItem))
      (termParts (ys.map Entry.termItem)) := by
  induction h with
  | nil => exact .refl .same _
  | @cons more more' x y xs ys hhead h _ ih =>
      rw [List.map_cons, List.map_cons, Entry.termItem, Entry.termItem, hhead]
      exact termParts_cons_tracks (x.head.getD []) h ih

theorem EntriesTrack.blockHtml {more : Bool} {xs ys : List Entry} (h : EntriesTrack more xs ys)
    (form : ListForm) :
    Tracks (Grown more) (blockHtml (form.ofEntries xs)) (blockHtml (form.ofEntries ys)) := by
  cases form with
  | itemized kind =>
      rw [ListForm.ofEntries, ListForm.ofEntries, Html.blockHtml, Html.blockHtml]
      exact h.itemParts.map fun _ _ hparts => hparts.lines (by cases kind <;> decide) _
  | glossary =>
      rw [ListForm.ofEntries, ListForm.ofEntries, Html.blockHtml, Html.blockHtml]
      exact h.termParts.map fun _ _ hparts => hparts.lines (by decide) _

end Html

section entries

variable {e : EntryText} {x y : Entry} {entries : List EntryText} {xs ys : List Entry}

/-- An entry with the space that clings to it is written the same way, and the text is the same just
if it hides the space. -/
theorem EntryText.Settles.tracks (h : e.Settles x y) : y.head = x.trim.head ∧ ∃ more,
    Html.Tracks (Html.Grown more) (Html.tightHtml x.trim.content) (Html.tightHtml y.content) ∧
      (more = false ↔ e.Hides x.trim) := by
  have hclings := e.behind.clings_iff
  unfold EntryText.Settles Entry.settle at h
  by_cases hrun : e.behind.run = []
  · rw [hrun, List.map_nil, place_nil] at h
    cases h
    refine ⟨rfl, false, .refl .same _, iff_of_true rfl fun hc => ?_⟩
    exact (hclings.mp hc hrun).elim
  · have hne : e.behind.run.map Inline.text ≠ [] := fun hnil => hrun (List.map_eq_nil_iff.mp hnil)
    rw [place, if_neg hne] at h
    cases habsorb : absorbBlocks (e.behind.run.map .text) x.content with
    | error cause =>
        rw [habsorb] at h
        cases h
    | ok drained =>
        rw [habsorb] at h
        cases h
        refine ⟨rfl, _, Html.trimBlocks_tracks (Spacing.isSpacing_join e.behind.run_mem)
          (Spacing.join_run_ne_empty hrun) habsorb, ?_⟩
        rw [Bool.not_eq_false']
        exact ⟨fun hhides _ => hhides, fun hhides => hhides (hclings.mpr hrun)⟩

theorem AllSettle.tracks (h : AllSettle entries xs ys) :
    ∃ more, Html.EntriesTrack more (xs.map Entry.trim) ys ∧
      (more = false ↔ List.Forall₂ EntryText.Hides entries (xs.map Entry.trim)) := by
  induction h with
  | nil => exact ⟨false, .nil, iff_of_true rfl .nil⟩
  | cons h _ ih =>
      obtain ⟨more', hrest, hmore'⟩ := ih
      obtain ⟨hhead, more, htracks, hmore⟩ := h.tracks
      refine ⟨_, .cons hhead htracks hrest, ?_⟩
      rw [List.map_cons, List.forall₂_cons, Bool.or_eq_false_iff, hmore, hmore']

/-- An entry that hides space can take it. -/
theorem EntryText.Hides.exists_settles (h : e.Hides x.trim) : ∃ y, e.Settles x y := by
  unfold EntryText.Settles Entry.settle
  by_cases hrun : e.behind.run = []
  · rw [hrun, List.map_nil, place_nil]
    exact ⟨_, rfl⟩
  · have hne : e.behind.run.map Inline.text ≠ [] := fun hnil => hrun (List.map_eq_nil_iff.mp hnil)
    have hhides : blocksHideSpace x.content = true := by
      rw [← blocksHideSpace_trimBlocks]
      exact h (e.behind.clings_iff.mpr hrun)
    obtain ⟨bs', log, habsorb⟩ := exists_absorbBlocks (e.behind.run.map .text) hhides
    rw [place, if_neg hne, habsorb]
    exact ⟨_, rfl⟩

theorem exists_allSettle : ∀ {entries : List EntryText} {xs : List Entry},
    List.Forall₂ EntryText.Hides entries (xs.map Entry.trim) → ∃ ys, AllSettle entries xs ys
  | [], [], .nil => ⟨[], .nil⟩
  | _ :: _, _ :: _, .cons h hrest => by
      obtain ⟨y, hy⟩ := h.exists_settles
      obtain ⟨ys, hys⟩ := exists_allSettle hrest
      exact ⟨y :: ys, .cons hy hys⟩

end entries

/-! ### The whole -/

theorem exists_of_compile_eq_ok {source : Source} {options : Html.Options} {maxDepth : Int}
    {html : String} (h : (compile source options maxDepth).1 = .ok html) :
    ∃ d, (evaluateStandard source maxDepth).1 = .ok d ∧ Html.render options d = .ok html := by
  unfold compile at h
  split at h
  · cases h
  · dsimp only at h
    cases hd : (evaluateStandard source maxDepth).1 with
    | error e =>
        rw [hd] at h
        cases h
    | ok d =>
        rw [hd] at h
        change (Html.render options d).mapError Error.render = .ok html at h
        cases hrender : Html.render options d with
        | error e =>
            rw [hrender] at h
            cases h
        | ok found =>
            rw [hrender] at h
            cases h
            exact ⟨d, rfl, hrender⟩

/-- **When space between the entries of a list has no effect.**  If a list without space between its
entries is compiled, then the same list with space in front of its entries and behind each of them
is evaluated and written as the same HTML just if every entry hides the space that clings to it. -/
theorem ListText.compile_spacing (t : ListText) {options : Html.Options} {maxDepth : Int}
    {html : String} (hroom : 2 ≤ maxDepth)
    (htight : (compile t.tight.source options maxDepth).1 = .ok html) :
    ∃ es : List Entry,
      (evaluateStandard t.tight.source maxDepth).1 = .ok ⟨[], [t.form.ofEntries es]⟩ ∧
      es.length = t.entries.length ∧
      ((∃ d, (evaluateStandard t.source maxDepth).1 = .ok d ∧ Html.render options d = .ok html) ↔
        List.Forall₂ EntryText.Hides t.entries es) := by
  obtain ⟨d, hd, hrender⟩ := exists_of_compile_eq_ok htight
  obtain ⟨xs, hlength, rfl, hspaced⟩ := t.exists_entries hroom hd
  have hwritten {ys : List Entry} (hys : AllSettle t.entries xs ys) : ∃ html',
      Html.render options ⟨[], [t.form.ofEntries ys]⟩ = .ok html' ∧
        (html' = html ↔ List.Forall₂ EntryText.Hides t.entries (xs.map Entry.trim)) := by
    obtain ⟨more, htracks, hmore⟩ := hys.tracks
    obtain ⟨html', hrender', hgrown⟩ :=
      Html.render_tracks (htracks.blockHtml t.form).single hrender
    exact ⟨html', hrender', hgrown.eq_iff.trans hmore⟩
  refine ⟨xs.map Entry.trim, hd, by rw [List.length_map, hlength], ?_, ?_⟩
  · rintro ⟨d', hd', hsame⟩
    obtain ⟨ys, hys, rfl⟩ := (hspaced d').mp hd'
    obtain ⟨html', hrender', hiff⟩ := hwritten hys
    rw [hrender'] at hsame
    exact hiff.mp (Except.ok.inj hsame)
  · intro hhides
    obtain ⟨ys, hys⟩ := exists_allSettle hhides
    obtain ⟨html', hrender', hiff⟩ := hwritten hys
    refine ⟨_, (hspaced _).mpr ⟨ys, hys, rfl⟩, ?_⟩
    rw [hrender', hiff.mpr hhides]

/-- A block of code as an item, with some space behind it. -/
def codeItem (behind : Spacing) : EntryText where
  args := ["\\codeblock\x7bx\x7d"]
  balanced := by
    have hclosed : takeBalanced 0 ("\\codeblock\x7bx\x7d".toList ++ ['}']) =
        some ("\\codeblock\x7bx\x7d".toList, []) := by decide +kernel
    intro a ha
    rw [List.mem_singleton.mp ha]
    exact (takeBalanced_eq_some_iff.mp hclosed).1
  behind

/-- A list of one block of code, with some space behind it. -/
def codeList (behind : Spacing) : ListText := ⟨.itemized .unordered, .none, [codeItem behind]⟩

theorem compile_codeList (behind : Spacing) :
    (compile (codeList behind).tight.source {} defaultMaxDepth).1 =
      .ok "<ul>\n<li><pre><code>x</code></pre></li>\n</ul>\n" := by
  have hsource : (codeList .none).source =
      { text := "\\list\x7b\\item\x7b\\codeblock\x7bx\x7d\x7d\x7d" } :=
    congrArg (fun text : String => ({ text } : Source)) (by decide +kernel)
  change (compile (codeList .none).source {} defaultMaxDepth).1 = _
  rw [hsource]
  cbv

/-- A paragraph break keeps the space off the code in front of it. -/
theorem ListText.compile_spacing_break :
    ∃ es d, List.Forall₂ EntryText.Hides (codeList ⟨"\n\n ", by decide, by decide⟩).entries es ∧
      (evaluateStandard (codeList ⟨"\n\n ", by decide, by decide⟩).source
        defaultMaxDepth).1 = .ok d ∧
      Html.render {} d = .ok "<ul>\n<li><pre><code>x</code></pre></li>\n</ul>\n" := by
  obtain ⟨es, -, hlength, hiff⟩ := (codeList ⟨"\n\n ", by decide, by decide⟩).compile_spacing
    (by decide) (compile_codeList _)
  obtain ⟨x, rfl⟩ := List.length_eq_one_iff.mp hlength
  have hclings : (Spacing.mk "\n\n " (by decide) (by decide)).clings = false := by cbv
  have hhides : (codeItem ⟨"\n\n ", by decide, by decide⟩).Hides x := by
    intro hc
    exact absurd (hclings.symm.trans hc) (by decide)
  obtain ⟨d, hd, hrender⟩ := hiff.mpr (.cons hhides .nil)
  exact ⟨[x], d, .cons hhides .nil, hd, hrender⟩

/-- Space between entries may show: in `\list{\item{\codeblock{x}} }` the space becomes a part of
the code. -/
theorem spacing_shows_in_code :
    ¬ ∀ (t : ListText) (options : Html.Options) (html : String),
      (compile t.tight.source options defaultMaxDepth).1 = .ok html →
        ∃ d, (evaluateStandard t.source defaultMaxDepth).1 = .ok d ∧
          Html.render options d = .ok html := by
  intro h
  obtain ⟨d, hd, hrender⟩ :=
    h (codeList ⟨" ", by decide, by decide⟩) {} _ (compile_codeList _)
  have hsource : (codeList ⟨" ", by decide, by decide⟩).source =
      { text := "\\list\x7b\\item\x7b\\codeblock\x7bx\x7d\x7d \x7d" } :=
    congrArg (fun text : String => ({ text } : Source)) (by decide +kernel)
  have hspaced : (compile { text := "\\list\x7b\\item\x7b\\codeblock\x7bx\x7d\x7d \x7d" } {}
      defaultMaxDepth).1 = .ok "<ul>\n<li><pre><code>x </code></pre></li>\n</ul>\n" := by cbv
  obtain ⟨d', hd', hrender'⟩ := exists_of_compile_eq_ok hspaced
  rw [hsource, hd'] at hd
  cases hd
  rw [hrender'] at hrender
  exact absurd (Except.ok.inj hrender) (by decide +kernel)

end Markup
