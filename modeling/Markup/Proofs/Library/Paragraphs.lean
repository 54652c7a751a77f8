import Markup.Proofs.Library.Alike
import Markup.Proofs.Library.Evaluation
import Markup.Proofs.Library.Pushes
import Mathlib

/-! # Paragraph breaks divide a document

Two texts with a paragraph break between them are evaluated to the document of the first and the
document of the second, one after the other (`evaluateStandard_append_breaks`).  The break stands
for an empty paragraph.  If the second text goes on with inline content, this fills the paragraph,
which then is the first one of the second text; if it goes on with a block, or has nothing to push,
the paragraph stays empty between the two.

The proof compares what the pieces of the second text do on an empty builder with what they do
behind the first text (`Builder.Behind`), piece by piece: a piece adds one thing, so it is clear
what the first thing is (`PushesInlineFirst`). -/

namespace Markup

open Text

/-! ### Pieces one by one -/

/-- Evaluates one piece. -/
def runPiece (call : Call → Eval Unit) : Piece → Eval Unit
  | .text span => Eval.push (.span span)
  | .call c => call c

theorem runPieces_cons (call : Call → Eval Unit) (p : Piece) (rest : List Piece) :
    runPieces call (p :: rest) = (do runPiece call p; runPieces call rest) := by
  cases p <;> rfl

theorem runPieces_append {call : Call → Eval Unit} {qs : List Piece} :
    ∀ {ps : List Piece} {s s' : Session}, runPieces call ps s = (.ok (), s') →
      runPieces call (ps ++ qs) s = runPieces call qs s'
  | [], _, _, h => by
      cases h
      rfl
  | p :: ps, s, s', h => by
      rw [runPieces_cons] at h
      obtain ⟨_, between, hp, hrest⟩ := exists_of_bind_eq_ok h
      rw [List.cons_append, runPieces_cons, bind_run, hp]
      exact runPieces_append hrest

/-- At some point of the run there is inline content and no block yet: the first thing that is
pushed is inline. -/
def PushesInlineFirst (call : Call → Eval Unit) (pieces : List Piece) (s : Session) : Prop :=
  ∃ before after mid, pieces = before ++ after ∧ runPieces call before s = (.ok (), mid) ∧
    mid.builder.blocks = [] ∧ mid.builder.pending ≠ []

theorem pushesInlineFirst_cons {call : Call → Eval Unit} {p : Piece} {rest : List Piece}
    {s s' : Session} (hp : runPiece call p s = (.ok (), s')) (hpending : s.builder.pending = []) :
    PushesInlineFirst call (p :: rest) s ↔ PushesInlineFirst call rest s' := by
  constructor
  · rintro ⟨before, after, mid, hsplit, hrun, hblocks, hmid⟩
    cases before with
    | nil =>
        cases hrun
        exact (hmid hpending).elim
    | cons q before =>
        obtain ⟨rfl, rfl⟩ := List.cons.inj hsplit
        rw [runPieces_cons, bind_run, hp] at hrun
        exact ⟨before, after, mid, rfl, hrun, hblocks, hmid⟩
  · rintro ⟨before, after, mid, rfl, hrun, hblocks, hmid⟩
    refine ⟨p :: before, after, mid, rfl, ?_, hblocks, hmid⟩
    rw [runPieces_cons, bind_run, hp]
    exact hrun

/-! ### One piece behind other blocks -/

namespace Eval.AddsOne

variable {x : Eval Unit} {m : Metadata} {front : List Block} {s s' t : Builder}
  {log last : List LogEntry}

theorem block_run {f : BuildFailure → Failure} {value : Block}
    (h : ExceptT.adapt f (Build.pushBlock value) ⟨s, log⟩ = (.ok (), ⟨s', last⟩)) :
    ∃ drained, Build.drain ⟨s, log⟩ = (.ok (), ⟨drained, last⟩) ∧
      s' = { drained with blocks := drained.blocks ++ [value] } := by
  rw [adapt_run, pushBlock_run] at h
  rcases hdrain : Build.drain ⟨s, log⟩ with ⟨e | u, after⟩
  · rw [hdrain] at h
    cases h
  · rw [hdrain] at h
    cases h
    exact ⟨after.builder, rfl, rfl⟩

theorem blocks_ne_nil (h : AddsOne x log) (hrun : x ⟨s, log⟩ = (.ok (), ⟨s', last⟩))
    (hne : s.blocks ≠ []) : s'.blocks ≠ [] := by
  cases h with
  | sets outcome entries last h =>
      rw [h] at hrun
      cases hrun
      exact hne
  | inline i last h =>
      rw [h] at hrun
      cases hrun
      exact hne
  | block value last f h =>
      rw [h] at hrun
      obtain ⟨drained, -, rfl⟩ := block_run hrun
      simp

/-- A piece does the same behind other blocks, unless something is pending that has no block of its
own to go to. -/
theorem behind (h : AddsOne x log) (hbehind : Builder.Behind m front s t)
    (hown : s.blocks = [] → s.pending = []) (hrun : x ⟨s, log⟩ = (.ok (), ⟨s', last⟩)) :
    ∃ t', x ⟨t, log⟩ = (.ok (), ⟨t', last⟩) ∧ Builder.Behind m front s' t' := by
  cases h with
  | sets outcome entries last h =>
      rw [h] at hrun
      cases hrun
      exact ⟨_, h t, hbehind.update entries⟩
  | inline i last h =>
      rw [h] at hrun
      cases hrun
      exact ⟨_, h t, hbehind.pushInline i⟩
  | block value last f h =>
      rw [h] at hrun
      obtain ⟨drained, hdrain, rfl⟩ := block_run hrun
      obtain ⟨drained', hdrain', hbehind'⟩ := hbehind.drain hown hdrain
      refine ⟨_, ?_, hbehind'.pushBlock value⟩
      rw [h, adapt_run, pushBlock_run, hdrain']

/-- What is pending fills the empty paragraph in front as soon as a block comes. -/
theorem behind_first (h : AddsOne x log) (hbehind : Builder.Behind m (front ++ [.par []]) s t)
    (hblocks : s.blocks = []) (hpending : s.pending ≠ [])
    (hrun : x ⟨s, log⟩ = (.ok (), ⟨s', last⟩)) :
    ∃ t', x ⟨t, log⟩ = (.ok (), ⟨t', last⟩) ∧
      ((s'.blocks = [] ∧ s'.pending ≠ [] ∧ Builder.Behind m (front ++ [.par []]) s' t') ∨
        (s'.blocks ≠ [] ∧ Builder.Behind m front s' t')) := by
  cases h with
  | sets outcome entries last h =>
      rw [h] at hrun
      cases hrun
      exact ⟨_, h t, .inl ⟨hblocks, hpending, hbehind.update entries⟩⟩
  | inline i last h =>
      rw [h] at hrun
      cases hrun
      exact ⟨_, h t, .inl ⟨hblocks, by simp, hbehind.pushInline i⟩⟩
  | block value last f h =>
      rw [h] at hrun
      obtain ⟨drained, hdrain, rfl⟩ := block_run hrun
      obtain ⟨drained', hdrain', hbehind'⟩ := hbehind.drain_first hblocks hpending hdrain
      refine ⟨_, ?_, .inr ⟨by simp, hbehind'.pushBlock value⟩⟩
      rw [h, adapt_run, pushBlock_run, hdrain']

end Eval.AddsOne

/-! ### Pieces behind other blocks -/

section runs

variable {call : Call → Eval Unit} (hcall : ∀ c log, (call c).AddsOne log)
include hcall

theorem runPiece_addsOne (p : Piece) (log : List LogEntry) : (runPiece call p).AddsOne log := by
  cases p with
  | text span => exact Eval.addsOne_pushSpan span
  | call c => exact hcall c log

variable {m : Metadata} {front : List Block}

theorem runPieces_blocks_ne_nil : ∀ {pieces : List Piece} {s s' : Session},
    runPieces call pieces s = (.ok (), s') → s.builder.blocks ≠ [] → s'.builder.blocks ≠ []
  | [], _, _, hrun, hne => by
      cases hrun
      exact hne
  | p :: rest, s, s', hrun, hne => by
      rw [runPieces_cons] at hrun
      obtain ⟨_, between, hp, hrest⟩ := exists_of_bind_eq_ok hrun
      have hbetween := (runPiece_addsOne hcall p s.log).blocks_ne_nil hp hne
      exact runPieces_blocks_ne_nil hrest hbetween

theorem runPieces_behind : ∀ {pieces : List Piece} {s s' t : Builder} {log last : List LogEntry},
    Builder.Behind m front s t → s.blocks ≠ [] →
      runPieces call pieces ⟨s, log⟩ = (.ok (), ⟨s', last⟩) →
        ∃ t', runPieces call pieces ⟨t, log⟩ = (.ok (), ⟨t', last⟩) ∧ Builder.Behind m front s' t'
  | [], _, _, t, _, _, hbehind, _, hrun => by
      cases hrun
      exact ⟨t, rfl, hbehind⟩
  | p :: rest, s, s', t, log, last, hbehind, hne, hrun => by
      rw [runPieces_cons] at hrun
      obtain ⟨_, ⟨s₁, log₁⟩, hp, hrest⟩ := exists_of_bind_eq_ok hrun
      have hadds := runPiece_addsOne hcall p log
      obtain ⟨t₁, hp', hbehind₁⟩ := hadds.behind hbehind (fun hnil => (hne hnil).elim) hp
      obtain ⟨t', hrest', hbehind'⟩ := runPieces_behind hbehind₁ (hadds.blocks_ne_nil hp hne) hrest
      refine ⟨t', ?_, hbehind'⟩
      rw [runPieces_cons, bind_run, hp']
      exact hrest'

theorem runPieces_behind_first :
    ∀ {pieces : List Piece} {s s' t : Builder} {log last : List LogEntry},
      Builder.Behind m (front ++ [.par []]) s t → s.blocks = [] → s.pending ≠ [] →
        runPieces call pieces ⟨s, log⟩ = (.ok (), ⟨s', last⟩) →
          ∃ t', runPieces call pieces ⟨t, log⟩ = (.ok (), ⟨t', last⟩) ∧
            ((s'.blocks = [] ∧ s'.pending ≠ [] ∧ Builder.Behind m (front ++ [.par []]) s' t') ∨
              (s'.blocks ≠ [] ∧ Builder.Behind m front s' t'))
  | [], _, _, t, _, _, hbehind, hblocks, hpending, hrun => by
      cases hrun
      exact ⟨t, rfl, .inl ⟨hblocks, hpending, hbehind⟩⟩
  | p :: rest, s, s', t, log, last, hbehind, hblocks, hpending, hrun => by
      rw [runPieces_cons] at hrun
      obtain ⟨_, ⟨s₁, log₁⟩, hp, hrest⟩ := exists_of_bind_eq_ok hrun
      obtain ⟨t₁, hp', hcases⟩ :=
        (runPiece_addsOne hcall p log).behind_first hbehind hblocks hpending hp
      rw [runPieces_cons, bind_run, hp']
      rcases hcases with ⟨hblocks₁, hpending₁, hbehind₁⟩ | ⟨hne, hbehind₁⟩
      · exact runPieces_behind_first hbehind₁ hblocks₁ hpending₁ hrest
      · obtain ⟨t', hrest', hbehind'⟩ := runPieces_behind hcall hbehind₁ hne hrest
        exact ⟨t', hrest', .inr ⟨runPieces_blocks_ne_nil hcall hrest hne, hbehind'⟩⟩

/-- How a run that starts with nothing ends, and how it ends behind an empty paragraph: if its
first push is inline, this fills the paragraph, now or when it is drained, and else it stays. -/
theorem runPieces_behind_break :
    ∀ {pieces : List Piece} {s s' t : Builder} {log last : List LogEntry},
      Builder.Behind m (front ++ [.par []]) s t → s.blocks = [] → s.pending = [] →
        runPieces call pieces ⟨s, log⟩ = (.ok (), ⟨s', last⟩) →
          ∃ t', runPieces call pieces ⟨t, log⟩ = (.ok (), ⟨t', last⟩) ∧
            ((¬ PushesInlineFirst call pieces ⟨s, log⟩ ∧ (s'.blocks = [] → s'.pending = []) ∧
                Builder.Behind m (front ++ [.par []]) s' t') ∨
              (PushesInlineFirst call pieces ⟨s, log⟩ ∧
                ((s'.blocks = [] ∧ s'.pending ≠ [] ∧ Builder.Behind m (front ++ [.par []]) s' t') ∨
                  (s'.blocks ≠ [] ∧ Builder.Behind m front s' t'))))
  | [], s, _, t, log, _, hbehind, hblocks, hpending, hrun => by
      cases hrun
      refine ⟨t, rfl, .inl ⟨?_, fun _ => hpending, hbehind⟩⟩
      rintro ⟨before, after, mid, hsplit, hmid, -, hinline⟩
      obtain ⟨rfl, -⟩ := List.append_eq_nil_iff.mp hsplit.symm
      cases hmid
      exact hinline hpending
  | p :: rest, s, s', t, log, last, hbehind, hblocks, hpending, hrun => by
      rw [runPieces_cons] at hrun
      obtain ⟨_, ⟨s₁, log₁⟩, hp, hrest⟩ := exists_of_bind_eq_ok hrun
      obtain ⟨t₁, hp', hbehind₁⟩ :=
        (runPiece_addsOne hcall p log).behind hbehind (fun _ => hpending) hp
      rw [runPieces_cons, bind_run, hp', pushesInlineFirst_cons hp hpending]
      by_cases hblocks₁ : s₁.blocks = []
      · by_cases hpending₁ : s₁.pending = []
        · exact runPieces_behind_break hbehind₁ hblocks₁ hpending₁ hrest
        · have hinline : PushesInlineFirst call rest ⟨s₁, log₁⟩ :=
            ⟨[], rest, ⟨s₁, log₁⟩, rfl, rfl, hblocks₁, hpending₁⟩
          obtain ⟨t', hrest', hcases⟩ :=
            runPieces_behind_first hcall hbehind₁ hblocks₁ hpending₁ hrest
          exact ⟨t', hrest', .inr ⟨hinline, hcases⟩⟩
      · obtain ⟨t', hrest', hbehind'⟩ := runPieces_behind hcall hbehind₁ hblocks₁ hrest
        have hne := runPieces_blocks_ne_nil hcall hrest hblocks₁
        refine ⟨t', hrest', .inl ⟨?_, fun hnil => (hne hnil).elim, hbehind'⟩⟩
        -- Once there is a block, there is one at every later point.
        rintro ⟨before, after, mid, -, hmid, hmidblocks, -⟩
        exact runPieces_blocks_ne_nil hcall hmid hblocks₁ hmidblocks

end runs

/-! ### Documents behind other blocks -/

section documents

variable {m : Metadata} {front : List Block} {s t : Builder} {log : List LogEntry} {d : Document}
  {s' : Session}

theorem intoDocument_behind (h : Builder.Behind m front s t) (hown : s.blocks = [] → s.pending = [])
    (hrun : Build.intoDocument ⟨s, log⟩ = (.ok d, s')) :
    ∃ t', Build.intoDocument ⟨t, log⟩ = (.ok ⟨m.update d.metadata, front ++ d.content⟩, t') := by
  obtain ⟨hdrain, rfl⟩ := intoDocument_eq_ok_iff.mp hrun
  obtain ⟨t', hdrain', hbehind⟩ := h.drain hown hdrain
  refine ⟨_, intoDocument_eq_ok_iff.mpr ⟨hdrain', ?_⟩⟩
  rw [hbehind.metadata, hbehind.blocks]

theorem intoDocument_behind_first (h : Builder.Behind m (front ++ [.par []]) s t)
    (hblocks : s.blocks = []) (hpending : s.pending ≠ [])
    (hrun : Build.intoDocument ⟨s, log⟩ = (.ok d, s')) :
    ∃ t', Build.intoDocument ⟨t, log⟩ = (.ok ⟨m.update d.metadata, front ++ d.content⟩, t') := by
  obtain ⟨hdrain, rfl⟩ := intoDocument_eq_ok_iff.mp hrun
  obtain ⟨t', hdrain', hbehind⟩ := h.drain_first hblocks hpending hdrain
  refine ⟨_, intoDocument_eq_ok_iff.mpr ⟨hdrain', ?_⟩⟩
  rw [hbehind.metadata, hbehind.blocks]

end documents

/-! ### Sources -/

theorem evaluatePieces_eq_ok_iff {w : World Builtin} {pieces : List Piece} {d : Document} :
    (∃ s', evaluatePieces {} Builtin.library w pieces {} = (.ok d, s')) ↔ ∃ s s',
      w.run {} Builtin.library pieces {} = (.ok (), s) ∧ Build.intoDocument s = (.ok d, s') := by
  rw [evaluatePieces, bind_run]
  rcases w.run {} Builtin.library pieces {} with ⟨f | u, s⟩
  · refine iff_of_false ?_ ?_
    · rintro ⟨s', h⟩
      cases h
    · rintro ⟨s, s', h, -⟩
      cases h
  · dsimp only
    rw [Interpreter.finish_run, if_pos rfl, Eval.ofBuild, adapt_run, adapt_run]
    rcases hdocument : Build.intoDocument s with ⟨e | found, after⟩
    · refine iff_of_false ?_ ?_
      · rintro ⟨s', h⟩
        cases h
      · rintro ⟨s, s', h, hfound⟩
        cases h
        rw [hdocument] at hfound
        cases hfound
    · constructor
      · rintro ⟨s', h⟩
        cases h
        exact ⟨s, after, rfl, hdocument⟩
      · rintro ⟨s, s', h, hfound⟩
        cases h
        rw [hdocument] at hfound
        cases hfound
        exact ⟨after, rfl⟩

/-- What a source is evaluated to: its pieces are run on an empty builder, and that is finished. -/
theorem evaluateStandard_eq_ok_iff {source : Source} {maxDepth : Int} {d : Document} :
    (evaluateStandard source maxDepth).1 = .ok d ↔ ∃ pieces s s',
      readMarkup source source.span = .ok pieces ∧
        (standardWorld source maxDepth).run {} Builtin.library pieces {} = (.ok (), s) ∧
        Build.intoDocument s = (.ok d, s') := by
  cases hread : readMarkup source source.span with
  | error e =>
      rw [evaluateStandard_eq_of_error hread]
      simp
  | ok pieces =>
      have hpieces : (evaluateStandard source maxDepth).1 = .ok d ↔
          ∃ s', evaluatePieces {} Builtin.library (standardWorld source maxDepth) pieces {} =
            (.ok d, s') := by
        rw [evaluateStandard_eq hread]
        rcases evaluatePieces {} Builtin.library (standardWorld source maxDepth) pieces {} with
          ⟨f | found, s⟩
        · refine iff_of_false (fun h => ?_) ?_
          · cases h
          · rintro ⟨s', h⟩
            cases h
        · constructor
          · intro h
            cases h
            exact ⟨s, rfl⟩
          · rintro ⟨s', h⟩
            cases h
            rfl
      rw [hpieces, evaluatePieces_eq_ok_iff]
      simp

/-- The first thing that the source pushes is inline. -/
def Source.OpensInline (source : Source) (maxDepth : Int) : Prop :=
  ∃ pieces, readMarkup source source.span = .ok pieces ∧
    PushesInlineFirst ((standardWorld source maxDepth).call {} Builtin.library) pieces {}

theorem standardWorld_depth_lt (source : Source) {maxDepth : Int} (hroom : 1 ≤ maxDepth) :
    (standardWorld source maxDepth).depth < (standardWorld source maxDepth).maxDepth := by
  change (0 : Int) < maxDepth
  omega

/-- The paragraph command pushes an empty paragraph. -/
theorem parCall_run {w : World Builtin} {c : Call}
    (hpar : w.scope.find? parCommand = some ⟨parCommand, .par, .markup⟩)
    (hroom : w.depth < w.maxDepth) (hname : c.name.fragment = parCommand) (hargs : c.args = [])
    (s : Session) : ∃ f told, w.call {} Builtin.library c s =
      ExceptT.adapt f (Build.pushBlock (.par [])) { s with log := s.log ++ told } := by
  have hfind : w.scope.find? c.name.fragment = some ⟨parCommand, .par, .markup⟩ := by
    rw [hname, hpar]
  have hread : Args.read .markup w.source c.args = .ok {} := by
    rw [hargs]
    rfl
  have hbind : Builtin.library.invoke .par {} =
      .ok ({ body := fun _ => Eval.pushBlock (.par []) }, {}) := by
    rw [Builtin.library_invoke]
    rfl
  have hfound := World.found_eq_ok hfind hread hbind
  obtain ⟨levels, hlevels⟩ : ∃ levels, (w.maxDepth - w.depth).toNat = levels + 1 :=
    ⟨(w.maxDepth - w.depth).toNat - 1, by omega⟩
  refine ⟨fun e => w.settle c (.ofBuild e), w.tells c, ?_⟩
  rw [World.call, hlevels, World.callWithin_succ, World.callBody_run, hfound]
  dsimp only
  rw [adapt_run, adapt_run, Eval.pushBlock, Eval.push, Eval.ofBuild, adapt_run, Build.push]
  rcases Build.pushBlock (.par []) { s with log := s.log ++ w.tells c } with ⟨e | u, after⟩ <;> rfl

/-- A finished first part and a paragraph break leave an empty paragraph behind the first part. -/
theorem parCall_behind (w : World Builtin) (c : Call) (hscope : w.scope = standardScope)
    (hroom : w.depth < w.maxDepth) (hname : c.name.fragment = parCommand) (hargs : c.args = [])
    {b : Builder} {log : List LogEntry} {d : Document} {s' : Session}
    (h : Build.intoDocument ⟨b, log⟩ = (.ok d, s')) (log' : List LogEntry) :
    ∃ t last, w.call {} Builtin.library c ⟨b, log'⟩ = (.ok (), ⟨t, last⟩) ∧
      Builder.Behind d.metadata (d.content ++ [.par []]) {} t := by
  obtain ⟨hdrain, rfl⟩ := intoDocument_eq_ok_iff.mp h
  obtain ⟨f, told, hcall⟩ := parCall_run (by rw [hscope]; rfl) hroom hname hargs ⟨b, log'⟩
  obtain ⟨last, hdrain'⟩ := Build.quiet_drain.run_of_ok hdrain (log' ++ told)
  rw [adapt_run, pushBlock_run, hdrain'] at hcall
  refine ⟨_, last, hcall, rfl, List.nodup_nil, ?_, ?_⟩
  · rw [List.append_nil]
  · exact Build.pending_of_drain hdrain'

/-- Pieces of the same words do the same in any source, whatever has been told before. -/
theorem standardWorld_run_of_wording {source : Source} (source' : Source) {maxDepth : Int}
    {ps qs : List Piece} (hwords : ps.map Piece.wording = qs.map Piece.wording) {b : Builder}
    {log : List LogEntry} {s : Session}
    (hrun : (standardWorld source maxDepth).run {} Builtin.library ps ⟨b, log⟩ = (.ok (), s))
    (log' : List LogEntry) :
    ∃ last, (standardWorld source' maxDepth).run {} Builtin.library qs ⟨b, log'⟩ =
      (.ok (), ⟨s.builder, last⟩) := by
  have hrepeats : Repeats ((standardWorld source maxDepth).run {} Builtin.library ps)
      ((standardWorld source' maxDepth).run {} Builtin.library qs) :=
    run_repeats (standardWorld source maxDepth) (standardWorld source' maxDepth) rfl rfl rfl hwords
  exact hrepeats ⟨b, log⟩ () s hrun log'

/-- The pieces of two texts with a paragraph command between them. -/
theorem run_append_break {source source' : Source} {maxDepth : Int} (hroom : 1 ≤ maxDepth)
    {ps qs : List Piece} {s s₁ s' s₁' : Session} {d d' : Document}
    (hrun : (standardWorld source maxDepth).run {} Builtin.library ps {} = (.ok (), s))
    (hdocument : Build.intoDocument s = (.ok d, s₁))
    (hrun' : (standardWorld source' maxDepth).run {} Builtin.library qs {} = (.ok (), s'))
    (hdocument' : Build.intoDocument s' = (.ok d', s₁')) (c : Call)
    (hname : c.name.fragment = parCommand) (hargs : c.args = []) :
    ∃ t t' gap, (standardWorld source' maxDepth).run {} Builtin.library (ps ++ .call c :: qs) {} =
        (.ok (), t) ∧
      Build.intoDocument t =
        (.ok ⟨d.metadata.update d'.metadata, d.content ++ gap ++ d'.content⟩, t') ∧
      (PushesInlineFirst ((standardWorld source' maxDepth).call {} Builtin.library) qs {} →
        gap = []) ∧
      (¬ PushesInlineFirst ((standardWorld source' maxDepth).call {} Builtin.library) qs {} →
        gap = [.par []]) := by
  have hcall : ∀ c log, ((standardWorld source' maxDepth).call {} Builtin.library c).AddsOne log :=
    fun c log => callWithin_addsOne _ _ c log
  -- The first text in the world of the second, and the break behind it.
  obtain ⟨log, hfirst⟩ := standardWorld_run_of_wording source' rfl hrun []
  obtain ⟨t₀, log₀, hpar, hbehind⟩ := parCall_behind (standardWorld source' maxDepth) c rfl
    (standardWorld_depth_lt source' hroom) hname hargs hdocument log
  -- The second text, first with the log it has alone and then with that of the first text.
  obtain ⟨t, hsecond, hcases⟩ := runPieces_behind_break hcall hbehind rfl rfl hrun'
  obtain ⟨last, hsecond'⟩ := standardWorld_run_of_wording source' rfl hsecond log₀
  have hall : (standardWorld source' maxDepth).run {} Builtin.library (ps ++ .call c :: qs) {} =
      (.ok (), ⟨t, last⟩) := by
    rw [World.run, runPieces_append hfirst, runPieces_cons, bind_run, runPiece, hpar]
    exact hsecond'
  have hfinish : ∀ gap, (∃ t', Build.intoDocument ⟨t, s'.log⟩ =
      (.ok ⟨d.metadata.update d'.metadata, d.content ++ gap ++ d'.content⟩, t')) →
      ∃ t', Build.intoDocument ⟨t, last⟩ =
        (.ok ⟨d.metadata.update d'.metadata, d.content ++ gap ++ d'.content⟩, t') := by
    rintro gap ⟨t', h⟩
    obtain ⟨told, h'⟩ := Build.quiet_intoDocument.run_of_ok h last
    exact ⟨_, h'⟩
  rcases hcases with ⟨hblock, hown, hbehind'⟩ | ⟨hinline, hcases⟩
  · obtain ⟨t', hdone⟩ := hfinish [.par []] (intoDocument_behind hbehind' hown hdocument')
    exact ⟨_, t', [.par []], hall, hdone, fun hinline => (hblock hinline).elim, fun _ => rfl⟩
  · have hbehind' : ∃ t', Build.intoDocument ⟨t, s'.log⟩ =
        (.ok ⟨d.metadata.update d'.metadata, d.content ++ d'.content⟩, t') := by
      rcases hcases with ⟨hblocks, hpending, hbehind'⟩ | ⟨hne, hbehind'⟩
      · exact intoDocument_behind_first hbehind' hblocks hpending hdocument'
      · exact intoDocument_behind hbehind' (fun hnil => (hne hnil).elim) hdocument'
    obtain ⟨t', hdone⟩ := hfinish [] (by rw [List.append_nil]; exact hbehind')
    exact ⟨_, t', [], hall, hdone, fun _ => rfl, fun hblock => (hblock hinline).elim⟩

/-- Two texts with a paragraph break between them are evaluated to their documents, one after the
other, and an empty paragraph in between unless the second text opens with inline content. -/
theorem evaluateStandard_append_breaks {source source' : Source} (joined : Source)
    {maxDepth : Int} {d d' : Document} {ends : List Newline} (hroom : 1 ≤ maxDepth)
    (h : (evaluateStandard source maxDepth).1 = .ok d)
    (h' : (evaluateStandard source' maxDepth).1 = .ok d')
    (hend : source.text.toList.getLast? ≠ some '\n') (hstart : NoBreak source'.text.toList)
    (hmany : 2 ≤ ends.length) (hjoined : joined.text.toList =
      source.text.toList ++ (ends.flatMap Newline.chars ++ source'.text.toList)) :
    ∃ gap, (evaluateStandard joined maxDepth).1 =
        .ok ⟨d.metadata.update d'.metadata, d.content ++ gap ++ d'.content⟩ ∧
      (source'.OpensInline maxDepth → gap = []) ∧
      (¬ source'.OpensInline maxDepth → gap = [.par []]) := by
  obtain ⟨ps, s, s₁, hread, hrun, hdocument⟩ := evaluateStandard_eq_ok_iff.mp h
  obtain ⟨qs, s', s₁', hread', hrun', hdocument'⟩ := evaluateStandard_eq_ok_iff.mp h'
  obtain ⟨pieces, hjoint, hwords⟩ :=
    readMarkup_append_breaks hread hread' hend hstart hmany hjoined
  obtain ⟨t, t', gap, hall, hdone, hinline, hblock⟩ :=
    run_append_break hroom hrun hdocument hrun' hdocument' ⟨Source.parSpan default, []⟩ rfl rfl
  obtain ⟨last, hall'⟩ := standardWorld_run_of_wording joined hwords hall []
  obtain ⟨told, hdone'⟩ := Build.quiet_intoDocument.run_of_ok hdone last
  have hopens : source'.OpensInline maxDepth ↔
      PushesInlineFirst ((standardWorld source' maxDepth).call {} Builtin.library) qs {} := by
    constructor
    · rintro ⟨found, hfound, hinline⟩
      rw [hread'] at hfound
      cases hfound
      exact hinline
    · intro hinline
      exact ⟨qs, hread', hinline⟩
  rw [hopens]
  exact ⟨gap, evaluateStandard_eq_ok_iff.mpr ⟨pieces, _, _, hjoint, hall', hdone'⟩, hinline, hblock⟩

/-- **Paragraph breaks make evaluation compositional.** -/
theorem evaluateStandard_paragraphs (a b : String) (maxDepth : Int) (hroom : 1 ≤ maxDepth)
    (d d' : Document) (ha : (evaluateStandard { text := a } maxDepth).1 = .ok d)
    (hb : (evaluateStandard { text := b } maxDepth).1 = .ok d')
    (hend : a.toList.getLast? ≠ some '\n') (hstart : NoBreak b.toList) :
    ∃ joined, (evaluateStandard { text := a ++ "\n\n" ++ b } maxDepth).1 = .ok joined ∧
      joined.metadata = d.metadata.update d'.metadata ∧
      (Source.OpensInline { text := b } maxDepth → joined.content = d.content ++ d'.content) ∧
      (¬ Source.OpensInline { text := b } maxDepth →
        joined.content = d.content ++ .par [] :: d'.content) := by
  have hmany : 2 ≤ [Newline.lf, Newline.lf].length := Nat.le_refl 2
  have hjoined : (a ++ "\n\n" ++ b).toList =
      a.toList ++ ([Newline.lf, Newline.lf].flatMap Newline.chars ++ b.toList) := by
    rw [String.toList_append, String.toList_append, List.append_assoc]
    rfl
  obtain ⟨gap, hjoint, hinline, hblock⟩ :=
    evaluateStandard_append_breaks { text := a ++ "\n\n" ++ b } hroom ha hb hend hstart hmany
      hjoined
  refine ⟨_, hjoint, rfl, fun h => ?_, fun h => ?_⟩
  · rw [hinline h, List.append_nil]
  · rw [hblock h, List.append_assoc, List.singleton_append]

set_option maxRecDepth 2000 in
/-- Behind `x\meta{k=1}` the text `\meta{k=2}\rule` opens with a block, and replaces the value of
the key. -/
theorem evaluateStandard_paragraphs_rule :
    ¬ Source.OpensInline { text := "\\meta\x7bk=2\x7d\\rule" } 1 ∧
      (evaluateStandard { text := "x\\meta\x7bk=1\x7d" ++ "\n\n" ++
        "\\meta\x7bk=2\x7d\\rule" } 1).1 =
          .ok ⟨[("k", "2")], [.par [.text "x"], .par [], .rule]⟩ := by
  have ha : (evaluateStandard { text := "x\\meta\x7bk=1\x7d" } 1).1 =
      .ok ⟨[("k", "1")], [.par [.text "x"]]⟩ := by cbv
  have hb : (evaluateStandard { text := "\\meta\x7bk=2\x7d\\rule" } 1).1 =
      .ok ⟨[("k", "2")], [.rule]⟩ := by cbv
  have hjoined : (evaluateStandard { text := "x\\meta\x7bk=1\x7d" ++ "\n\n" ++
      "\\meta\x7bk=2\x7d\\rule" } 1).1 =
        .ok ⟨[("k", "2")], [.par [.text "x"], .par [], .rule]⟩ := by cbv
  have hstart : NoBreak "\\meta\x7bk=2\x7d\\rule".toList := by
    intro e
    cases e <;> decide
  obtain ⟨joined, heval, -, hinline, -⟩ :=
    evaluateStandard_paragraphs _ _ 1 (Int.le_refl 1) _ _ ha hb (by decide) hstart
  rw [hjoined] at heval
  cases heval
  refine ⟨fun hopens => ?_, hjoined⟩
  have hlength := congrArg List.length (hinline hopens)
  cases hlength

end Markup
