import Markup.Proofs.Doc.Behind
import Markup.Proofs.Doc.Conservation
import Markup.Proofs.Doc.Kinds

/-! # Draining early does not show

A builder that is drained before it has to be gives the same blocks in the end as one that is not,
and fails if that one does, as long as no table is pushed (`build_early`).  A table is different,
since it takes one run and drops the next.

Away from tables, draining a run in two pieces comes to draining it whole
(`absorbBlocks_append_run`), whatever the last block is: what takes a run still takes the rest of
it.  So a builder that was drained early has put down the first part of a run that the other one
still has pending (`Ahead`), and every push keeps this up, until a block is pushed and both are even
again. -/

namespace Markup

/-! ### Draining piece by piece -/

/-- Draining once more into what was drained into before. -/
def Absorbed.andThen {α β : Type} (a : Absorbed α) (next : α → Absorbed β) : Absorbed β :=
  match a with
  | .error e => .error e
  | .ok (tree, log) =>
    match next tree with
    | .error e => .error e
    | .ok (drained, more) => .ok (drained, log ++ more)

/-- Inside a part of a tree, or with the part in its place. -/
theorem Absorbed.rebuild_andThen {α β : Type} {f : α → β} {a : Absorbed α}
    {next : β → Absorbed β} {inner : α → Absorbed α}
    (h : ∀ tree log, a = .ok (tree, log) → next (f tree) = (inner tree).rebuild f) :
    (a.rebuild f).andThen next = (a.andThen inner).rebuild f := by
  rcases a with e | ⟨tree, log⟩
  · rfl
  · have hnext := h tree log rfl
    change (match next (f tree) with
      | .error e => .error e
      | .ok (drained, more) => .ok (drained, log ++ more) : Absorbed β) = _
    rw [hnext, andThen]
    rcases inner tree with e | ⟨drained, more⟩ <;> rfl

/-- A part that took a run is put back where it was. -/
theorem Absorbed.exists_of_rebuild {α β : Type} {f : α → β} {a : Absorbed α} {tree : β}
    {log : List LogEntry} (h : a.rebuild f = .ok (tree, log)) :
    ∃ part, a = .ok (part, log) ∧ tree = f part := by
  rcases a with e | ⟨part, told⟩
  · cases h
  · cases h
    exact ⟨part, rfl, rfl⟩

theorem Absorbed.eq_error_of_rebuild {α β : Type} {f : α → β} {a : Absorbed α} {e : BuildError}
    (h : a.rebuild f = .error e) : a = .error e := by
  cases a with
  | error e' =>
      cases h
      rfl
  | ok part => cases h

section nonempty

variable {run : List Inline} {log : List LogEntry}

theorem ne_nil_of_absorbBlock {b : Block} {bs : List Block}
    (h : absorbBlock run b = .ok (bs, log)) : bs ≠ [] := by
  cases b with
  | blockQuote content | tagged content metadata | defn kind content | list kind items
  | termList items | table columns rows =>
      rw [absorbBlock] at h
      obtain ⟨part, -, rfl⟩ := Absorbed.exists_of_rebuild h
      exact List.cons_ne_nil _ _
  | _ =>
      rw [absorbBlock] at h
      cases h
      exact List.cons_ne_nil _ _

/-- There is a block to drain the next run into. -/
theorem ne_nil_of_absorbBlocks {bs drained : List Block}
    (h : absorbBlocks run bs = .ok (drained, log)) : drained ≠ [] := by
  match bs, h with
  | [], h =>
      rw [absorbBlocks] at h
      cases h
      exact List.cons_ne_nil _ _
  | [b], h => exact ne_nil_of_absorbBlock h
  | b :: c :: rest, h =>
      rw [absorbBlocks] at h
      obtain ⟨part, -, rfl⟩ := Absorbed.exists_of_rebuild h
      exact List.cons_ne_nil _ _

theorem ne_nil_of_absorbItems {items drained : List ListItem}
    (h : absorbItems run items = .ok (drained, log)) : drained ≠ [] := by
  match items, h with
  | [], h =>
      rw [absorbItems] at h
      cases h
      exact List.cons_ne_nil _ _
  | [.mk content label], h | .mk content label :: item :: rest, h =>
      rw [absorbItems] at h
      obtain ⟨part, -, rfl⟩ := Absorbed.exists_of_rebuild h
      exact List.cons_ne_nil _ _

theorem ne_nil_of_absorbTerms {items drained : List TermItem}
    (h : absorbTerms run items = .ok (drained, log)) : drained ≠ [] := by
  match items, h with
  | [.mk term content], h | .mk term content :: item :: rest, h =>
      rw [absorbTerms] at h
      obtain ⟨part, -, rfl⟩ := Absorbed.exists_of_rebuild h
      exact List.cons_ne_nil _ _

end nonempty

section pieces

variable {first second : List Inline}

theorem absorbBlocks_cons (run : List Inline) (b : Block) {rest : List Block} (hne : rest ≠ []) :
    absorbBlocks run (b :: rest) = (absorbBlocks run rest).rebuild (b :: ·) := by
  obtain ⟨c, more, rfl⟩ := List.exists_cons_of_ne_nil hne
  rw [absorbBlocks]

theorem absorbItems_cons (run : List Inline) (content : List Block) (label : Option (List Inline))
    {rest : List ListItem} (hne : rest ≠ []) :
    absorbItems run (.mk content label :: rest) =
      (absorbItems run rest).rebuild (.mk content label :: ·) := by
  obtain ⟨item, more, rfl⟩ := List.exists_cons_of_ne_nil hne
  rw [absorbItems]

theorem absorbTerms_cons (run : List Inline) (term : List Inline) (content : List Block)
    {rest : List TermItem} (hne : rest ≠ []) :
    absorbTerms run (.mk term content :: rest) =
      (absorbTerms run rest).rebuild (.mk term content :: ·) := by
  obtain ⟨item, more, rfl⟩ := List.exists_cons_of_ne_nil hne
  rw [absorbTerms]

mutual

/-- **A run may be drained in pieces**, where there is no table. -/
theorem absorbBlocks_append_run : ∀ bs : List Block, .table ∉ blocksKinds bs →
    absorbBlocks (first ++ second) bs = (absorbBlocks first bs).andThen (absorbBlocks second)
  | [], _ => by
      rw [absorbBlocks, absorbBlocks]
      rfl
  | [b], h => absorbBlock_append_run b fun hb => h (List.mem_append_left _ hb)
  | b :: c :: rest, h => by
      have hrest := absorbBlocks_append_run (c :: rest) fun hc => h (List.mem_append_right _ hc)
      rw [absorbBlocks, absorbBlocks, hrest]
      refine (Absorbed.rebuild_andThen fun drained log hdrained => ?_).symm
      exact absorbBlocks_cons second b (ne_nil_of_absorbBlocks hdrained)

theorem absorbBlock_append_run : ∀ b : Block, .table ∉ b.kinds →
    absorbBlock (first ++ second) b = (absorbBlock first b).andThen (absorbBlocks second)
  | .plain content, _ | .par content, _ | .codeBlock _ content, _ | .heading _ content, _
  | .figure _ content, _ => by
      rw [absorbBlock, absorbBlock, ← List.append_assoc]
      rfl
  | .rule, _ | .mathBlock _, _ | .foreign _, _ => by
      rw [absorbBlock, absorbBlock]
      rfl
  | .blockQuote content, h | .tagged content _, h | .defn _ content, h => by
      have hcontent := absorbBlocks_append_run content fun hc => h (List.mem_cons_of_mem _ hc)
      rw [absorbBlock, absorbBlock, hcontent]
      refine (Absorbed.rebuild_andThen fun drained log _ => ?_).symm
      rw [absorbBlocks, absorbBlock]
  | .list _ items, h => by
      have hitems := absorbItems_append_run items fun hc => h (List.mem_cons_of_mem _ hc)
      rw [absorbBlock, absorbBlock, hitems]
      refine (Absorbed.rebuild_andThen fun drained log _ => ?_).symm
      rw [absorbBlocks, absorbBlock]
  | .termList items, h => by
      have hitems := absorbTerms_append_run items fun hc => h (List.mem_cons_of_mem _ hc)
      rw [absorbBlock, absorbBlock, hitems]
      refine (Absorbed.rebuild_andThen fun drained log _ => ?_).symm
      rw [absorbBlocks, absorbBlock]
  | .table _ _, h => (h List.mem_cons_self).elim

theorem absorbItems_append_run : ∀ items : List ListItem, .table ∉ itemsKinds items →
    absorbItems (first ++ second) items = (absorbItems first items).andThen (absorbItems second)
  | [], _ => by
      rw [absorbItems, absorbItems]
      rfl
  | [.mk content label], h => by
      have hcontent := absorbBlocks_append_run content fun hc => h (List.mem_append_left _ hc)
      rw [absorbItems, absorbItems, hcontent]
      refine (Absorbed.rebuild_andThen fun drained log _ => ?_).symm
      rw [absorbItems]
  | .mk content label :: item :: rest, h => by
      have hrest := absorbItems_append_run (item :: rest) fun hc =>
        h (List.mem_append_right _ (List.mem_append_right _ hc))
      rw [absorbItems, absorbItems, hrest]
      refine (Absorbed.rebuild_andThen fun drained log hdrained => ?_).symm
      exact absorbItems_cons second content label (ne_nil_of_absorbItems hdrained)

theorem absorbTerms_append_run : ∀ items : List TermItem, .table ∉ termsKinds items →
    absorbTerms (first ++ second) items = (absorbTerms first items).andThen (absorbTerms second)
  | [], _ => by
      rw [absorbTerms, absorbTerms]
      rfl
  | [.mk term content], h => by
      have hcontent := absorbBlocks_append_run content fun hc =>
        h (List.mem_append_right _ (List.mem_append_left _ hc))
      rw [absorbTerms, absorbTerms, hcontent]
      refine (Absorbed.rebuild_andThen fun drained log _ => ?_).symm
      rw [absorbTerms]
  | .mk term content :: item :: rest, h => by
      have hrest := absorbTerms_append_run (item :: rest) fun hc =>
        h (List.mem_append_right _ (List.mem_append_right _ hc))
      rw [absorbTerms, absorbTerms, hrest]
      refine (Absorbed.rebuild_andThen fun drained log hdrained => ?_).symm
      exact absorbTerms_cons second term content (ne_nil_of_absorbTerms hdrained)

end

end pieces

/-- The last block, if there is one, has no table in it. -/
def LastTableFree (bs : List Block) : Prop := ∀ b ∈ bs.getLast?, .table ∉ b.kinds

theorem lastTableFree_nil : LastTableFree [] := fun _ h => by cases h

theorem lastTableFree_concat {bs : List Block} {b : Block} (h : .table ∉ b.kinds) :
    LastTableFree (bs ++ [b]) := by
  intro c hc
  rw [List.getLast?_concat] at hc
  cases hc
  exact h

/-- Only the last block matters for whether a run may be drained in pieces. -/
theorem LastTableFree.absorbBlocks_append_run {bs : List Block} (h : LastTableFree bs)
    (first second : List Inline) :
    absorbBlocks (first ++ second) bs = (absorbBlocks first bs).andThen (absorbBlocks second) := by
  rcases List.eq_nil_or_concat bs with rfl | ⟨front, b, rfl⟩
  · exact Markup.absorbBlocks_append_run [] List.not_mem_nil
  · rw [List.concat_eq_append] at h ⊢
    have hb : .table ∉ blocksKinds [b] := by
      have hlast := h b (by rw [List.getLast?_concat]; rfl)
      simpa [blocksKinds] using hlast
    have hne : [b] ≠ [] := List.cons_ne_nil _ _
    rw [absorbBlocks_append _ hne, absorbBlocks_append _ hne, Markup.absorbBlocks_append_run [b] hb]
    refine (Absorbed.rebuild_andThen fun drained log hdrained => ?_).symm
    exact absorbBlocks_append second (ne_nil_of_absorbBlocks hdrained) front

mutual

/-- There is one reason for which a run finds no place. -/
theorem absorbBlocks_eq_error {run : List Inline} {e : BuildError} : ∀ bs : List Block,
    absorbBlocks run bs = .error e → e = .emptyTermList
  | [], h => by
      rw [absorbBlocks] at h
      cases h
  | [b], h => absorbBlock_eq_error b h
  | b :: c :: rest, h => by
      rw [absorbBlocks] at h
      exact absorbBlocks_eq_error (c :: rest) (Absorbed.eq_error_of_rebuild h)

theorem absorbBlock_eq_error {run : List Inline} {e : BuildError} : ∀ b : Block,
    absorbBlock run b = .error e → e = .emptyTermList
  | .plain _, h | .par _, h | .codeBlock _ _, h | .heading _ _, h | .figure _ _, h | .rule, h
  | .mathBlock _, h | .foreign _, h => by
      rw [absorbBlock] at h
      cases h
  | .blockQuote content, h | .tagged content _, h | .defn _ content, h => by
      rw [absorbBlock] at h
      exact absorbBlocks_eq_error content (Absorbed.eq_error_of_rebuild h)
  | .list _ items, h => by
      rw [absorbBlock] at h
      exact absorbItems_eq_error items (Absorbed.eq_error_of_rebuild h)
  | .termList items, h => by
      rw [absorbBlock] at h
      exact absorbTerms_eq_error items (Absorbed.eq_error_of_rebuild h)
  | .table columns rows, h => by
      rw [absorbBlock] at h
      have htable := Absorbed.eq_error_of_rebuild h
      unfold absorbTable at htable
      split at htable <;> cases htable

theorem absorbItems_eq_error {run : List Inline} {e : BuildError} : ∀ items : List ListItem,
    absorbItems run items = .error e → e = .emptyTermList
  | [], h => by
      rw [absorbItems] at h
      cases h
  | [.mk content label], h => by
      rw [absorbItems] at h
      exact absorbBlocks_eq_error content (Absorbed.eq_error_of_rebuild h)
  | .mk content label :: item :: rest, h => by
      rw [absorbItems] at h
      exact absorbItems_eq_error (item :: rest) (Absorbed.eq_error_of_rebuild h)

theorem absorbTerms_eq_error {run : List Inline} {e : BuildError} : ∀ items : List TermItem,
    absorbTerms run items = .error e → e = .emptyTermList
  | [], h => by
      rw [absorbTerms] at h
      cases h
      rfl
  | [.mk term content], h => by
      rw [absorbTerms] at h
      exact absorbBlocks_eq_error content (Absorbed.eq_error_of_rebuild h)
  | .mk term content :: item :: rest, h => by
      rw [absorbTerms] at h
      exact absorbTerms_eq_error (item :: rest) (Absorbed.eq_error_of_rebuild h)

end

/-! ### Two builders -/

/-- The second builder holds what the first one does, but may have drained the first part of a run
that is still pending in the first one. -/
inductive Builder.Ahead (s t : Builder) : Prop
  | even (hblocks : t.blocks = s.blocks) (hpending : t.pending = s.pending)
  | early (run : List Inline) (log : List LogEntry) (hne : run ≠ [])
      (habsorb : absorbBlocks run s.blocks = .ok (t.blocks, log))
      (hpending : s.pending = run ++ t.pending)

/-- A builder, and another one that may be ahead of it. -/
structure Session.Ahead (s t : Session) : Prop where
  last : LastTableFree s.builder.blocks
  builder : s.builder.Ahead t.builder

/-- What is pending will find no place. -/
structure Session.Doomed (s : Session) : Prop where
  last : LastTableFree s.builder.blocks
  pending : s.builder.pending ≠ []
  absorb : absorbBlocks s.builder.pending s.builder.blocks = .error .emptyTermList

/-- Two outcomes of a step agree: it fails for the same reason, or returns what `R` relates. -/
def AgreeUpTo (R : Session → Session → Prop) (x y : Except BuildFailure Unit × Session) : Prop :=
  match x, y with
  | (.ok _, s), (.ok _, t) => R s t
  | (.error e, _), (.error e', _) => e = e'
  | _, _ => False

/-- Two builders with the same content. -/
def Session.Even (s t : Session) : Prop :=
  t.builder.blocks = s.builder.blocks ∧ t.builder.pending = s.builder.pending

section ahead

variable {s t : Session}

theorem drain_of_pending_nil (h : s.builder.pending = []) : Build.drain s = (.ok (), s) := by
  obtain ⟨b, log⟩ := s
  rw [Build.drain_run, if_pos (List.isEmpty_iff.mpr h)]

theorem drain_of_absorb_ok {blocks : List Block} {told : List LogEntry}
    (hne : s.builder.pending ≠ [])
    (h : absorbBlocks s.builder.pending s.builder.blocks = .ok (blocks, told)) :
    Build.drain s = (.ok (), ⟨⟨s.builder.metadata, blocks, []⟩, s.log ++ told⟩) := by
  obtain ⟨b, log⟩ := s
  rw [Build.drain_run, if_neg fun hnil => hne (List.isEmpty_iff.mp hnil)]
  dsimp only at h
  rw [h]

theorem drain_of_absorb_error {e : BuildError} (hne : s.builder.pending ≠ [])
    (h : absorbBlocks s.builder.pending s.builder.blocks = .error e) :
    Build.drain s = (.error (.build e), ⟨{ s.builder with pending := [] }, s.log⟩) := by
  obtain ⟨b, log⟩ := s
  rw [Build.drain_run, if_neg fun hnil => hne (List.isEmpty_iff.mp hnil)]
  dsimp only at h
  rw [h]

/-- What both have pending is drained to the same blocks, or in neither. -/
theorem drain_ahead (h : s.Ahead t) : AgreeUpTo Session.Even (Build.drain s) (Build.drain t) := by
  obtain ⟨hlast, ⟨hblocks, hpending⟩ | ⟨run, log, hne, habsorb, hpending⟩⟩ := h
  · by_cases hnil : s.builder.pending = []
    · rw [drain_of_pending_nil hnil, drain_of_pending_nil (hpending.trans hnil)]
      exact ⟨hblocks, hpending⟩
    · have hnil' : t.builder.pending ≠ [] := hpending ▸ hnil
      cases hdrain : absorbBlocks s.builder.pending s.builder.blocks with
      | error e =>
          rw [drain_of_absorb_error hnil hdrain,
            drain_of_absorb_error hnil' (by rw [hpending, hblocks, hdrain])]
          rfl
      | ok drained =>
          rw [drain_of_absorb_ok hnil hdrain,
            drain_of_absorb_ok hnil' (by rw [hpending, hblocks, hdrain])]
          exact ⟨rfl, rfl⟩
  · have hwhole := hlast.absorbBlocks_append_run run t.builder.pending
    have hnil : s.builder.pending ≠ [] := by
      rw [hpending]
      exact List.append_ne_nil_of_left_ne_nil hne _
    by_cases hdone : t.builder.pending = []
    · rw [hdone, List.append_nil] at hpending
      rw [drain_of_absorb_ok hnil (by rw [hpending, habsorb]), drain_of_pending_nil hdone]
      exact ⟨rfl, hdone⟩
    · rw [← hpending, habsorb, Absorbed.andThen] at hwhole
      cases hdrain : absorbBlocks t.builder.pending t.builder.blocks with
      | error e =>
          rw [hdrain] at hwhole
          rw [drain_of_absorb_error hnil hwhole, drain_of_absorb_error hdone hdrain]
          rfl
      | ok drained =>
          rw [hdrain] at hwhole
          rw [drain_of_absorb_ok hnil hwhole, drain_of_absorb_ok hdone hdrain]
          exact ⟨rfl, rfl⟩

/-- Draining the second builder alone leaves it ahead, or shows that the first one is doomed. -/
theorem drain_early (h : s.Ahead t) :
    Ensures Build.drain t (fun _ t' => s.Ahead t')
      (fun f => f = .build .emptyTermList ∧ s.Doomed) := by
  unfold Ensures
  by_cases hdone : t.builder.pending = []
  · rw [drain_of_pending_nil hdone]
    exact h
  · obtain ⟨hlast, ⟨hblocks, hpending⟩ | ⟨run, log, hne, habsorb, hpending⟩⟩ := h
    · cases hdrain : absorbBlocks t.builder.pending t.builder.blocks with
      | error e =>
          obtain rfl := absorbBlocks_eq_error _ hdrain
          rw [drain_of_absorb_error hdone hdrain]
          rw [hpending, hblocks] at hdrain
          exact ⟨rfl, hlast, hpending ▸ hdone, hdrain⟩
      | ok drained =>
          rw [drain_of_absorb_ok hdone hdrain]
          rw [hblocks] at hdrain
          refine ⟨hlast, .early t.builder.pending drained.2 hdone hdrain ?_⟩
          rw [List.append_nil, hpending]
    · have hwhole := hlast.absorbBlocks_append_run run t.builder.pending
      rw [← hpending, habsorb, Absorbed.andThen] at hwhole
      have hnil : s.builder.pending ≠ [] := by
        rw [hpending]
        exact List.append_ne_nil_of_left_ne_nil hne _
      cases hdrain : absorbBlocks t.builder.pending t.builder.blocks with
      | error e =>
          obtain rfl := absorbBlocks_eq_error _ hdrain
          rw [hdrain] at hwhole
          rw [drain_of_absorb_error hdone hdrain]
          exact ⟨rfl, hlast, hnil, hwhole⟩
      | ok drained =>
          rw [hdrain] at hwhole
          rw [drain_of_absorb_ok hdone hdrain]
          exact ⟨hlast, .early s.builder.pending _ hnil hwhole (List.append_nil _).symm⟩

end ahead

/-! ### Pushing -/

/-- No block that is pushed has a table in it. -/
def Element.TableFree (e : Element) : Prop := ∀ value, .block value ∈ e.acts → .table ∉ value.kinds

theorem tableFree_of_seq {elements : List Element} (h : (Element.seq elements).TableFree) :
    ∀ e ∈ elements, e.TableFree := by
  intro e he value hvalue
  refine h value ?_
  rw [Element.acts]
  induction elements with
  | nil => cases he
  | cons first rest ih =>
      rw [elementsActs]
      rcases List.mem_cons.mp he with rfl | hrest
      · exact List.mem_append_left _ hvalue
      · refine List.mem_append_right _ (ih ?_ hrest)
        intro value hvalue
        refine h value ?_
        rw [Element.acts, elementsActs]
        exact List.mem_append_right _ hvalue

theorem AgreeUpTo.bind {R S : Session → Session → Prop} {x : Build Unit} {f : Unit → Build Unit}
    {s t : Session} (h : AgreeUpTo R (x s) (x t))
    (hnext : ∀ s' t', R s' t' → AgreeUpTo S (f () s') (f () t')) :
    AgreeUpTo S ((x >>= f) s) ((x >>= f) t) := by
  rw [bind_run, bind_run]
  rcases hx : x s with ⟨e | u, s'⟩
  · rw [hx] at h
    rcases hy : x t with ⟨e' | u', t'⟩
    · rw [hy] at h
      exact h
    · rw [hy] at h
      exact h.elim
  · rw [hx] at h
    rcases hy : x t with ⟨e' | u', t'⟩
    · rw [hy] at h
      exact h.elim
    · rw [hy] at h
      exact hnext s' t' h

section push

variable {s t : Session}

theorem pushInline_ahead (i : Inline) (h : s.Ahead t) :
    AgreeUpTo Session.Ahead (Build.pushInline i s) (Build.pushInline i t) := by
  obtain ⟨hlast, ⟨hblocks, hpending⟩ | ⟨run, log, hne, habsorb, hpending⟩⟩ := h
  · exact ⟨hlast, .even hblocks (congrArg (· ++ [i]) hpending)⟩
  · refine ⟨hlast, .early run log hne habsorb ?_⟩
    rw [← List.append_assoc, ← hpending]

/-- Behind a block both are even. -/
theorem pushBlock_ahead {value : Block} (hvalue : .table ∉ value.kinds) (h : s.Ahead t) :
    AgreeUpTo Session.Ahead (Build.pushBlock value s) (Build.pushBlock value t) := by
  refine (drain_ahead h).bind fun s' t' heven => ?_
  exact ⟨lastTableFree_concat hvalue, .even (congrArg (· ++ [value]) heven.1) heven.2⟩

mutual

/-- A push does the same to both. -/
theorem push_ahead : ∀ (e : Element) {s t : Session}, e.TableFree → s.Ahead t →
    AgreeUpTo Session.Ahead (Build.push e s) (Build.push e t)
  | .text _, _, _, _, h | .span _, _, _, _, h | .inline _, _, _, _, h => by
      rw [Build.push]
      exact pushInline_ahead _ h
  | .block value, _, _, hfree, h => by
      rw [Build.push]
      refine pushBlock_ahead (hfree value ?_) h
      rw [Element.acts]
      exact List.mem_singleton_self _
  | .seq elements, _, _, hfree, h => by
      rw [Build.push]
      exact pushAll_ahead elements (tableFree_of_seq hfree) h
  | .other _, _, _, _, _ => by
      rw [Build.push]
      exact rfl

theorem pushAll_ahead : ∀ (es : List Element) {s t : Session}, (∀ e ∈ es, e.TableFree) →
    s.Ahead t → AgreeUpTo Session.Ahead (Build.pushAll es s) (Build.pushAll es t)
  | [], _, _, _, h => by
      rw [Build.pushAll]
      exact h
  | e :: rest, _, _, hfree, h => by
      rw [Build.pushAll]
      refine (push_ahead e (hfree e List.mem_cons_self) h).bind fun s' t' h' => ?_
      exact pushAll_ahead rest (fun e' he' => hfree e' (List.mem_cons_of_mem e he')) h'

end

/-- A failure that shows that what was pending found no place, or that a value was refused. -/
def Unplaced (f : BuildFailure) : Prop := f = .build .emptyTermList ∨ ∃ kind, f = .unpushable kind

theorem drain_doomed (h : s.Doomed) : Ensures Build.drain s (fun _ _ => False) Unplaced := by
  unfold Ensures
  rw [drain_of_absorb_error h.pending h.absorb]
  exact .inl rfl

theorem pushInline_doomed (i : Inline) (h : s.Doomed) :
    Ensures (Build.pushInline i) s (fun _ s' => s'.Doomed) Unplaced := by
  refine .modify ⟨h.last, by simp, ?_⟩
  have hwhole := h.last.absorbBlocks_append_run s.builder.pending [i]
  rw [h.absorb] at hwhole
  exact hwhole

mutual

theorem push_doomed : ∀ (e : Element) {s : Session}, s.Doomed →
    Ensures (Build.push e) s (fun _ s' => s'.Doomed) Unplaced
  | .text _, _, h | .span _, _, h | .inline _, _, h => by
      rw [Build.push]
      exact pushInline_doomed _ h
  | .block value, _, h => by
      rw [Build.push]
      exact .bind ((drain_doomed h).mono (fun _ _ hno => hno.elim) fun _ hf => hf)
  | .seq elements, _, h => by
      rw [Build.push]
      exact pushAll_doomed elements h
  | .other value, _, _ => by
      rw [Build.push]
      exact .throw (.inr ⟨_, rfl⟩)

theorem pushAll_doomed : ∀ (es : List Element) {s : Session}, s.Doomed →
    Ensures (Build.pushAll es) s (fun _ s' => s'.Doomed) Unplaced
  | [], _, h => by
      rw [Build.pushAll]
      exact .pure h
  | e :: rest, _, h => by
      rw [Build.pushAll]
      exact .bind ((push_doomed e h).mono (fun _ _ h' => pushAll_doomed rest h') fun _ hf => hf)

end

end push

/-! ### All that is asked -/

/-- What is pushed, if it is a push that is asked for. -/
def BuildStep.element? : BuildStep → Option Element
  | .push element => some element
  | .drain => none

/-- A builder that is doomed fails in the end. -/
theorem build_doomed : ∀ (elements : List Element) {s : Session}, s.Doomed →
    Ensures (build (elements.map .push)) s (fun _ _ => False) Unplaced
  | [], _, h => .bind ((drain_doomed h).mono (fun _ _ hno => hno.elim) fun _ hf => hf)
  | e :: rest, _, h =>
      .bind ((push_doomed e h).mono (fun _ _ h' => build_doomed rest h') fun _ hf => hf)

/-- The outcomes with drains and without: the same, but where a run finds no place before a value is
refused, the drains show the first and the pushes alone the second. -/
def EarlyOutcome (drained pushed : Except BuildFailure (List Block)) : Prop :=
  drained = pushed ∨
    (drained = .error (.build .emptyTermList) ∧ ∃ kind, pushed = .error (.unpushable kind))

/-- Steps that agree on both builders, and what comes after them. -/
theorem AgreeUpTo.earlyOutcome {R : Session → Session → Prop} {x : Build Unit}
    {f g : Build (List Block)} {s t : Session} (h : AgreeUpTo R (x s) (x t))
    (hnext : ∀ s' t', R s' t' → EarlyOutcome (g t').1 (f s').1) :
    EarlyOutcome ((do x; g) t).1 ((do x; f) s).1 := by
  rw [bind_run, bind_run]
  rcases hs : x s with ⟨e | u, s'⟩
  · rw [hs] at h
    rcases ht : x t with ⟨e' | u', t'⟩
    · rw [ht] at h
      exact .inl (congrArg Except.error (Eq.symm h))
    · rw [ht] at h
      exact h.elim
  · rw [hs] at h
    rcases ht : x t with ⟨e' | u', t'⟩
    · rw [ht] at h
      exact h.elim
    · rw [ht] at h
      exact hnext s' t' h

/-- Drains among the pushes of a builder that is ahead. -/
theorem build_ahead : ∀ (steps : List BuildStep) {s t : Session},
    (∀ e ∈ steps.filterMap BuildStep.element?, e.TableFree) → s.Ahead t →
      EarlyOutcome (build steps t).1 (build ((steps.filterMap BuildStep.element?).map .push) s).1
  | [], s, t, _, h => by
      refine (drain_ahead h).earlyOutcome fun s' t' heven => ?_
      exact .inl (congrArg Except.ok heven.1)
  | .push e :: rest, s, t, hfree, h => by
      rw [List.filterMap_cons_some (by rw [BuildStep.element?])] at hfree ⊢
      have hpush := push_ahead e (hfree e List.mem_cons_self) h
      refine hpush.earlyOutcome fun s' t' h' => ?_
      exact build_ahead rest (fun e' he' => hfree e' (List.mem_cons_of_mem e he')) h'
  | .drain :: rest, s, t, hfree, h => by
      rw [List.filterMap_cons_none (by rw [BuildStep.element?])] at hfree ⊢
      have hdrain := drain_early h
      unfold Ensures at hdrain
      rw [build, bind_run, BuildStep.perform]
      rcases ht : Build.drain t with ⟨f | u, t'⟩
      · -- The drain fails: the pushes alone come to the same end, now or later.
        rw [ht] at hdrain
        obtain ⟨rfl, hdoomed⟩ := hdrain
        have hends := build_doomed (rest.filterMap BuildStep.element?) hdoomed
        unfold Ensures at hends
        rcases hs : build ((rest.filterMap BuildStep.element?).map .push) s with ⟨f | blocks, s'⟩
        · rw [hs] at hends
          rcases hends with rfl | ⟨kind, rfl⟩
          · exact .inl rfl
          · exact .inr ⟨rfl, kind, rfl⟩
        · rw [hs] at hends
          exact hends.elim
      · rw [ht] at hdrain
        exact build_ahead rest hfree hdrain

mutual

/-- All of the element can be pushed. -/
def Element.Pushable : Element → Prop
  | .text _ | .span _ | .inline _ | .block _ => True
  | .seq elements => elementsPushable elements
  | .other _ => False

/-- All of the elements can be pushed. -/
def elementsPushable : List Element → Prop
  | [] => True
  | e :: rest => e.Pushable ∧ elementsPushable rest

end

theorem drain_refuses (s : Session) :
    Ensures Build.drain s (fun _ _ => True) fun f => f = .build .emptyTermList := by
  unfold Ensures
  by_cases hnil : s.builder.pending = []
  · rw [drain_of_pending_nil hnil]
    trivial
  · cases hdrain : absorbBlocks s.builder.pending s.builder.blocks with
    | error e =>
        rw [drain_of_absorb_error hnil hdrain, absorbBlocks_eq_error _ hdrain]
    | ok drained =>
        rw [drain_of_absorb_ok hnil hdrain]
        trivial

mutual

/-- What can be pushed is refused for one reason only. -/
theorem push_refuses : ∀ (e : Element) (s : Session), e.Pushable →
    Ensures (Build.push e) s (fun _ _ => True) fun f => f = .build .emptyTermList
  | .text _, _, _ | .span _, _, _ | .inline _, _, _ => by
      rw [Build.push]
      exact .modify trivial
  | .block value, s, _ => by
      rw [Build.push]
      exact .bind ((drain_refuses s).mono (fun _ _ _ => .modify trivial) fun _ hf => hf)
  | .seq elements, s, h => by
      rw [Build.push]
      exact pushAll_refuses elements s h
  | .other _, _, h => h.elim

theorem pushAll_refuses : ∀ (es : List Element) (s : Session), elementsPushable es →
    Ensures (Build.pushAll es) s (fun _ _ => True) fun f => f = .build .emptyTermList
  | [], _, _ => by
      rw [Build.pushAll]
      exact .pure trivial
  | e :: rest, s, h => by
      rw [Build.pushAll]
      exact .bind ((push_refuses e s h.1).mono (fun _ s' _ => pushAll_refuses rest s' h.2)
        fun _ hf => hf)

end

theorem build_refuses : ∀ (elements : List Element) (s : Session),
    (∀ e ∈ elements, e.Pushable) →
      Ensures (build (elements.map .push)) s (fun _ _ => True) fun f => f = .build .emptyTermList
  | [], s, _ =>
      .bind ((drain_refuses s).mono (fun _ _ _ => .bind (.get (.pure trivial))) fun _ hf => hf)
  | e :: rest, s, h =>
      .bind ((push_refuses e s (h e List.mem_cons_self)).mono
        (fun _ s' _ => build_refuses rest s' fun e' he' => h e' (List.mem_cons_of_mem e he'))
        fun _ hf => hf)

/-- **Draining early does not show**: drains among pushes, none of which pushes a table, do not
change the blocks in the end, nor whether a run finds no place.  (Where a value that cannot be
pushed ends the pushes, a drain before it may show that what was pending finds no place.) -/
theorem build_early {steps : List BuildStep} {elements : List Element}
    (hpushes : steps.filterMap BuildStep.element? = elements)
    (hfree : ∀ e ∈ elements, e.TableFree) :
    (∀ blocks, (build steps {}).1 = .ok blocks ↔ (build (elements.map .push) {}).1 = .ok blocks) ∧
      ((∀ e ∈ elements, e.Pushable) → (build steps {}).1 = (build (elements.map .push) {}).1) ∧
      ((build (elements.map .push) {}).1 = .error (.build .emptyTermList) →
        (build steps {}).1 = .error (.build .emptyTermList)) := by
  subst hpushes
  have heven : Session.Ahead {} {} := ⟨lastTableFree_nil, .even rfl rfl⟩
  rcases build_ahead steps hfree heven with hsame | ⟨hdrained, kind, hpushed⟩
  · rw [hsame]
    exact ⟨fun _ => .rfl, fun _ => rfl, id⟩
  · rw [hdrained, hpushed]
    refine ⟨fun _ => ⟨fun h => (by cases h), fun h => (by cases h)⟩, fun hpushable => ?_,
      fun h => (by cases h)⟩
    have hrefuses := build_refuses _ {} hpushable
    unfold Ensures at hrefuses
    rcases hrun : build ((steps.filterMap BuildStep.element?).map .push) {} with ⟨f | blocks, s⟩
    · rw [hrun] at hrefuses hpushed
      cases hpushed
      cases hrefuses
    · rw [hrun] at hpushed
      cases hpushed

/-- Text in pieces, behind a rule in a quotation and behind a list without items, with drains
between the pieces. -/
def drainedSteps : List BuildStep :=
  [.push (.text "a"), .drain,
    .push (.seq [.inline .space, .block (.blockQuote [.rule]), .text "b"]), .drain, .drain,
    .push (.span ⟨0, 1, "c"⟩), .push (.block (.list .unordered [])), .push (.text "d"), .drain,
    .push (.text "e")]

theorem build_early_nested :
    (build drainedSteps {}).1 = .ok [.par [.text "a", .space],
      .blockQuote [.rule, .par [.text "b", .text "c"]],
      .list .unordered [.mk [.par [.text "d", .text "e"]] none]] ∧
    (build drainedSteps {}).1 =
      (build ((drainedSteps.filterMap BuildStep.element?).map .push) {}).1 := by
  have hpushes : drainedSteps.filterMap BuildStep.element? =
      [.text "a", .seq [.inline .space, .block (.blockQuote [.rule]), .text "b"],
        .span ⟨0, 1, "c"⟩, .block (.list .unordered []), .text "d", .text "e"] := rfl
  have hfree : ∀ e ∈ drainedSteps.filterMap BuildStep.element?, e.TableFree := by
    rw [hpushes]
    simp only [List.forall_mem_cons]
    simp [Element.TableFree, Element.acts, elementsActs, Block.kinds, blocksKinds, itemsKinds]
  have hpushable : ∀ e ∈ drainedSteps.filterMap BuildStep.element?, e.Pushable := by
    rw [hpushes]
    simp only [List.forall_mem_cons]
    simp [Element.Pushable, elementsPushable]
  exact ⟨rfl, (build_early rfl hfree).2.1 hpushable⟩

/-- A table without cells takes all of a run, or the first part of it. -/
example :
    (build [.push (.block (.table [] [])), .push (.text "a"), .drain, .push (.text "b")] {}).1 =
      .ok [.table [] [[.mk [.plain [.text "a"]] none 1 1]]] ∧
    (build [.push (.block (.table [] [])), .push (.text "a"), .push (.text "b")] {}).1 =
      .ok [.table [] [[.mk [.plain [.text "a", .text "b"]] none 1 1]]] := ⟨rfl, rfl⟩

end Markup
