import Markup.Proofs.Doc.Tables
import Markup.Proofs.Library.Lists

/-! # What may stand in a list

What the body of a list may hold is told by the roles of its pieces (`ListForm.role`), for which it
does not matter what the pieces come to (`accepts`).  Items are not all that may stand there: a list
in a list gives its entries to the list around it, metadata may be set, and inline content goes to
the entry before it, if there is one and no paragraph break comes in between.  All else is
complained of.  The entries are those of the items and lists in the body, each taken with the inline
content behind it (`ListForm.heads`), in their order.

The main statement is `evaluateStandard_listBody`; `stray_text_in_list` is a body that holds more
than items. -/

namespace Markup

open Text

/-! ### Roles -/

/-- The part that a piece plays in the body of a list: it is an entry, a list whose entries are
taken over, a paragraph break, blank text, other inline content, metadata, or any other block. -/
inductive Role where
  | member
  | group
  | gap
  | space
  | inline
  | silent
  | stray
deriving DecidableEq

/-- An entry begins with the piece. -/
def Role.opens : Role → Bool
  | member | group => true
  | _ => false

/-- The piece may belong to the entry before it. -/
def Role.trails : Role → Bool
  | space | inline | silent => true
  | _ => false

/-- Whether the list takes pieces of these roles; inline content has to be `behind` an entry. -/
def accepts (behind : Bool) : List Role → Bool
  | [] => true
  | .member :: rest | .group :: rest => accepts true rest
  | .gap :: rest => accepts false rest
  | .space :: rest | .silent :: rest => accepts behind rest
  | .inline :: rest => behind && accepts behind rest
  | .stray :: _ => false

namespace ListForm

variable {form : ListForm}

/-- The role of a command. -/
def kindRole : ListForm → Builtin → Role
  | itemized _, .item | glossary, .term => .member
  | itemized _, .list _ | glossary, .terms => .group
  | _, .par => .gap
  | _, .metadata => .silent
  | _, .styled _ | _, .code false | _, .math false | _, .footnote | _, .link => .inline
  | _, _ => .stray

/-- The role of a piece, by its text or its name. -/
def role (form : ListForm) : Piece → Role
  | .text span => if isBlank span.fragment then .space else .inline
  | .call c =>
    match form.scope.find? c.name.fragment with
    | some d => form.kindRole d.kind
    | none => .stray

/-- The pieces that an entry begins with, each with those behind it that belong to it. -/
def heads (form : ListForm) : List Piece → List (Piece × List Piece)
  | [] => []
  | p :: rest =>
    if (form.role p).opens then
      (p, rest.takeWhile fun q => (form.role q).trails) :: form.heads rest
    else form.heads rest

/-! ### What pieces of each role add -/

/-- The list refuses the block: it takes no entries from it, and it is no paragraph. -/
def refuses : ListForm → Block → Bool
  | itemized _, .list _ _ | glossary, .termList _ | _, .par _ | _, .plain _ => false
  | _, _ => true

/-- What pieces of a role add. -/
inductive Fits (form : ListForm) : Role → Addition → Prop
  | member {b : Block} {e : Entry} (h : form.entries? b = some [e]) : Fits form .member (.block b)
  | group {b : Block} {es : List Entry} (h : form.entries? b = some es) :
      Fits form .group (.block b)
  | gap : Fits form .gap (.block (.par []))
  | space {i : Inline} (h : i.isBlank = true) : Fits form .space (.inline i)
  | inline {i : Inline} (h : i.isBlank = false) : Fits form .inline (.inline i)
  | silent : Fits form .silent .nothing
  | stray {b : Block} (h : form.refuses b = true) : Fits form .stray (.block b)

/-- What a command makes fits its role. -/
theorem fits_of_makes {kind : Builtin} {a : Addition} (h : kind.Makes a) :
    form.Fits (form.kindRole kind) a := by
  cases h with
  | par => cases form <;> exact .gap
  | metadata => cases form <;> exact .silent
  | styled | code | math | footnote | link => cases form <;> exact .inline rfl
  | heading | rule | quote | codeBlock | mathBlock => cases form <;> exact .stray rfl
  | list kind items =>
      cases form with
      | itemized _ => exact .group rfl
      | glossary => exact .stray rfl
  | item content =>
      cases form with
      | itemized _ => exact .member rfl
      | glossary => exact .stray rfl
  | terms items =>
      cases form with
      | itemized _ => exact .stray rfl
      | glossary => exact .group rfl
  | term term content =>
      cases form with
      | itemized _ => exact .stray rfl
      | glossary => exact .member rfl

theorem fits_of_pieceMakes {p : Piece} {a : Addition} (h : p.Makes form.scope a) :
    form.Fits (form.role p) a := by
  cases p with
  | text span =>
      rw [Piece.Makes] at h
      rw [h, role]
      split
      · next hblank => exact .space hblank
      · next hblank => exact .inline (Bool.eq_false_iff.mpr hblank)
  | call c =>
      obtain ⟨d, hfind, hmakes⟩ := h
      rw [role, hfind]
      exact fits_of_makes hmakes

/-! ### What is collected from one block and the run behind it -/

theorem collect_of_refuses {b : Block} {rest : List Block} (h : form.refuses b = true) :
    form.collect (b :: rest) = .error (.shape form.fault) := by
  have hentries : form.entries? b = none := by
    cases form <;> cases b <;> simp_all [refuses, entries?]
  have hblank : b.isBlank = false := by
    cases form <;> cases b <;> simp_all [refuses, Block.isBlank]
  rw [collect, hentries, hblank]
  rfl

/-- A block that is refused is still refused when something is drained into it. -/
theorem refuses_of_absorbBlock (form : ListForm) {run : List Inline} {b : Block}
    {drained : List Block} {log : List LogEntry} (h : absorbBlock run b = .ok (drained, log)) :
    ∃ b' rest, drained = b' :: rest ∧ form.refuses b' = form.refuses b := by
  cases b with
  | blockQuote content | tagged content _ | defn _ content | list _ items | termList items =>
      rw [absorbBlock] at h
      obtain ⟨part, -, rfl⟩ := Absorbed.exists_of_rebuild h
      exact ⟨_, _, rfl, by cases form <;> rfl⟩
  | table columns rows =>
      obtain ⟨told, htable⟩ := absorbTable_eq run columns rows
      rw [absorbBlock, htable] at h
      cases h
      exact ⟨_, _, rfl, by cases form <;> rfl⟩
  | _ =>
      rw [absorbBlock] at h
      cases h
      exact ⟨_, _, rfl, by cases form <;> rfl⟩

theorem place_singleton {run : List Inline} {b : Block} {part : List Block}
    (h : place run [b] = .ok part) :
    part = [b] ∨ ∃ log, absorbBlock run b = .ok (part, log) := by
  unfold place at h
  split at h
  · cases h
    exact .inl rfl
  · rw [absorbBlocks] at h
    cases habsorb : absorbBlock run b with
    | error e =>
        rw [habsorb] at h
        cases h
    | ok drained =>
        rw [habsorb] at h
        cases h
        exact .inr ⟨drained.2, rfl⟩

theorem collect_place_of_refuses {run : List Inline} {b : Block} {part : List Block}
    (hb : form.refuses b = true) (h : place run [b] = .ok part) :
    form.collect part = .error (.shape form.fault) := by
  rcases place_singleton h with rfl | ⟨log, habsorb⟩
  · exact collect_of_refuses hb
  · obtain ⟨b', rest, rfl, hb'⟩ := refuses_of_absorbBlock form habsorb
    exact collect_of_refuses (hb'.trans hb)

theorem collect_par (run : List Inline) : form.collect [.par run] =
    if isBlankRun run then .ok [] else .error (.shape form.fault) := by
  have hentries : form.entries? (.par run) = none := by cases form <;> rfl
  rw [collect, hentries]
  rfl

theorem place_emptyPar (run : List Inline) : place run [.par []] = .ok [.par run] := by
  unfold place
  split
  · next hnil => rw [hnil]
  · rfl

theorem length_of_absorbItems {run : List Inline} : ∀ {items drained : List ListItem}
    {log : List LogEntry}, absorbItems run items = .ok (drained, log) →
      drained.length = max 1 items.length
  | [], _, _, h => by
      rw [absorbItems] at h
      cases h
      rfl
  | [.mk content label], _, _, h => by
      rw [absorbItems] at h
      obtain ⟨part, -, rfl⟩ := Absorbed.exists_of_rebuild h
      rfl
  | .mk content label :: item :: rest, _, _, h => by
      rw [absorbItems] at h
      obtain ⟨part, hpart, rfl⟩ := Absorbed.exists_of_rebuild h
      have hlength := length_of_absorbItems hpart
      simp only [List.length_cons] at hlength ⊢
      omega

theorem length_of_absorbTerms {run : List Inline} : ∀ {items drained : List TermItem}
    {log : List LogEntry}, absorbTerms run items = .ok (drained, log) →
      drained.length = items.length
  | [.mk term content], _, _, h => by
      rw [absorbTerms] at h
      obtain ⟨part, -, rfl⟩ := Absorbed.exists_of_rebuild h
      rfl
  | .mk term content :: item :: rest, _, _, h => by
      rw [absorbTerms] at h
      obtain ⟨part, hpart, rfl⟩ := Absorbed.exists_of_rebuild h
      have hlength := length_of_absorbTerms hpart
      simp only [List.length_cons] at hlength ⊢
      omega

/-- A list that a run is drained into is still one list, and one entry is still one. -/
theorem entries?_of_place {run : List Inline} {b : Block} {part : List Block} {es : List Entry}
    (hb : form.entries? b = some es) (h : place run [b] = .ok part) :
    ∃ b' es', part = [b'] ∧ form.entries? b' = some es' ∧ (es.length = 1 → es'.length = 1) := by
  rcases place_singleton h with rfl | ⟨log, habsorb⟩
  · exact ⟨b, es, rfl, hb, id⟩
  · match form, b, hb with
    | itemized kind, .list kind' items, hb =>
        cases hb
        rw [absorbBlock] at habsorb
        obtain ⟨drained, hitems, rfl⟩ := Absorbed.exists_of_rebuild habsorb
        have hlength := length_of_absorbItems hitems
        refine ⟨_, _, rfl, rfl, fun hone => ?_⟩
        rw [List.length_map] at hone ⊢
        omega
    | glossary, .termList items, hb =>
        cases hb
        rw [absorbBlock] at habsorb
        obtain ⟨drained, hitems, rfl⟩ := Absorbed.exists_of_rebuild habsorb
        have hlength := length_of_absorbTerms hitems
        refine ⟨_, _, rfl, rfl, fun hone => ?_⟩
        rw [List.length_map] at hone ⊢
        omega

theorem collect_of_entries? {b : Block} {es : List Entry} (hb : form.entries? b = some es) :
    form.collect [b] = .ok (es.map Entry.trim) := by
  rw [collect, hb]
  dsimp only
  rw [collect, Except.map, List.append_nil]

/-! ### What is collected from a body -/

/-- Entries can be collected from the blocks. -/
def Collects (form : ListForm) (bs : List Block) : Prop := ∃ es, form.collect bs = .ok es

theorem collects_append {xs ys : List Block} :
    form.Collects (xs ++ ys) ↔ form.Collects xs ∧ form.Collects ys := by
  unfold Collects
  rw [collect_append]
  cases form.collect xs <;> cases form.collect ys <;> simp [Except.bind, Except.map]

theorem collects_par {run : List Inline} :
    form.Collects [.par run] ↔ isBlankRun run = true := by
  unfold Collects
  rw [collect_par]
  split <;> simp_all

theorem not_collects_of_refuses {run : List Inline} {b : Block} {part : List Block}
    (hb : form.refuses b = true) (h : place run [b] = .ok part) : ¬ form.Collects part := by
  rintro ⟨es, hes⟩
  rw [collect_place_of_refuses hb h] at hes
  cases hes

/-- **Entries can be collected from the blocks of a body just if the list takes its pieces.** -/
theorem collects_iff_accepts {pieces : List Piece} {adds : List Addition}
    (h : List.Forall₂ (fun p a => form.Fits (form.role p) a) pieces adds) :
    ∀ {behind : Bool} {parts : List (List Block)},
      AllPlaced (groups adds).2 parts →
        ((behind = true ∨ isBlankRun (groups adds).1 = true) ∧ form.Collects parts.flatten ↔
          accepts behind (pieces.map form.role) = true) := by
  induction h with
  | nil =>
      intro behind parts hparts
      cases hparts
      exact iff_of_true ⟨.inr rfl, [], rfl⟩ rfl
  | @cons p a pieces adds hp _ ih =>
      intro behind parts hparts
      rw [List.map_cons]
      generalize form.role p = r at hp ⊢
      cases hp with
      | member hb | group hb =>
          -- What follows is behind an entry now.
          cases hparts with
          | cons hplace hrest =>
              obtain ⟨b', es', rfl, hb', -⟩ := entries?_of_place hb hplace
              have hpart : form.Collects [b'] := ⟨_, collect_of_entries? hb'⟩
              rw [List.flatten_cons, collects_append, accepts, ← ih hrest]
              simp [groups, isBlankRun, hpart]
      | gap =>
          cases hparts with
          | cons hplace hrest =>
              rw [place_emptyPar] at hplace
              cases hplace
              rw [List.flatten_cons, collects_append, collects_par, accepts, ← ih hrest]
              simp [groups, isBlankRun]
      | space hblank =>
          rw [accepts, ← ih hparts]
          simp [groups, isBlankRun, hblank]
      | inline hblank =>
          rw [accepts, Bool.and_eq_true, ← ih hparts]
          cases behind <;> simp [groups, isBlankRun, hblank]
      | silent =>
          rw [accepts, ← ih hparts, groups]
      | stray hb =>
          cases hparts with
          | cons hplace hrest =>
              rw [List.flatten_cons, collects_append, accepts]
              simp [not_collects_of_refuses hb hplace]

/-- The entries that a piece and what belongs to it come to by themselves: one if it is a member. -/
def Yields (form : ListForm) (w : World Builtin) (head : Piece × List Piece) (es : List Entry) :
    Prop :=
  ∃ b found, w.Gives (head.1 :: head.2) [b] ∧ form.entries? b = some found ∧
    es = found.map Entry.trim ∧ (form.role head.1 = .member → es.length = 1)

/-- The pieces behind an entry that belong to it add the run behind it. -/
theorem exists_trailing {w : World Builtin} (hscope : w.scope = form.scope) {pieces : List Piece}
    {adds : List Addition} (h : List.Forall₂ w.PieceAdds pieces adds) :
    ∃ trailing, List.Forall₂ w.PieceAdds
        (pieces.takeWhile fun q => (form.role q).trails) trailing ∧
      groups trailing = ((groups adds).1, []) := by
  induction h with
  | nil => exact ⟨[], .nil, rfl⟩
  | @cons p a pieces adds hp _ ih =>
      obtain ⟨trailing, htrailing, hgroups⟩ := ih
      have hfits : form.Fits (form.role p) a := fits_of_pieceMakes (hscope ▸ hp.makes)
      rw [List.takeWhile_cons]
      generalize hrole : form.role p = r at hfits ⊢
      cases hfits with
      | space _ | inline _ =>
          exact ⟨_ :: trailing, .cons hp htrailing, by rw [groups, groups, hgroups]⟩
      | silent => exact ⟨_ :: trailing, .cons hp htrailing, by rw [groups, groups, hgroups]⟩
      | member _ | group _ | gap | stray _ => exact ⟨[], .nil, rfl⟩

/-- A block and the run behind it are what its piece and the pieces that belong to it come to. -/
theorem gives_of_place {w : World Builtin} (hscope : w.scope = form.scope) {p : Piece} {b : Block}
    {pieces : List Piece} {adds : List Addition} {part : List Block}
    (hp : w.PieceAdds p (.block b)) (h : List.Forall₂ w.PieceAdds pieces adds)
    (hplace : place (groups adds).1 [b] = .ok part) :
    w.Gives (p :: pieces.takeWhile fun q => (form.role q).trails) part := by
  obtain ⟨trailing, htrailing, hgroups⟩ := exists_trailing hscope h
  refine (intoBlocks_eq_ok_iff (.cons hp htrailing)).mpr ⟨[], [part], ?_, ?_, ?_⟩
  · rw [groups]
    rfl
  · rw [groups, hgroups]
    exact .cons hplace .nil
  · rw [List.flatten_singleton, List.nil_append]

theorem exists_of_collect_append {xs ys : List Block} {es : List Entry}
    (h : form.collect (xs ++ ys) = .ok es) : ∃ es₁ es₂, form.collect xs = .ok es₁ ∧
      form.collect ys = .ok es₂ ∧ es = es₁ ++ es₂ := by
  rw [collect_append] at h
  cases hxs : form.collect xs with
  | error e =>
      rw [hxs] at h
      cases h
  | ok es₁ =>
      rw [hxs] at h
      cases hys : form.collect ys with
      | error e =>
          rw [hys] at h
          cases h
      | ok es₂ =>
          rw [hys] at h
          cases h
          exact ⟨es₁, es₂, rfl, rfl, rfl⟩

/-- **The entries of a body are those of its heads, in order.** -/
theorem exists_yields {w : World Builtin} (hscope : w.scope = form.scope) {pieces : List Piece}
    {adds : List Addition} (h : List.Forall₂ w.PieceAdds pieces adds) :
    ∀ {parts : List (List Block)} {es : List Entry},
      AllPlaced (groups adds).2 parts → form.collect parts.flatten = .ok es →
      ∃ ess, List.Forall₂ (form.Yields w) (form.heads pieces) ess ∧ es = ess.flatten := by
  induction h with
  | nil =>
      intro parts es hparts hes
      cases hparts
      cases hes
      exact ⟨[], .nil, rfl⟩
  | @cons p a pieces adds hp hpieces ih =>
      intro parts es hparts hes
      have hfits : form.Fits (form.role p) a := fits_of_pieceMakes (hscope ▸ hp.makes)
      rw [heads]
      generalize hrole : form.role p = r at hfits ⊢
      cases hfits with
      | space _ | inline _ | silent => exact ih hparts hes
      | gap =>
          cases hparts with
          | cons hplace hrest =>
              obtain ⟨es₁, es₂, hfirst, hes₂, rfl⟩ := exists_of_collect_append hes
              rw [place_emptyPar] at hplace
              cases hplace
              obtain rfl : es₁ = [] := by
                rw [collect_par] at hfirst
                split at hfirst
                · cases hfirst
                  rfl
                · cases hfirst
              exact ih hrest hes₂
      | stray hb =>
          cases hparts with
          | cons hplace hrest =>
              obtain ⟨es₁, es₂, hfirst, -⟩ := exists_of_collect_append hes
              exact (not_collects_of_refuses hb hplace ⟨es₁, hfirst⟩).elim
      | member hb | group hb =>
          cases hparts with
          | cons hplace hrest =>
              obtain ⟨es₁, es₂, hfirst, hes₂, rfl⟩ := exists_of_collect_append hes
              obtain ⟨b', found, rfl, hb', hone⟩ := entries?_of_place hb hplace
              rw [collect_of_entries? hb'] at hfirst
              cases hfirst
              obtain ⟨ess, hess, rfl⟩ := ih hrest hes₂
              refine ⟨_ :: ess, .cons ⟨b', found, ?_, hb', rfl, ?_⟩ hess, rfl⟩
              · exact gives_of_place hscope hp hpieces hplace
              · intro hmember
                rw [List.length_map]
                exact hone (by simp_all)

theorem collect_front {run : List Inline} {front : List Block} (h : place run [] = .ok front) :
    form.collect front = if isBlankRun run then .ok [] else .error (.shape form.fault) := by
  unfold place at h
  split at h
  · next hnil =>
      cases h
      rw [hnil]
      rfl
  · cases h
    exact collect_par run

/-- What is collected from the blocks of a body. -/
theorem collect_body {w : World Builtin} (hscope : w.scope = form.scope) {pieces : List Piece}
    {blocks : List Block} (h : w.Gives pieces blocks) :
    (form.Collects blocks ↔ accepts false (pieces.map form.role) = true) ∧
      ∀ es, form.collect blocks = .ok es →
        ∃ ess, List.Forall₂ (form.Yields w) (form.heads pieces) ess ∧ es = ess.flatten := by
  obtain ⟨adds, hadds⟩ := h.exists_pieceAdds
  obtain ⟨front, parts, hfront, hparts, rfl⟩ := (intoBlocks_eq_ok_iff hadds).mp h
  have hcollect : form.collect front = _ := collect_front hfront
  constructor
  · have hfits : List.Forall₂ (fun p a => form.Fits (form.role p) a) pieces adds :=
      hadds.imp fun p a hp => fits_of_pieceMakes (hscope ▸ hp.makes)
    have hcollects : form.Collects front ↔ isBlankRun (groups adds).1 = true := by
      unfold Collects
      rw [hcollect]
      change (∃ es, (if isBlankRun (groups adds).1 then _ else _) = Except.ok es) ↔ _
      split <;> simp_all
    rw [collects_append, hcollects, ← collects_iff_accepts hfits hparts]
    simp
  · intro es hes
    obtain ⟨es₁, es₂, hes₁, hes₂, rfl⟩ := exists_of_collect_append hes
    obtain rfl : es₁ = [] := by
      rw [hcollect] at hes₁
      split at hes₁
      · cases hes₁
        rfl
      · cases hes₁
    exact exists_yields hscope hadds hparts hes₂

end ListForm

/-- **What may stand in a list, and what it comes to.**  A list alone is evaluated if its body is
and the list takes the pieces of the body; if it does not take them, this is complained of at the
name of the list; and if it does, the document is a list of the entries that the heads among the
pieces come to, in order, with one entry for each item. -/
theorem evaluateStandard_listBody {form : ListForm} {source : Source} {c : Call}
    {pieces : List Piece} {maxDepth : Int} (h : form.Alone source c pieces)
    (hroom : 1 ≤ maxDepth) :
    let body := form.world source maxDepth
    ((∃ d, (evaluateStandard source maxDepth).1 = .ok d) ↔
        (∃ blocks, body.Gives pieces blocks) ∧ accepts false (pieces.map form.role) = true) ∧
      ((∃ blocks, body.Gives pieces blocks) → accepts false (pieces.map form.role) = false →
        (evaluateStandard source maxDepth).1 =
          .error (.command ⟨.shape form.fault, some c.name, some source.text⟩)) ∧
      ∀ d, (evaluateStandard source maxDepth).1 = .ok d →
        ∃ ess, List.Forall₂ (form.Yields body) (form.heads pieces) ess ∧
          d = ⟨[], [form.ofEntries ess.flatten]⟩ := by
  intro body
  refine ⟨⟨?_, ?_⟩, ?_, ?_⟩
  · rintro ⟨d, hd⟩
    obtain ⟨blocks, es, hgives, hes, -⟩ := (ListForm.evaluateStandard_eq_ok_iff h hroom).mp hd
    exact ⟨⟨blocks, hgives⟩, (ListForm.collect_body rfl hgives).1.mp ⟨es, hes⟩⟩
  · rintro ⟨⟨blocks, hgives⟩, haccepts⟩
    obtain ⟨es, hes⟩ := (ListForm.collect_body rfl hgives).1.mpr haccepts
    exact ⟨_, (ListForm.evaluateStandard_eq_ok_iff h hroom).mpr ⟨blocks, es, hgives, hes, rfl⟩⟩
  · rintro ⟨blocks, hgives⟩ hrefused
    cases hcollect : form.collect blocks with
    | error cause => exact ListForm.evaluateStandard_eq_error h hroom hgives hcollect
    | ok es =>
        have haccepts := (ListForm.collect_body rfl hgives).1.mp ⟨es, hcollect⟩
        rw [hrefused] at haccepts
        cases haccepts
  · intro d hd
    obtain ⟨blocks, es, hgives, hes, rfl⟩ := (ListForm.evaluateStandard_eq_ok_iff h hroom).mp hd
    obtain ⟨ess, hess, rfl⟩ := (ListForm.collect_body rfl hgives).2 es hes
    exact ⟨ess, hess, rfl⟩

/-- The text `\enum{\item{a}b\list{}c`, a paragraph break, and `\item{d}}`. -/
def mixedList : Source :=
  { text := "\\enum\x7b\\item\x7ba\x7db\\list\x7b\x7dc\n\n\\item\x7bd\x7d\x7d" }

/-- The list in it. -/
def mixedCall : Call :=
  ⟨⟨1, 1, "enum"⟩,
    [⟨none, ⟨6, 1, "\\item\x7ba\x7db\\list\x7b\x7dc\n\n\\item\x7bd\x7d"⟩⟩]⟩

/-- The pieces of its body. -/
def mixedPieces : List Piece :=
  [.call ⟨⟨7, 1, "item"⟩, [⟨none, ⟨12, 1, "a"⟩⟩]⟩, .text ⟨14, 1, "b"⟩,
    .call ⟨⟨16, 1, "list"⟩, [⟨none, ⟨21, 1, ""⟩⟩]⟩, .text ⟨22, 1, "c"⟩, .call ⟨⟨24, 2, "par"⟩, []⟩,
    .call ⟨⟨26, 3, "item"⟩, [⟨none, ⟨31, 3, "d"⟩⟩]⟩]

set_option maxRecDepth 4000 in
/-- The text behind the first item goes to it, and that behind the empty list becomes an entry. -/
theorem evaluateStandard_listBody_mixed :
    (evaluateStandard mixedList 2).1 = .ok ⟨[], [.list .ordered
        [.mk [.par [.text "a", .text "b"]] none, .mk [.par [.text "c"]] none,
          .mk [.par [.text "d"]] none]]⟩ ∧
      accepts false (mixedPieces.map (ListForm.itemized .ordered).role) = true := by
  have halone : (ListForm.itemized .ordered).Alone mixedList mixedCall mixedPieces :=
    ⟨by cbv, rfl, _, rfl, by cbv⟩
  have hd : (evaluateStandard mixedList 2).1 = .ok ⟨[], [.list .ordered
      [.mk [.par [.text "a", .text "b"]] none, .mk [.par [.text "c"]] none,
        .mk [.par [.text "d"]] none]]⟩ := by cbv
  exact ⟨hd, ((evaluateStandard_listBody halone (by decide)).1.mp ⟨_, hd⟩).2⟩

set_option maxRecDepth 4000 in
/-- Not only items stand in lists that are evaluated: in `\list{\item{a}b}` the text is taken into
the item before it. -/
theorem stray_text_in_list :
    ¬ ∀ (source : Source) (c : Call) (pieces : List Piece) (d : Document),
      (ListForm.itemized .unordered).Alone source c pieces →
        (evaluateStandard source defaultMaxDepth).1 = .ok d →
          ∀ p ∈ pieces, (ListForm.itemized .unordered).role p = .member ∨
            (ListForm.itemized .unordered).role p = .space ∨
            (ListForm.itemized .unordered).role p = .gap := by
  intro h
  have halone : (ListForm.itemized .unordered).Alone
      { text := "\\list\x7b\\item\x7ba\x7db\x7d" }
      ⟨⟨1, 1, "list"⟩, [⟨none, ⟨6, 1, "\\item\x7ba\x7db"⟩⟩]⟩
      [.call ⟨⟨7, 1, "item"⟩, [⟨none, ⟨12, 1, "a"⟩⟩]⟩, .text ⟨14, 1, "b"⟩] :=
    ⟨by cbv, rfl, _, rfl, by cbv⟩
  have hd : (evaluateStandard { text := "\\list\x7b\\item\x7ba\x7db\x7d" } defaultMaxDepth).1 =
      .ok ⟨[], [.list .unordered [.mk [.par [.text "a", .text "b"]] none]]⟩ := by cbv
  have hrole := h _ _ _ _ halone hd (.text ⟨14, 1, "b"⟩) (by simp)
  revert hrole
  decide

end Markup
