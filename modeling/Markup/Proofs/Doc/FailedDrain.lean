import Markup.Proofs.Doc.Tables

/-! # A run that finds no place

Draining fails for one reason, and then nothing has happened to the blocks, at whatever depth the
failure was found (`failed_drain_keeps_blocks`).  The reason is that the way of the run ends at a
list of terms without any term: from the last block it leads on into the last part of quotations,
tagged blocks, definitions and lists, and to the last block there, for as long as there is one
(`Builder.IsFocus`).

That nothing has happened is more than that a failed drain gives no new blocks.  A run may be
drained in place: each part of the tree is changed where it stands, and what has been changed when a
step fails stays changed (`placeInBlocks` and its fellows).  No step changes anything before the
steps further in have succeeded, so this comes to the same (`placeInBlocks_eq`). -/

namespace Markup

/-! ### Draining in place -/

/-- What a step comes to that changes a tree where it stands, and the tree as the step leaves it,
whether it fails or not. -/
abbrev InPlace (σ α : Type) := Except BuildError α × σ

namespace InPlace

variable {σ τ α : Type}

/-- A step on a part of a tree, seen from the whole. -/
def within (f : σ → τ) (step : InPlace σ α) : InPlace τ α := (step.1, f step.2)

/-- A block that took the run itself. -/
def alone (step : InPlace σ (List LogEntry)) : InPlace σ (Option Block × List LogEntry) :=
  (step.1.map (none, ·), step.2)

/-- A last block, and behind it the block that it gave back. -/
def beside : InPlace Block (Option Block × List LogEntry) → InPlace (List Block) (List LogEntry)
  | (.ok (sibling, log), b) => (.ok log, b :: sibling.toList)
  | (.error e, b) => (.error e, [b])

end InPlace

/-- A run becomes the first cell of a table, or is dropped. -/
def placeInTable (run : List Inline) (columns : List TableColumn) (rows : List (List TableCell)) :
    InPlace Block (List LogEntry) :=
  match rows.getLast? with
  | some (_ :: _) => (.ok [.discarded run.length], .table columns rows)
  | _ => (.ok [], .table columns (rows ++ [[.mk [.plain run] none 1 1]]))

mutual

/-- Drains a run into blocks where they stand. -/
def placeInBlocks (run : List Inline) : List Block → InPlace (List Block) (List LogEntry)
  | [] => (.ok [], [.par run])
  | b :: rest =>
    match rest with
    | [] => (placeInBlock run b).beside
    | _ :: _ => (placeInBlocks run rest).within (b :: ·)

/-- Drains a run into a block where it stands; a block that cannot hold it is given a sibling. -/
def placeInBlock (run : List Inline) : Block → InPlace Block (Option Block × List LogEntry)
  | .plain content => (.ok (none, []), .plain (content ++ run))
  | .par content => (.ok (none, []), .par (content ++ run))
  | .codeBlock language content => (.ok (none, []), .codeBlock language (content ++ run))
  | .heading level text => (.ok (none, []), .heading level (text ++ run))
  | .figure content caption => (.ok (none, []), .figure content (caption ++ run))
  | .blockQuote content => ((placeInBlocks run content).within .blockQuote).alone
  | .tagged content metadata => ((placeInBlocks run content).within (.tagged · metadata)).alone
  | .defn kind content => ((placeInBlocks run content).within (.defn kind)).alone
  | .list kind items => ((placeInItems run items).within (.list kind)).alone
  | .termList items => ((placeInTerms run items).within .termList).alone
  | .table columns rows => (placeInTable run columns rows).alone
  | .rule => (.ok (some (.par run), []), .rule)
  | .mathBlock tex => (.ok (some (.par run), []), .mathBlock tex)
  | .foreign value => (.ok (none, []), .foreign value)

/-- Drains a run into the items of a list where they stand. -/
def placeInItems (run : List Inline) : List ListItem → InPlace (List ListItem) (List LogEntry)
  | [] => (.ok [], [.mk [.par run] none])
  | .mk content label :: rest =>
    match rest with
    | [] => (placeInBlocks run content).within ([.mk · label])
    | _ :: _ => (placeInItems run rest).within (.mk content label :: ·)

/-- Drains a run into terms and definitions where they stand. -/
def placeInTerms (run : List Inline) : List TermItem → InPlace (List TermItem) (List LogEntry)
  | [] => (.error .emptyTermList, [])
  | .mk term content :: rest =>
    match rest with
    | [] => (placeInBlocks run content).within ([.mk term ·])
    | _ :: _ => (placeInTerms run rest).within (.mk term content :: ·)

end

/-- The new tree in the place of the old one; where there is none, the old one stays. -/
def Absorbed.inPlace {α : Type} (tree : α) : Absorbed α → InPlace α (List LogEntry)
  | .ok (drained, log) => (.ok log, drained)
  | .error e => (.error e, tree)

theorem Absorbed.inPlace_rebuild {α β : Type} (f : α → β) (tree : α) (a : Absorbed α) :
    (a.rebuild f).inPlace (f tree) = (a.inPlace tree).within f := by
  cases a <;> rfl

/-- A part that took the run, as a block of its own. -/
theorem Absorbed.beside_alone {α : Type} (f : α → Block) (tree : α) (a : Absorbed α) :
    ((a.inPlace tree).within f).alone.beside = (a.rebuild ([f ·])).inPlace [f tree] := by
  cases a <;> rfl

theorem placeInTable_eq (run : List Inline) (columns : List TableColumn)
    (rows : List (List TableCell)) :
    placeInTable run columns rows =
      (absorbTable run columns rows).inPlace (.table columns rows) := by
  unfold placeInTable absorbTable
  rcases rows.getLast? with _ | _ | ⟨cell, cells⟩ <;> rfl

mutual

/-- **Draining in place**: what a step further in has changed stays changed if it fails, and all the
same a failure leaves the blocks as they were. -/
theorem placeInBlocks_eq (run : List Inline) : ∀ bs : List Block,
    placeInBlocks run bs = (absorbBlocks run bs).inPlace bs
  | [] => by
      rw [placeInBlocks, absorbBlocks]
      rfl
  | [b] => by
      rw [placeInBlocks, absorbBlocks]
      exact placeInBlock_eq run b
  | b :: c :: rest => by
      rw [placeInBlocks, absorbBlocks, placeInBlocks_eq run (c :: rest)]
      exact (Absorbed.inPlace_rebuild (b :: ·) (c :: rest) _).symm

theorem placeInBlock_eq (run : List Inline) : ∀ b : Block,
    (placeInBlock run b).beside = (absorbBlock run b).inPlace [b]
  | .plain _ | .par _ | .codeBlock _ _ | .heading _ _ | .figure _ _ | .rule | .mathBlock _
  | .foreign _ => by
      rw [placeInBlock, absorbBlock]
      rfl
  | .blockQuote content => by
      rw [placeInBlock, absorbBlock, placeInBlocks_eq run content]
      exact Absorbed.beside_alone .blockQuote content _
  | .tagged content metadata => by
      rw [placeInBlock, absorbBlock, placeInBlocks_eq run content]
      exact Absorbed.beside_alone (.tagged · metadata) content _
  | .defn kind content => by
      rw [placeInBlock, absorbBlock, placeInBlocks_eq run content]
      exact Absorbed.beside_alone (.defn kind) content _
  | .list kind items => by
      rw [placeInBlock, absorbBlock, placeInItems_eq run items]
      exact Absorbed.beside_alone (.list kind) items _
  | .termList items => by
      rw [placeInBlock, absorbBlock, placeInTerms_eq run items]
      exact Absorbed.beside_alone .termList items _
  | .table columns rows => by
      rw [placeInBlock, absorbBlock, placeInTable_eq]
      exact Absorbed.beside_alone id (.table columns rows) _

theorem placeInItems_eq (run : List Inline) : ∀ items : List ListItem,
    placeInItems run items = (absorbItems run items).inPlace items
  | [] => by
      rw [placeInItems, absorbItems]
      rfl
  | [.mk content label] => by
      rw [placeInItems, absorbItems, placeInBlocks_eq run content]
      exact (Absorbed.inPlace_rebuild ([ListItem.mk · label]) content _).symm
  | .mk content label :: item :: rest => by
      rw [placeInItems, absorbItems, placeInItems_eq run (item :: rest)]
      exact (Absorbed.inPlace_rebuild (ListItem.mk content label :: ·) (item :: rest) _).symm

theorem placeInTerms_eq (run : List Inline) : ∀ items : List TermItem,
    placeInTerms run items = (absorbTerms run items).inPlace items
  | [] => by
      rw [placeInTerms, absorbTerms]
      rfl
  | [.mk term content] => by
      rw [placeInTerms, absorbTerms, placeInBlocks_eq run content]
      exact (Absorbed.inPlace_rebuild ([TermItem.mk term ·]) content _).symm
  | .mk term content :: item :: rest => by
      rw [placeInTerms, absorbTerms, placeInTerms_eq run (item :: rest)]
      exact (Absorbed.inPlace_rebuild (TermItem.mk term content :: ·) (item :: rest) _).symm

end

/-- Drains the pending run in place: the run is taken off, and the blocks are then as the descent
has left them. -/
def drainInPlace (s : Session) : Except BuildFailure Unit × Session :=
  if s.builder.pending.isEmpty then (.ok (), s) else
    match placeInBlocks s.builder.pending s.builder.blocks with
    | (.ok told, blocks) => (.ok (), ⟨⟨s.builder.metadata, blocks, []⟩, s.log ++ told⟩)
    | (.error e, blocks) => (.error (.build e), ⟨⟨s.builder.metadata, blocks, []⟩, s.log⟩)

theorem drain_eq_drainInPlace (s : Session) : Build.drain s = drainInPlace s := by
  obtain ⟨b, log⟩ := s
  rw [Build.drain_run, drainInPlace, placeInBlocks_eq]
  cases absorbBlocks b.pending b.blocks <;> rfl

/-! ### Where a run is refused -/

section refused

variable {run : List Inline} {e : BuildError}

theorem Absorbed.rebuild_eq_error_iff {α β : Type} {f : α → β} {a : Absorbed α} :
    a.rebuild f = .error e ↔ a = .error e := by
  cases a <;> simp [Absorbed.rebuild, Except.map]

/-- Blocks refuse a run if the last one does. -/
theorem absorbBlocks_eq_error_iff (bs : List Block) :
    absorbBlocks run bs = .error e ↔ ∃ b ∈ bs.getLast?, absorbBlock run b = .error e := by
  rcases List.eq_nil_or_concat bs with rfl | ⟨front, b, rfl⟩
  · simp [absorbBlocks]
  · rw [List.concat_eq_append, absorbBlocks_append run (List.cons_ne_nil _ _),
      Absorbed.rebuild_eq_error_iff, absorbBlocks, List.getLast?_concat]
    simp

/-- Items refuse a run if the blocks of the last one do. -/
theorem absorbItems_eq_error_iff : ∀ items : List ListItem, absorbItems run items = .error e ↔
    ∃ content ∈ (items.map ListItem.content).getLast?, absorbBlocks run content = .error e
  | [] => by simp [absorbItems]
  | [.mk content label] => by
      rw [absorbItems, Absorbed.rebuild_eq_error_iff]
      simp [ListItem.content]
  | .mk content label :: item :: rest => by
      rw [absorbItems, Absorbed.rebuild_eq_error_iff, absorbItems_eq_error_iff (item :: rest)]
      simp

/-- Definitions refuse a run if the blocks of the last one do, or if there are none. -/
theorem absorbTerms_eq_error_iff : ∀ items : List TermItem, absorbTerms run items = .error e ↔
    (items = [] ∧ e = .emptyTermList) ∨
      ∃ content ∈ (items.map TermItem.content).getLast?, absorbBlocks run content = .error e
  | [] => by simp [absorbTerms, eq_comm]
  | [.mk term content] => by
      rw [absorbTerms, Absorbed.rebuild_eq_error_iff]
      simp [TermItem.content]
  | .mk term content :: item :: rest => by
      rw [absorbTerms, Absorbed.rebuild_eq_error_iff, absorbTerms_eq_error_iff (item :: rest)]
      simp

/-- A block refuses a run if it is a list of terms without any, or if it passes the run on to a last
part that refuses it. -/
theorem absorbBlock_eq_error_iff (b : Block) : absorbBlock run b = .error e ↔
    (b = .termList [] ∧ e = .emptyTermList) ∨
      b.PassesOn = true ∧ ∃ content ∈ b.parts.getLast?, absorbBlocks run content = .error e := by
  cases b with
  | plain _ | par _ | codeBlock _ _ | heading _ _ | figure _ _ | rule | mathBlock _ | foreign _ =>
      simp [absorbBlock, Block.PassesOn]
  | blockQuote content | tagged content _ | defn _ content =>
      rw [absorbBlock, Absorbed.rebuild_eq_error_iff]
      simp [Block.PassesOn, Block.parts]
  | list kind items =>
      rw [absorbBlock, Absorbed.rebuild_eq_error_iff, absorbItems_eq_error_iff]
      simp [Block.PassesOn, Block.parts]
  | termList items =>
      rw [absorbBlock, Absorbed.rebuild_eq_error_iff, absorbTerms_eq_error_iff]
      simp [Block.PassesOn, Block.parts]
  | table columns rows =>
      obtain ⟨log, htable⟩ := absorbTable_eq run columns rows
      rw [absorbBlock, htable]
      simp [Absorbed.rebuild, Except.map, Block.PassesOn]

end refused

/-! ### The way of a run -/

theorem sizeOf_lt_of_mem_parts {b : Block} {content : List Block} (h : content ∈ b.parts) :
    sizeOf content < sizeOf b := by
  cases b with
  | plain _ | par _ | codeBlock _ _ | heading _ _ | rule | mathBlock _ | foreign _ => cases h
  | blockQuote content' | tagged content' _ | defn _ content' | figure content' _ =>
      obtain rfl := List.mem_singleton.mp h
      simp only [Block.blockQuote.sizeOf_spec, Block.tagged.sizeOf_spec, Block.defn.sizeOf_spec,
        Block.figure.sizeOf_spec]
      omega
  | list kind items =>
      obtain ⟨⟨content', label⟩, hitem, rfl⟩ := List.mem_map.mp h
      have hlt := List.sizeOf_lt_of_mem hitem
      simp only [ListItem.content, ListItem.mk.sizeOf_spec, Block.list.sizeOf_spec] at hlt ⊢
      omega
  | termList items =>
      obtain ⟨⟨term, content'⟩, hitem, rfl⟩ := List.mem_map.mp h
      have hlt := List.sizeOf_lt_of_mem hitem
      simp only [TermItem.content, TermItem.mk.sizeOf_spec, Block.termList.sizeOf_spec] at hlt ⊢
      omega
  | table columns rows =>
      obtain ⟨⟨content', alignment, rowSpan, colSpan⟩, hcell, rfl⟩ := List.mem_map.mp h
      obtain ⟨row, hrow, hcell⟩ := List.mem_flatten.mp hcell
      have hlt := List.sizeOf_lt_of_mem hcell
      have hlt' := List.sizeOf_lt_of_mem hrow
      simp only [TableCell.content, TableCell.mk.sizeOf_spec, Block.table.sizeOf_spec] at hlt ⊢
      omega

/-- A run that is drained goes as far as this place, and no further. -/
def Builder.IsFocus (b : Builder) (place : BlockPlace) : Prop :=
  b.Reaches place ∧ ∀ level, ¬ b.Reaches ⟨place.index, place.way ++ [level]⟩

/-- The way of a run leads to a list of terms without any. -/
def EndsAtEmptyTerms (bs : List Block) : Prop :=
  ∃ i way, ReachesAlong bs i way ∧ blockAlong bs i way = some (.termList [])

/-- From the last block the way leads on into its last part, if it passes runs on. -/
theorem endsAtEmptyTerms_iff (bs : List Block) : EndsAtEmptyTerms bs ↔
    ∃ b ∈ bs.getLast?, b = .termList [] ∨
      b.PassesOn = true ∧ ∃ content ∈ b.parts.getLast?, EndsAtEmptyTerms content := by
  constructor
  · rintro ⟨i, way, hreaches, hat⟩
    have hlast : bs.getLast? = bs[i]? := by
      rw [List.getLast?_eq_getElem?, ← hreaches.last, Nat.add_sub_cancel]
    cases way with
    | nil => exact ⟨.termList [], hlast.trans hat, .inl rfl⟩
    | cons level way =>
        obtain ⟨part, j⟩ := level
        obtain ⟨-, b, hb, hpasses, hpart, content, hcontent, hinside⟩ := hreaches
        have hlastPart : b.parts.getLast? = b.parts[part]? := by
          rw [List.getLast?_eq_getElem?, ← hpart, Nat.add_sub_cancel]
        rw [blockAlong, Option.mem_def.mp hb, Option.bind_eq_bind, Option.bind_some,
          Option.mem_def.mp hcontent] at hat
        exact ⟨b, hlast.trans hb, .inr ⟨hpasses, content, hlastPart.trans hcontent, j, way,
          hinside, hat⟩⟩
  · rintro ⟨b, hb, hends⟩
    have hlength : bs.length - 1 + 1 = bs.length :=
      Nat.sub_add_cancel (List.length_pos_of_mem (List.mem_of_getLast? hb))
    have hlast : bs[bs.length - 1]? = some b := List.getLast?_eq_getElem?.symm.trans hb
    rcases hends with rfl | ⟨hpasses, content, hcontent, j, way, hinside, hat⟩
    · exact ⟨bs.length - 1, [], hlength, hlast⟩
    · have hparts : b.parts.length - 1 + 1 = b.parts.length :=
        Nat.sub_add_cancel (List.length_pos_of_mem (List.mem_of_getLast? hcontent))
      have hpart : b.parts[b.parts.length - 1]? = some content :=
        List.getLast?_eq_getElem?.symm.trans hcontent
      refine ⟨bs.length - 1, (b.parts.length - 1, j) :: way, ?_, ?_⟩
      · exact ⟨hlength, b, hlast, hpasses, hparts, content, hpart, hinside⟩
      · rw [blockAlong, hlast, Option.bind_eq_bind, Option.bind_some, hpart]
        exact hat

/-- **A run is refused exactly if its way ends at a list of terms without any.** -/
theorem absorbBlocks_eq_error_iff_ends (run : List Inline) (e : BuildError) (bs : List Block) :
    absorbBlocks run bs = .error e ↔ e = .emptyTermList ∧ EndsAtEmptyTerms bs := by
  rw [absorbBlocks_eq_error_iff, endsAtEmptyTerms_iff]
  have hlast : ∀ b ∈ bs.getLast?, absorbBlock run b = .error e ↔ e = .emptyTermList ∧
      (b = .termList [] ∨
        b.PassesOn = true ∧ ∃ content ∈ b.parts.getLast?, EndsAtEmptyTerms content) := by
    intro b hb
    have hparts : ∀ content ∈ b.parts.getLast?,
        absorbBlocks run content = .error e ↔ e = .emptyTermList ∧ EndsAtEmptyTerms content := by
      intro content hcontent
      have hinside := sizeOf_lt_of_mem_parts (List.mem_of_getLast? hcontent)
      have hwhole := List.sizeOf_lt_of_mem (List.mem_of_getLast? hb)
      exact absorbBlocks_eq_error_iff_ends run e content
    rw [absorbBlock_eq_error_iff]
    grind
  grind
termination_by sizeOf bs

/-- From a list of terms without any there is nowhere to go on to. -/
theorem not_reachesAlong_append {level : Nat × Nat} : ∀ {way : Way} {bs : List Block} {i : Nat},
    blockAlong bs i way = some (.termList []) → ¬ ReachesAlong bs i (way ++ [level])
  | [], bs, i, hat, ⟨_, b, hb, _, _, content, hcontent, _⟩ => by
      obtain rfl : b = .termList [] := Option.some.inj (hb.symm.trans hat)
      cases hcontent
  | (part, j) :: way, bs, i, hat, ⟨_, b, hb, _, _, content, hcontent, hinside⟩ => by
      rw [blockAlong, Option.mem_def.mp hb, Option.bind_eq_bind, Option.bind_some,
        Option.mem_def.mp hcontent] at hat
      exact not_reachesAlong_append hat hinside

theorem endsAtEmptyTerms_iff_isFocus (b : Builder) : EndsAtEmptyTerms b.blocks ↔
    ∃ place, b.IsFocus place ∧ b.blockAt? place = some (.termList []) := by
  constructor
  · rintro ⟨i, way, hreaches, hat⟩
    exact ⟨⟨i, way⟩, ⟨hreaches, fun level => not_reachesAlong_append hat⟩, hat⟩
  · rintro ⟨place, hfocus, hat⟩
    exact ⟨place.index, place.way, hfocus.1, hat⟩

/-! ### Failed drains and pushes -/

section failed

variable {s : Session} {f : BuildFailure}

theorem drain_fails_iff : (Build.drain s).1 = .error f ↔ f = .build .emptyTermList ∧
    s.builder.pending ≠ [] ∧ EndsAtEmptyTerms s.builder.blocks := by
  by_cases hnil : s.builder.pending = []
  · rw [drain_of_pending_nil hnil]
    simp [hnil]
  · cases hdrain : absorbBlocks s.builder.pending s.builder.blocks with
    | error e =>
        obtain ⟨rfl, hends⟩ := (absorbBlocks_eq_error_iff_ends _ _ _).mp hdrain
        rw [drain_of_absorb_error hnil hdrain]
        simp [hnil, hends, eq_comm]
    | ok drained =>
        have hends : ¬ EndsAtEmptyTerms s.builder.blocks := by
          intro hends
          rw [(absorbBlocks_eq_error_iff_ends _ _ _).mpr ⟨rfl, hends⟩] at hdrain
          cases hdrain
        rw [drain_of_absorb_ok hnil hdrain]
        simp [hends]

/-- A drain that fails in place has left the blocks as they were. -/
theorem blocks_of_failed_drain (h : (Build.drain s).1 = .error f) :
    (Build.drain s).2.builder.blocks = s.builder.blocks := by
  obtain ⟨rfl, hnil, hends⟩ := drain_fails_iff.mp h
  have hdrain := (absorbBlocks_eq_error_iff_ends s.builder.pending _ _).mpr ⟨rfl, hends⟩
  rw [drain_of_absorb_error hnil hdrain]

theorem pushBlock_fails_iff (value : Block) :
    (Build.pushBlock value s).1 = .error f ↔ (Build.drain s).1 = .error f := by
  rw [Build.pushBlock, bind_run]
  rcases Build.drain s with ⟨e | u, s'⟩
  · rfl
  · constructor <;> intro h <;> cases h

theorem blocks_of_failed_pushBlock {value : Block} (h : (Build.pushBlock value s).1 = .error f) :
    (Build.pushBlock value s).2.builder.blocks = s.builder.blocks := by
  have hfails := (pushBlock_fails_iff value).mp h
  have hblocks := blocks_of_failed_drain hfails
  rw [Build.pushBlock, bind_run]
  rcases hdrain : Build.drain s with ⟨e | u, s'⟩
  · rw [hdrain] at hblocks
    exact hblocks
  · rw [hdrain] at hfails
    cases hfails

end failed

mutual

/-- A push fails on a block that it pushes, and the blocks are then those that stood in front of
it. -/
theorem exists_of_failed_push : ∀ (e : Element) {s : Session},
    (Build.push e s).1 = .error (.build .emptyTermList) →
      ∃ earlier value, e.actsFrom s = earlier ++ [.block value] ∧
        (Build.push e s).2.builder.blocks = (actsAfter s earlier).builder.blocks
  | .text _, _, h | .span _, _, h | .inline _, _, h => by
      rw [Build.push] at h
      cases h
  | .block value, s, h => by
      rw [Build.push] at h ⊢
      exact ⟨[], value, by rw [Element.actsFrom]; rfl, blocks_of_failed_pushBlock h⟩
  | .seq elements, s, h => by
      rw [Build.push] at h ⊢
      rw [Element.actsFrom]
      exact exists_of_failed_pushAll elements h
  | .other _, _, h => by
      rw [Build.push] at h
      cases h

theorem exists_of_failed_pushAll : ∀ (es : List Element) {s : Session},
    (Build.pushAll es s).1 = .error (.build .emptyTermList) →
      ∃ earlier value, elementsActsFrom s es = earlier ++ [.block value] ∧
        (Build.pushAll es s).2.builder.blocks = (actsAfter s earlier).builder.blocks
  | [], _, h => by
      rw [Build.pushAll] at h
      cases h
  | e :: rest, s, h => by
      have hacts := actsAfter_actsFrom e s
      rw [Build.pushAll, bind_run] at h ⊢
      rw [elementsActsFrom]
      rcases hpush : Build.push e s with ⟨f | u, s'⟩
      · rw [hpush] at h
        have hfirst := exists_of_failed_push e (s := s) (by rw [hpush]; exact h)
        rw [hpush] at hfirst
        simpa using hfirst
      · rw [hpush] at h hacts
        obtain ⟨earlier, value, hearlier, hblocks⟩ := exists_of_failed_pushAll rest h
        refine ⟨e.actsFrom s ++ earlier, value, ?_, ?_⟩
        · dsimp only
          rw [hearlier, List.append_assoc]
        · unfold actsAfter at hacts hblocks ⊢
          rw [List.foldl_append, hacts]
          exact hblocks

end

/-- **A drain fails where its run comes to a list of terms without any, and changes no block.**  The
same holds of a block that is pushed, which is then not added; and of a push of many things the
blocks are those that stood in front of the one that failed.  What a drain does is done in place, so
that nothing in the tree can have been changed on the way. -/
theorem failed_drain_keeps_blocks (s : Session) :
    Build.drain s = drainInPlace s ∧
    (∀ f, (Build.drain s).1 = .error f ↔ f = .build .emptyTermList ∧ s.builder.pending ≠ [] ∧
      ∃ place, s.builder.IsFocus place ∧ s.builder.blockAt? place = some (.termList [])) ∧
    (∀ f, (Build.drain s).1 = .error f → (Build.drain s).2.builder.blocks = s.builder.blocks) ∧
    (∀ value f, ((Build.push (.block value) s).1 = .error f ↔ (Build.drain s).1 = .error f) ∧
      ((Build.push (.block value) s).1 = .error f →
        (Build.push (.block value) s).2.builder.blocks = s.builder.blocks)) ∧
    ∀ element : Element, (Build.push element s).1 = .error (.build .emptyTermList) →
      ∃ earlier value, element.actsFrom s = earlier ++ [.block value] ∧
        (Build.push element s).2.builder.blocks = (actsAfter s earlier).builder.blocks := by
  refine ⟨drain_eq_drainInPlace s, fun f => ?_, fun f => blocks_of_failed_drain, ?_,
    fun element => exists_of_failed_push element⟩
  · rw [drain_fails_iff, endsAtEmptyTerms_iff_isFocus]
  · intro value f
    rw [Build.push]
    exact ⟨pushBlock_fails_iff value, blocks_of_failed_pushBlock⟩

/-- A run whose way ends at a list of terms without any, in an item of a list in a quotation. -/
def strandedRun : Session where
  builder := {
    blocks := [.rule, .blockQuote [.list .ordered [.mk [.termList []] none]]]
    pending := [.text "x"] }

theorem failed_drain_keeps_blocks_stranded :
    (Build.drain strandedRun).1 = .error (.build .emptyTermList) ∧
      (Build.drain strandedRun).2.builder.blocks = strandedRun.builder.blocks ∧
      (Build.push (.block .rule) strandedRun).1 = .error (.build .emptyTermList) ∧
      (Build.push (.block .rule) strandedRun).2.builder.blocks = strandedRun.builder.blocks := by
  obtain ⟨-, -, hdrain, hpush, -⟩ := failed_drain_keeps_blocks strandedRun
  have hfails : (Build.drain strandedRun).1 = .error (.build .emptyTermList) := rfl
  obtain ⟨hpushFails, hkeeps⟩ := hpush .rule (.build .emptyTermList)
  exact ⟨hfails, hdrain _ hfails, hpushFails.mpr hfails, hkeeps (hpushFails.mpr hfails)⟩

end Markup
