import Markup.Proofs.Doc.EarlyDrain

/-! # What a table takes

A table takes at most one of the runs that are drained into it.  Where its last row has a cell, it
never changes; where it has none, the first run becomes a cell in a row of its own, and from then on
the table never changes (`table_takes_first_run`).  Only the last row counts: a table with an empty
row behind its cells still takes a run (`ragged_table_takes_run`).

A table may stand anywhere among the blocks, so it is followed by its `BlockPlace`: an index, and
for each level further in a part of the block there and an index.  A run is drained into the block
at a place if the place is the last one at every level (`Reaches`), and nothing else in the tree is
moved (`blockAlong_of_absorbBlocks`).  Pushes and drains may fail; what a push did before it failed
counts as well (`Element.actsFrom`). -/

namespace Markup

/-! ### Places -/

/-- The blocks of a cell. -/
def TableCell.content : TableCell → List Block
  | mk content _ _ _ => content

/-- The parts of a block that hold blocks, in order. -/
def Block.parts : Block → List (List Block)
  | .blockQuote content | .tagged content _ | .defn _ content | .figure content _ => [content]
  | .list _ items => items.map ListItem.content
  | .termList items => items.map TermItem.content
  | .table _ rows => rows.flatten.map TableCell.content
  | .plain _ | .par _ | .codeBlock _ _ | .heading _ _ | .rule | .mathBlock _ | .foreign _ => []

/-- The block passes a run on to the last of its parts, if it has parts. -/
def Block.PassesOn : Block → Bool
  | .blockQuote _ | .tagged _ _ | .defn _ _ | .list _ _ | .termList _ => true
  | _ => false

/-- A way further in: at each level a part of the block there, and an index among its blocks. -/
abbrev Way := List (Nat × Nat)

/-- A place among blocks: the index of a block, and the way from there. -/
structure BlockPlace where
  index : Nat
  way : Way := []

/-- The block that the way from an index leads to. -/
def blockAlong (bs : List Block) (i : Nat) : Way → Option Block
  | [] => bs[i]?
  | (part, j) :: way => do
    let b ← bs[i]?
    let content ← b.parts[part]?
    blockAlong content j way

/-- A run that is drained into the blocks follows the way from the index to its end. -/
def ReachesAlong (bs : List Block) (i : Nat) : Way → Prop
  | [] => i + 1 = bs.length
  | (part, j) :: way =>
    i + 1 = bs.length ∧ ∃ b ∈ bs[i]?, b.PassesOn = true ∧ part + 1 = b.parts.length ∧
      ∃ content ∈ b.parts[part]?, ReachesAlong content j way

instance decidableReachesAlong (bs : List Block) (i : Nat) :
    (way : Way) → Decidable (ReachesAlong bs i way)
  | [] => inferInstanceAs (Decidable (i + 1 = bs.length))
  | (part, j) :: way =>
    have := fun content => decidableReachesAlong content j way
    inferInstanceAs (Decidable (i + 1 = bs.length ∧ ∃ b ∈ bs[i]?, b.PassesOn = true ∧
      part + 1 = b.parts.length ∧ ∃ content ∈ b.parts[part]?, ReachesAlong content j way))

/-- The block at a place. -/
def Builder.blockAt? (b : Builder) (place : BlockPlace) : Option Block :=
  blockAlong b.blocks place.index place.way

/-- A run that is drained into the builder's blocks goes to the block at the place. -/
def Builder.Reaches (b : Builder) (place : BlockPlace) : Prop :=
  ReachesAlong b.blocks place.index place.way

instance (b : Builder) (place : BlockPlace) : Decidable (b.Reaches place) :=
  decidableReachesAlong b.blocks place.index place.way

theorem blockAlong_congr {bs bs' : List Block} {i i' : Nat} (h : bs'[i']? = bs[i]?) :
    ∀ way : Way, blockAlong bs' i' way = blockAlong bs i way
  | [] => h
  | (part, j) :: way => by rw [blockAlong, blockAlong, h]

theorem ReachesAlong.last {bs : List Block} {i : Nat} :
    ∀ {way : Way}, ReachesAlong bs i way → i + 1 = bs.length
  | [], h => h
  | _ :: _, h => h.1

/-! ### What draining does at a place -/

/-- The rows of a table that took a run, or dropped it. -/
def rowsWith (run : List Inline) (rows : List (List TableCell)) : List (List TableCell) :=
  match rows.getLast? with
  | some (_ :: _) => rows
  | _ => rows ++ [[.mk [.plain run] none 1 1]]

theorem absorbTable_eq (run : List Inline) (columns : List TableColumn)
    (rows : List (List TableCell)) :
    ∃ log, absorbTable run columns rows = .ok (.table columns (rowsWith run rows), log) := by
  rw [absorbTable, rowsWith]
  rcases rows.getLast? with _ | _ | ⟨cell, cells⟩ <;> exact ⟨_, rfl⟩

/-- The cells that were there stay where they are. -/
theorem rowsWith_flatten (run : List Inline) (rows : List (List TableCell)) :
    ∃ more, (rowsWith run rows).flatten = rows.flatten ++ more := by
  unfold rowsWith
  split
  · exact ⟨[], (List.append_nil _).symm⟩
  · exact ⟨_, List.flatten_append⟩

section parts

variable {run : List Inline} {log : List LogEntry}

/-- A part of a block after a run was drained into the block: `last` says whether it is the one that
takes the run. -/
def PartAfter (run : List Inline) (last : Prop) (content : List Block)
    (after : Option (List Block)) : Prop :=
  (last → ∃ content' log, absorbBlocks run content = .ok (content', log) ∧ after = some content') ∧
    (¬ last → after = some content)

theorem PartAfter.of_absorb {last : Prop} {content content' : List Block} (hlast : last)
    (h : absorbBlocks run content = .ok (content', log)) :
    PartAfter run last content (some content') :=
  ⟨fun _ => ⟨content', log, h, rfl⟩, fun hnot => (hnot hlast).elim⟩

theorem PartAfter.of_not {last : Prop} {content : List Block} (hlast : ¬ last) :
    PartAfter run last content (some content) :=
  ⟨fun h => (hlast h).elim, fun _ => rfl⟩

theorem partAfter_of_absorbItems : ∀ {items drained : List ListItem},
    absorbItems run items = .ok (drained, log) → ∀ {part : Nat} {content : List Block},
      (items.map ListItem.content)[part]? = some content →
        PartAfter run (part + 1 = items.length) content (drained.map ListItem.content)[part]?
  | [], _, _, _, _, hpart => by cases hpart
  | [.mk content label], drained, h, 0, _, hpart => by
      rw [absorbItems] at h
      obtain ⟨content', habsorb, rfl⟩ := Absorbed.exists_of_rebuild h
      cases hpart
      exact .of_absorb rfl habsorb
  | [.mk content label], drained, h, part + 1, _, hpart => by cases hpart
  | .mk content label :: item :: rest, drained, h, part, content', hpart => by
      rw [absorbItems] at h
      obtain ⟨drained', habsorb, rfl⟩ := Absorbed.exists_of_rebuild h
      cases part with
      | zero =>
          cases hpart
          exact .of_not (by simp)
      | succ part =>
          rw [List.map_cons, List.getElem?_cons_succ] at hpart
          have hrest := partAfter_of_absorbItems habsorb hpart
          simpa [PartAfter] using hrest

theorem partAfter_of_absorbTerms : ∀ {items drained : List TermItem},
    absorbTerms run items = .ok (drained, log) → ∀ {part : Nat} {content : List Block},
      (items.map TermItem.content)[part]? = some content →
        PartAfter run (part + 1 = items.length) content (drained.map TermItem.content)[part]?
  | [], _, _, _, _, hpart => by cases hpart
  | [.mk term content], drained, h, 0, _, hpart => by
      rw [absorbTerms] at h
      obtain ⟨content', habsorb, rfl⟩ := Absorbed.exists_of_rebuild h
      cases hpart
      exact .of_absorb rfl habsorb
  | [.mk term content], drained, h, part + 1, _, hpart => by cases hpart
  | .mk term content :: item :: rest, drained, h, part, content', hpart => by
      rw [absorbTerms] at h
      obtain ⟨drained', habsorb, rfl⟩ := Absorbed.exists_of_rebuild h
      cases part with
      | zero =>
          cases hpart
          exact .of_not (by simp)
      | succ part =>
          rw [List.map_cons, List.getElem?_cons_succ] at hpart
          have hrest := partAfter_of_absorbTerms habsorb hpart
          simpa [PartAfter] using hrest

/-- A block that a run is drained into keeps its place and its parts, but for the part that takes
the run. -/
theorem partAfter_of_absorbBlock {b : Block} {drained : List Block}
    (h : absorbBlock run b = .ok (drained, log)) :
    ∃ b' rest, drained = b' :: rest ∧ ∀ {part : Nat} {content : List Block},
      b.parts[part]? = some content →
        PartAfter run (b.PassesOn = true ∧ part + 1 = b.parts.length) content b'.parts[part]? := by
  cases b with
  | plain _ | par _ | codeBlock _ _ | heading _ _ | rule | mathBlock _ | foreign _ =>
      rw [absorbBlock] at h
      cases h
      exact ⟨_, _, rfl, fun hpart => by cases hpart⟩
  | figure content caption =>
      rw [absorbBlock] at h
      cases h
      refine ⟨_, _, rfl, fun hpart => ?_⟩
      have hsame : (Block.figure content (caption ++ run)).parts =
          (Block.figure content caption).parts := rfl
      rw [hsame, hpart]
      exact .of_not fun hpasses => by cases hpasses.1
  | blockQuote content | tagged content _ | defn _ content =>
      rw [absorbBlock] at h
      obtain ⟨content', habsorb, rfl⟩ := Absorbed.exists_of_rebuild h
      refine ⟨_, _, rfl, fun {part} _ hpart => ?_⟩
      cases part with
      | zero =>
          cases hpart
          exact .of_absorb ⟨rfl, rfl⟩ habsorb
      | succ part => cases hpart
  | list kind items =>
      rw [absorbBlock] at h
      obtain ⟨items', habsorb, rfl⟩ := Absorbed.exists_of_rebuild h
      refine ⟨_, _, rfl, fun hpart => ?_⟩
      simpa [PartAfter, Block.PassesOn, Block.parts] using partAfter_of_absorbItems habsorb hpart
  | termList items =>
      rw [absorbBlock] at h
      obtain ⟨items', habsorb, rfl⟩ := Absorbed.exists_of_rebuild h
      refine ⟨_, _, rfl, fun hpart => ?_⟩
      simpa [PartAfter, Block.PassesOn, Block.parts] using partAfter_of_absorbTerms habsorb hpart
  | table columns rows =>
      obtain ⟨told, htable⟩ := absorbTable_eq run columns rows
      rw [absorbBlock, htable] at h
      cases h
      refine ⟨_, _, rfl, fun {part} content hpart => ?_⟩
      obtain ⟨more, hmore⟩ := rowsWith_flatten run rows
      have hkept : (Block.table columns (rowsWith run rows)).parts[part]? = some content := by
        rw [Block.parts] at hpart ⊢
        rw [hmore, List.map_append, List.getElem?_append_left, hpart]
        exact (List.getElem?_eq_some_iff.mp hpart).1
      rw [hkept]
      exact .of_not fun hpasses => by cases hpasses.1

/-- The blocks that a run is drained into: those in front of the last one stay, and the last one is
followed by what it does not take. -/
theorem exists_of_absorbBlocks {bs drained : List Block} {i : Nat} (hi : i + 1 = bs.length)
    (h : absorbBlocks run bs = .ok (drained, log)) :
    ∃ b, bs[i]? = some b ∧ ∃ after, absorbBlock run b = .ok (after, log) ∧
      ∀ b' rest, after = b' :: rest → drained[i]? = some b' := by
  rcases List.eq_nil_or_concat bs with rfl | ⟨front, b, rfl⟩
  · cases hi
  · rw [List.concat_eq_append] at hi h ⊢
    obtain rfl : i = front.length := by simpa using hi
    rw [absorbBlocks_append run (List.cons_ne_nil _ _)] at h
    obtain ⟨after, habsorb, rfl⟩ := Absorbed.exists_of_rebuild h
    rw [absorbBlocks] at habsorb
    refine ⟨b, List.getElem?_concat_length, after, habsorb, ?_⟩
    rintro b' rest rfl
    simp

theorem getElem?_of_absorbBlocks {bs drained : List Block} {i : Nat} (hi : i + 1 < bs.length)
    (h : absorbBlocks run bs = .ok (drained, log)) : drained[i]? = bs[i]? := by
  rcases List.eq_nil_or_concat bs with rfl | ⟨front, b, rfl⟩
  · cases hi
  · rw [List.concat_eq_append] at hi h ⊢
    rw [absorbBlocks_append run (List.cons_ne_nil _ _)] at h
    obtain ⟨after, -, rfl⟩ := Absorbed.exists_of_rebuild h
    have hfront : i < front.length := by simpa using hi
    rw [List.getElem?_append_left hfront, List.getElem?_append_left hfront]

/-- **Draining a run changes no table but the one that it goes to.** -/
theorem blockAlong_of_absorbBlocks {columns : List TableColumn} {rows : List (List TableCell)} :
    ∀ {way : Way} {bs drained : List Block} {i : Nat} {log : List LogEntry},
      absorbBlocks run bs = .ok (drained, log) →
      blockAlong bs i way = some (.table columns rows) →
      blockAlong drained i way =
        some (.table columns (if ReachesAlong bs i way then rowsWith run rows else rows))
  | [], bs, drained, i, log, h, hat => by
      rw [blockAlong] at hat ⊢
      by_cases hi : i + 1 = bs.length
      · rw [if_pos (show ReachesAlong bs i [] from hi)]
        obtain ⟨b, hb, after, habsorb, hafter⟩ := exists_of_absorbBlocks hi h
        obtain rfl : b = .table columns rows := Option.some.inj (hb.symm.trans hat)
        obtain ⟨told, htable⟩ := absorbTable_eq run columns rows
        rw [absorbBlock, htable] at habsorb
        cases habsorb
        exact hafter _ _ rfl
      · rw [if_neg (show ¬ ReachesAlong bs i [] from hi), ← hat]
        have hlt := (List.getElem?_eq_some_iff.mp hat).1
        exact getElem?_of_absorbBlocks (by omega) h
  | (part, j) :: way, bs, drained, i, log, h, hat => by
      have hat' := hat
      rw [blockAlong] at hat'
      obtain ⟨b, hb, hat'⟩ := Option.bind_eq_some_iff.mp hat'
      obtain ⟨content, hpart, hinside⟩ := Option.bind_eq_some_iff.mp hat'
      by_cases hi : i + 1 = bs.length
      · obtain ⟨c, hc, after, habsorb, hafter⟩ := exists_of_absorbBlocks hi h
        obtain rfl : c = b := Option.some.inj (hc.symm.trans hb)
        obtain ⟨b', rest, rfl, hparts⟩ := partAfter_of_absorbBlock habsorb
        obtain ⟨htakes, hkeeps⟩ := hparts hpart
        have hreaches : ReachesAlong bs i ((part, j) :: way) ↔
            (c.PassesOn = true ∧ part + 1 = c.parts.length) ∧ ReachesAlong content j way := by
          simp [ReachesAlong, hi, hc, hpart, and_assoc]
        rw [blockAlong, hafter b' rest rfl]
        by_cases hpasses : c.PassesOn = true ∧ part + 1 = c.parts.length
        · -- The run goes on into this part, and on from there.
          obtain ⟨content', log', hcontent, hpart'⟩ := htakes hpasses
          have hrec := blockAlong_of_absorbBlocks hcontent hinside
          rw [Option.bind_eq_bind, Option.bind_some, hpart']
          simpa only [hreaches, hpasses, true_and, and_self, Option.bind_eq_bind,
            Option.bind_some] using hrec
        · rw [if_neg fun hr => hpasses (hreaches.mp hr).1]
          rw [Option.bind_eq_bind, Option.bind_some, hkeeps hpasses]
          exact hinside
      · rw [if_neg fun hr => hi hr.last, ← hat]
        have hlt := (List.getElem?_eq_some_iff.mp hb).1
        exact blockAlong_congr (getElem?_of_absorbBlocks (by omega) h) _

/-! ### A table never refuses -/

theorem getLast?_of_absorbItems_error {e : BuildError} {items : List ListItem}
    (h : absorbItems run items = .error e) :
    ∃ content ∈ (items.map ListItem.content).getLast?, absorbBlocks run content = .error e := by
  induction items with
  | nil =>
      rw [absorbItems] at h
      cases h
  | cons first rest ih =>
      obtain ⟨content, label⟩ := first
      cases rest with
      | nil =>
          rw [absorbItems] at h
          exact ⟨content, rfl, Absorbed.eq_error_of_rebuild h⟩
      | cons item rest =>
          rw [absorbItems] at h
          obtain ⟨last, hlast, herror⟩ := ih (Absorbed.eq_error_of_rebuild h)
          exact ⟨last, by simpa using hlast, herror⟩

theorem getLast?_of_absorbTerms_error {e : BuildError} : ∀ {items : List TermItem},
    absorbTerms run items = .error e → items ≠ [] →
      ∃ content ∈ (items.map TermItem.content).getLast?, absorbBlocks run content = .error e
  | [], _, hne => (hne rfl).elim
  | [.mk term content], h, _ => by
      rw [absorbTerms] at h
      exact ⟨content, rfl, Absorbed.eq_error_of_rebuild h⟩
  | .mk term content :: item :: rest, h, _ => by
      rw [absorbTerms] at h
      obtain ⟨last, hlast, herror⟩ :=
        getLast?_of_absorbTerms_error (Absorbed.eq_error_of_rebuild h) (List.cons_ne_nil _ _)
      exact ⟨last, by simpa using hlast, herror⟩

/-- A block with parts refuses a run only if the last of them does. -/
theorem getLast?_of_absorbBlock_error {b : Block} {e : BuildError}
    (h : absorbBlock run b = .error e) (hne : b.parts ≠ []) :
    ∃ content ∈ b.parts.getLast?, absorbBlocks run content = .error e := by
  cases b with
  | plain _ | par _ | codeBlock _ _ | heading _ _ | rule | mathBlock _ | foreign _ =>
      exact (hne rfl).elim
  | figure content caption =>
      rw [absorbBlock] at h
      cases h
  | blockQuote content | tagged content _ | defn _ content =>
      rw [absorbBlock] at h
      exact ⟨content, rfl, Absorbed.eq_error_of_rebuild h⟩
  | list kind items =>
      rw [absorbBlock] at h
      exact getLast?_of_absorbItems_error (Absorbed.eq_error_of_rebuild h)
  | termList items =>
      rw [absorbBlock] at h
      refine getLast?_of_absorbTerms_error (Absorbed.eq_error_of_rebuild h) ?_
      rintro rfl
      exact hne rfl
  | table columns rows =>
      obtain ⟨log, htable⟩ := absorbTable_eq run columns rows
      rw [absorbBlock, htable] at h
      cases h

theorem absorbBlock_of_absorbBlocks_error {bs : List Block} {b : Block} {i : Nat} {e : BuildError}
    (hi : i + 1 = bs.length) (hb : bs[i]? = some b) (h : absorbBlocks run bs = .error e) :
    absorbBlock run b = .error e := by
  rcases List.eq_nil_or_concat bs with rfl | ⟨front, c, rfl⟩
  · cases hi
  · rw [List.concat_eq_append] at hi h hb
    obtain rfl : i = front.length := by simpa using hi
    obtain rfl : c = b := by simpa using hb
    rw [absorbBlocks_append run (List.cons_ne_nil _ _)] at h
    have hlast := Absorbed.eq_error_of_rebuild h
    rwa [absorbBlocks] at hlast

/-- A run that goes to a table is not refused. -/
theorem absorbBlocks_ne_error {columns : List TableColumn} {rows : List (List TableCell)}
    {e : BuildError} : ∀ {way : Way} {bs : List Block} {i : Nat},
      blockAlong bs i way = some (.table columns rows) → ReachesAlong bs i way →
        absorbBlocks run bs ≠ .error e
  | [], bs, i, hat, hreaches, h => by
      have hlast := absorbBlock_of_absorbBlocks_error hreaches hat h
      obtain ⟨log, htable⟩ := absorbTable_eq run columns rows
      rw [absorbBlock, htable] at hlast
      cases hlast
  | (part, j) :: way, bs, i, hat, ⟨hi, b, hb, _, hpart, content, hcontent, hreaches⟩, h => by
      have hinside : blockAlong content j way = some (.table columns rows) := by
        rw [blockAlong, Option.mem_def.mp hb] at hat
        rw [← hat, Option.bind_eq_bind, Option.bind_some, Option.mem_def.mp hcontent]
        rfl
      have hne : b.parts ≠ [] := by
        intro hnil
        rw [hnil] at hpart
        cases hpart
      obtain ⟨last, hlast, herror⟩ :=
        getLast?_of_absorbBlock_error (absorbBlock_of_absorbBlocks_error hi hb h) hne
      obtain rfl : last = content := by
        rw [List.getLast?_eq_getElem?, ← hpart, Nat.add_sub_cancel] at hlast
        exact Option.some.inj (hlast.symm.trans hcontent)
      exact absorbBlocks_ne_error hinside hreaches herror

end parts

/-! ### One act after the other -/

/-- The session after acts, whether they fail or not. -/
def actsAfter (s : Session) (acts : List Act) : Session := acts.foldl (fun s a => (a.perform s).2) s

/-- The act drains a run. -/
def Act.Drains (s : Session) : Act → Prop
  | .inline _ => False
  | .block _ | .drain => s.builder.pending ≠ []

instance (s : Session) : (a : Act) → Decidable (a.Drains s)
  | .inline _ => .isFalse id
  | .block _ | .drain => inferInstanceAs (Decidable (s.builder.pending ≠ []))

/-- The runs that acts drain into the block at a place, in order. -/
def runsInto (place : BlockPlace) : Session → List Act → List (List Inline)
  | _, [] => []
  | s, a :: acts =>
    (if a.Drains s ∧ s.builder.Reaches place then [s.builder.pending] else []) ++
      runsInto place (a.perform s).2 acts

/-- There is a cell in the last row. -/
def HasLastCell (rows : List (List TableCell)) : Prop :=
  ∃ cell cells, rows.getLast? = some (cell :: cells)

/-- The row that the first of some runs comes to. -/
def firstRow (runs : List (List Inline)) : List (List TableCell) :=
  (runs.head?.map fun run => [.mk [.plain run] none 1 1]).toList

section acts

variable {s : Session} {place : BlockPlace} {columns : List TableColumn}
  {rows : List (List TableCell)}

theorem rowsWith_of_hasLastCell {run : List Inline} (h : HasLastCell rows) :
    rowsWith run rows = rows := by
  obtain ⟨cell, cells, hlast⟩ := h
  rw [rowsWith, hlast]

theorem rowsWith_of_not_hasLastCell {run : List Inline} (h : ¬ HasLastCell rows) :
    rowsWith run rows = rows ++ [[.mk [.plain run] none 1 1]] := by
  rw [rowsWith]
  rcases hlast : rows.getLast? with _ | _ | ⟨cell, cells⟩
  · rfl
  · rfl
  · exact (h ⟨cell, cells, hlast⟩).elim

theorem hasLastCell_concat {cell : TableCell} {cells : List TableCell} :
    HasLastCell (rows ++ [cell :: cells]) := ⟨cell, cells, List.getLast?_concat⟩

theorem blockAlong_append {bs : List Block} {b : Block} {i : Nat} {way : Way} (more : List Block)
    (h : blockAlong bs i way = some b) : blockAlong (bs ++ more) i way = some b := by
  have hi : i < bs.length := by
    cases way with
    | nil => exact (List.getElem?_eq_some_iff.mp h).1
    | cons level way =>
        obtain ⟨c, hc, -⟩ := Option.bind_eq_some_iff.mp h
        exact (List.getElem?_eq_some_iff.mp hc).1
  rw [blockAlong_congr (List.getElem?_append_left hi), h]

/-- A drain changes no table but the one that the run goes to. -/
theorem blockAt?_of_drain (h : s.builder.blockAt? place = some (.table columns rows)) :
    (Build.drain s).2.builder.blockAt? place = some (.table columns
      (if s.builder.pending ≠ [] ∧ s.builder.Reaches place then rowsWith s.builder.pending rows
        else rows)) := by
  by_cases hnil : s.builder.pending = []
  · rw [drain_of_pending_nil hnil, if_neg fun hboth => hboth.1 hnil]
    exact h
  · cases hdrain : absorbBlocks s.builder.pending s.builder.blocks with
    | error e =>
        have hmisses : ¬ s.builder.Reaches place := fun hreaches =>
          absorbBlocks_ne_error h hreaches hdrain
        rw [drain_of_absorb_error hnil hdrain, if_neg fun hboth => hmisses hboth.2]
        exact h
    | ok drained =>
        rw [drain_of_absorb_ok hnil hdrain]
        have htable := blockAlong_of_absorbBlocks hdrain h
        simp only [hnil, ne_eq, not_false_eq_true, true_and]
        exact htable

/-- **No act changes a table but by draining a run into it.** -/
theorem Act.blockAt?_of_perform (a : Act)
    (h : s.builder.blockAt? place = some (.table columns rows)) :
    (a.perform s).2.builder.blockAt? place = some (.table columns
      (if a.Drains s ∧ s.builder.Reaches place then rowsWith s.builder.pending rows
        else rows)) := by
  cases a with
  | inline value =>
      rw [if_neg fun hboth => hboth.1]
      exact h
  | drain => exact blockAt?_of_drain h
  | block value =>
      have hdrain := blockAt?_of_drain h
      rw [Act.perform, Build.pushBlock, bind_run]
      rcases hrun : Build.drain s with ⟨e | u, s'⟩
      · rw [hrun] at hdrain
        exact hdrain
      · rw [hrun] at hdrain
        exact blockAlong_append [value] hdrain

/-- What acts do to a table whose last row has a cell: nothing. -/
theorem blockAt?_of_hasLastCell (hcell : HasLastCell rows) : ∀ (acts : List Act) {s : Session},
    s.builder.blockAt? place = some (.table columns rows) →
      (actsAfter s acts).builder.blockAt? place = some (.table columns rows)
  | [], _, h => h
  | a :: acts, _, h => by
      refine blockAt?_of_hasLastCell hcell acts ?_
      rw [a.blockAt?_of_perform h, rowsWith_of_hasLastCell hcell, ite_self]

/-- What acts do to a table whose last row has no cell: it takes the first run. -/
theorem blockAt?_of_not_hasLastCell (hcell : ¬ HasLastCell rows) :
    ∀ (acts : List Act) {s : Session}, s.builder.blockAt? place = some (.table columns rows) →
      (actsAfter s acts).builder.blockAt? place =
        some (.table columns (rows ++ firstRow (runsInto place s acts)))
  | [], _, h => by
      rw [runsInto]
      exact h.trans (by rw [firstRow, List.head?_nil, Option.map_none, Option.toList_none,
        List.append_nil])
  | a :: acts, s, h => by
      have hstep := a.blockAt?_of_perform h
      rw [runsInto]
      by_cases htakes : a.Drains s ∧ s.builder.Reaches place
      · rw [if_pos htakes, rowsWith_of_not_hasLastCell hcell] at hstep
        rw [if_pos htakes]
        exact blockAt?_of_hasLastCell hasLastCell_concat acts hstep
      · rw [if_neg htakes] at hstep
        rw [if_neg htakes]
        exact blockAt?_of_not_hasLastCell hcell acts hstep

theorem ne_nil_of_mem_runsInto {run : List Inline} : ∀ {acts : List Act} {s : Session},
    run ∈ runsInto place s acts → run ≠ []
  | a :: acts, s, h => by
      rw [runsInto, List.mem_append] at h
      rcases h with hfirst | hrest
      · split at hfirst
        · next htakes =>
            rw [List.mem_singleton.mp hfirst]
            cases a with
            | inline value => exact htakes.1.elim
            | block value => exact htakes.1
            | drain => exact htakes.1
        · cases hfirst
      · exact ne_nil_of_mem_runsInto hrest

end acts

/-! ### Pushing -/

mutual

/-- What pushing an element comes to, up to the first thing that fails. -/
def Element.actsFrom (s : Session) : Element → List Act
  | .text text => [.inline (.text text)]
  | .span span => [.inline (.text span.fragment)]
  | .inline value => [.inline value]
  | .block value => [.block value]
  | .seq elements => elementsActsFrom s elements
  | .other _ => []

/-- What pushing elements in turn comes to, up to the first thing that fails. -/
def elementsActsFrom (s : Session) : List Element → List Act
  | [] => []
  | e :: rest =>
    e.actsFrom s ++
      match Build.push e s with
      | (.ok _, s') => elementsActsFrom s' rest
      | (.error _, _) => []

end

mutual

theorem actsAfter_actsFrom : ∀ (e : Element) (s : Session),
    actsAfter s (e.actsFrom s) = (Build.push e s).2
  | .text _, _ | .span _, _ | .inline _, _ | .block _, _ => by
      rw [Element.actsFrom, Build.push]
      rfl
  | .seq elements, s => by
      rw [Element.actsFrom, Build.push]
      exact actsAfter_elementsActsFrom elements s
  | .other _, _ => by
      rw [Element.actsFrom, Build.push]
      rfl

theorem actsAfter_elementsActsFrom : ∀ (es : List Element) (s : Session),
    actsAfter s (elementsActsFrom s es) = (Build.pushAll es s).2
  | [], s => by
      rw [elementsActsFrom, Build.pushAll]
      rfl
  | e :: rest, s => by
      have hfirst := actsAfter_actsFrom e s
      unfold actsAfter at hfirst ⊢
      rw [elementsActsFrom, Build.pushAll, bind_run, List.foldl_append, hfirst]
      rcases hpush : Build.push e s with ⟨f | u, s'⟩
      · rfl
      · exact actsAfter_elementsActsFrom rest s'

end

/-- What a step comes to, up to the first thing that fails. -/
def BuildStep.actsFrom (s : Session) : BuildStep → List Act
  | .push element => element.actsFrom s
  | .drain => [.drain]

/-- What steps come to; one that fails does not keep the next ones from being taken. -/
def stepsActs : Session → List BuildStep → List Act
  | _, [] => []
  | s, b :: rest => b.actsFrom s ++ stepsActs (b.perform s).2 rest

/-- The session after steps, whether they fail or not. -/
def stepsAfter (s : Session) (steps : List BuildStep) : Session :=
  steps.foldl (fun s b => (b.perform s).2) s

theorem actsAfter_stepsActs : ∀ (steps : List BuildStep) (s : Session),
    actsAfter s (stepsActs s steps) = stepsAfter s steps
  | [], _ => rfl
  | b :: rest, s => by
      have hfirst : actsAfter s (b.actsFrom s) = (b.perform s).2 := by
        cases b with
        | push element => exact actsAfter_actsFrom element s
        | drain => rfl
      have hrest := actsAfter_stepsActs rest (b.perform s).2
      unfold actsAfter at hfirst hrest ⊢
      rw [stepsActs, List.foldl_append, hfirst, hrest]
      rfl

/-- A block that is pushed stands last. -/
theorem blockAt?_of_pushBlock {s pushed : Session} {value b : Block} {way : Way}
    (hpush : Build.pushBlock value s = (.ok (), pushed)) (h : blockAlong [value] 0 way = some b) :
    pushed.builder.blockAt? ⟨pushed.builder.blocks.length - 1, way⟩ = some b := by
  obtain ⟨drained, -, rfl⟩ := exists_of_pushBlock hpush
  have hlast :
      (drained.builder.blocks ++ [value])[(drained.builder.blocks ++ [value]).length - 1]? =
        [value][0]? := by simp
  exact (blockAlong_congr hlast way).trans h

/-- **A table takes the first run that is drained into it, if its last row has no cell, and nothing
else ever changes it.**  The table stands anywhere in a block that is pushed in the course of any
steps; `later` is what these steps do from then on. -/
theorem table_takes_first_run {s pushed : Session} {steps : List BuildStep}
    {earlier later : List Act} {value : Block} {way : Way} {columns : List TableColumn}
    {rows : List (List TableCell)} (hacts : stepsActs s steps = earlier ++ .block value :: later)
    (hpush : Build.pushBlock value (actsAfter s earlier) = (.ok (), pushed))
    (htable : blockAlong [value] 0 way = some (.table columns rows)) :
    let place : BlockPlace := ⟨pushed.builder.blocks.length - 1, way⟩
    let runs := runsInto place pushed later
    let now := (stepsAfter s steps).builder.blockAt? place
    (HasLastCell rows → now = some (.table columns rows)) ∧
      (¬ HasLastCell rows → now = some (.table columns (rows ++ firstRow runs))) ∧
      ∀ run ∈ runs, run ≠ [] := by
  intro place runs now
  have hthen : pushed.builder.blockAt? place = some (.table columns rows) :=
    blockAt?_of_pushBlock hpush htable
  have hnow : now = (actsAfter pushed later).builder.blockAt? place := by
    have hafter := actsAfter_stepsActs steps s
    rw [hacts, actsAfter, List.foldl_append, List.foldl_cons, Act.perform] at hafter
    unfold actsAfter at hpush
    rw [hpush] at hafter
    exact congrArg (fun t => t.builder.blockAt? place) hafter.symm
  rw [hnow]
  exact ⟨fun hcell => blockAt?_of_hasLastCell hcell later hthen,
    fun hcell => blockAt?_of_not_hasLastCell hcell later hthen,
    fun run hrun => ne_nil_of_mem_runsInto hrun⟩

/-- A table without cells, last in a definition in a quotation. -/
def quotedTable : Block := .blockQuote [.termList [.mk [] [.rule, .table [] [[]]]]]

/-- The table is pushed behind some text, and with text behind it that becomes its cell; the next
push fails half way, and what it left pending is dropped. -/
def tableSteps : List BuildStep :=
  [.push (.text "a"), .push (.seq [.block quotedTable, .text "b"]), .drain,
    .push (.seq [.text "c", .other (.scalar .integer), .text "d"]), .drain]

theorem table_takes_first_run_nested :
    (stepsAfter {} tableSteps).builder.blockAt? ⟨1, [(0, 0), (0, 1)]⟩ =
      some (.table [] [[], [.mk [.plain [.text "b"]] none 1 1]]) := by
  have hacts : stepsActs {} tableSteps = [.inline (.text "a")] ++ .block quotedTable ::
      [.inline (.text "b"), .drain, .inline (.text "c"), .drain] := rfl
  have htable : blockAlong [quotedTable] 0 [(0, 0), (0, 1)] = some (.table [] [[]]) := rfl
  refine (table_takes_first_run hacts rfl htable).2.1 ?_
  rintro ⟨cell, cells, hlast⟩
  cases hlast

/-- Cells in front of an empty last row do not count: the table takes a run all the same. -/
theorem ragged_table_takes_run :
    ¬ ∀ (rows : List (List TableCell)) (text : String), (∃ row ∈ rows, row ≠ []) →
      (build [.push (.block (.table [] rows)), .push (.text text), .drain] {}).1 =
        .ok [.table [] rows] := by
  intro h
  have hragged := h [[.mk [] none 1 1], []] "a" ⟨_, List.mem_cons_self, List.cons_ne_nil _ _⟩
  cases hragged

end Markup
