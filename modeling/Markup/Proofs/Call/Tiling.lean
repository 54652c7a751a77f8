import Markup.Proofs.Call.Regions
import Mathlib.Data.List.Chain
import Mathlib.Logic.Relation

/-! # The pieces of a region lie side by side

What is read off a region takes up the whole of it, piece after piece: a text takes up its span, a
command what stands from its backslash to the end of its last argument, and a paragraph command the
run of newlines that it is made of (`Piece.TakesUp`).  No piece is empty, each begins where the one
before it ends, and the last one ends where the region does (`Tiles`).  Every piece is as long as it
can be, so that no run of text follows another one, and no newline stands beside another unless both
belong to one paragraph command.

Reading fails exactly if the scan comes to a place where none of the three can be taken
(`Blocked`).  The main statement is `readMarkup_tiles`. -/

namespace Markup

open Text

/-! ### What pieces take up -/

/-- The offset behind the last argument of a call, or behind its name if it has none. -/
def Call.stop (c : Call) : Int :=
  match c.args.getLast? with
  | some a => a.value.stop + 1
  | none => c.name.stop

/-- The text does not end in a newline, nor in the first half of one. -/
def NoBreakBefore (cs : List Char) : Prop := ∀ c ∈ cs.getLast?, c ≠ '\r' ∧ c ≠ '\n'

/-- The piece takes up `part` of a region, between `before` and `after`. -/
inductive Piece.TakesUp (region : Span) (before part after : List Char) : Piece → Prop
  /-- Text characters, as many as there are. -/
  | run {span : Span} (hspan : span.Covers (region.offset + before.length) part)
      (hrun : ∀ c ∈ part, isTextChar c = true)
      (hstop : ∀ c ∈ after.head?, isTextChar c = false) :
      TakesUp region before part after (.text span)
  /-- A newline that has no other beside it. -/
  | newline {span : Span} {e : Newline} (hpart : part = e.chars)
      (hspan : span.Covers (region.offset + before.length) part)
      (hbefore : NoBreakBefore before) (hafter : NoBreak after) :
      TakesUp region before part after (.text span)
  /-- Two or more newlines, as many as there are; the paragraph command is at the last one. -/
  | paragraph {c : Call} {ends : List Newline} {last : Newline}
      (hpart : part = ends.flatMap Newline.chars ++ last.chars) (hmany : ends ≠ [])
      (hbefore : NoBreakBefore before) (hafter : NoBreak after)
      (hname : c.name.fragment = parCommand)
      (hoffset : c.name.offset =
        region.offset + before.length + (ends.flatMap Newline.chars).length)
      (hargs : c.args = []) : TakesUp region before part after (.call c)
  /-- A backslash, a name and as many arguments as there are, all of them closed. -/
  | command {c : Call} {name : List Char} {args : List RawArgument}
      (hcommand : CommandAt (part ++ after) name args after) (hclosed : ¬ Unclosed after)
      (hname : c.name.Covers (region.offset + before.length + 1) name)
      (hargs : ArgumentsRead (region.offset + before.length + 1 + name.length) args c.args)
      (hstop : c.stop = region.offset + before.length + part.length) :
      TakesUp region before part after (.call c)

/-- The pieces take up what stands behind `before` in a region, one after the other up to its
end. -/
inductive Tiles (region : Span) : List Char → List Piece → Prop
  | done : Tiles region region.fragment.toList []
  | next {before part after : List Char} {p : Piece} {rest : List Piece}
      (hchars : region.fragment.toList = before ++ part ++ after) (hne : part ≠ [])
      (hp : p.TakesUp region before part after) (h : Tiles region (before ++ part) rest) :
      Tiles region before (p :: rest)

/-- A piece that is a run of text, not a newline or a command. -/
def Piece.IsRun : Piece → Prop
  | .text span => ∀ c ∈ span.fragment.toList, isTextChar c = true
  | .call _ => False

/-! ### Single steps -/

/-- The last argument of a call ends where its characters do. -/
theorem Argument.Reads.stop {offset : Int} {content : List Char} {a : Argument}
    (h : a.Reads offset content) : a.value.stop = offset + content.length := by
  rcases h with ⟨key, value, name, ⟨rfl, -⟩, -, -, hoffset, hvalue⟩ | ⟨-, -, hoffset, hvalue⟩
  · rw [Span.stop, hoffset, hvalue, String.length_ofList, List.length_append, List.length_cons]
    omega
  · rw [Span.stop, hoffset, hvalue, String.length_ofList]

theorem ArgumentsRead.stop {offset : Int} {raws : List RawArgument} {args : List Argument}
    (h : ArgumentsRead offset raws args) (hne : args ≠ []) :
    ∃ a, args.getLast? = some a ∧
      a.value.stop + 1 = offset + (raws.flatMap RawArgument.chars).length := by
  induction h with
  | nil => exact (hne rfl).elim
  | @cons offset raw raws a args ha h ih =>
      have hchars : raw.chars.length = raw.space.length + 1 + raw.content.length + 1 := by
        simp only [RawArgument.chars, List.length_append, List.length_cons, List.length_nil]
        omega
      rw [List.flatMap_cons, List.length_append]
      cases args with
      | nil =>
          cases h
          refine ⟨a, rfl, ?_⟩
          have hstop := ha.stop
          simp only [List.flatMap_nil, List.length_nil]
          omega
      | cons b args =>
          obtain ⟨last, hlast, hstop⟩ := ih (List.cons_ne_nil b args)
          refine ⟨last, ?_, ?_⟩
          · rw [List.getLast?_cons_cons]
            exact hlast
          · omega

/-- A call ends where the characters of its name and its arguments do. -/
theorem Call.stop_eq {c : Call} {offset : Int} {name : List Char} {args : List RawArgument}
    (hname : c.name.Covers offset name) (hargs : ArgumentsRead (offset + name.length) args c.args) :
    c.stop = offset + name.length + (args.flatMap RawArgument.chars).length := by
  unfold Call.stop
  by_cases hne : c.args = []
  · have hlength := hargs.length_eq
    rw [hne, List.length_nil] at hlength
    have hnone : args = [] := List.length_eq_zero_iff.mp hlength.symm
    rw [hne, hnone, List.getLast?_nil]
    dsimp only
    rw [Span.stop, hname.1, hname.2, String.length_ofList]
    simp
  · obtain ⟨a, hlast, hstop⟩ := hargs.stop hne
    rw [hlast]
    exact hstop

theorem ScanStep.chars_ne_nil {cs rest : List Char} {p : RawPiece} (h : ScanStep cs p rest) :
    p.chars ≠ [] := by
  cases h with
  | call h => simp [RawPiece.chars]
  | text hne => exact hne
  | @breaks ends _ hne =>
      cases ends with
      | nil => exact (hne rfl).elim
      | cons e ends =>
          have he := List.ne_nil_of_length_pos e.length_chars_pos
          simp [RawPiece.chars, he]

theorem NameAt.noBreakBefore {cs name after : List Char} (h : NameAt cs name after) :
    NoBreakBefore name := by
  obtain ⟨c, more, rfl, hc, hmore⟩ := h.name
  have hstart : isNameStart '\r' = false ∧ isNameStart '\n' = false := by decide +kernel
  have hcontinue : isNameContinue '\r' = false ∧ isNameContinue '\n' = false := by decide +kernel
  intro d hd
  rcases List.mem_cons.mp (List.mem_of_getLast? hd) with rfl | hd
  · constructor
    · rintro rfl
      simp [hstart.1] at hc
    · rintro rfl
      simp [hstart.2] at hc
  · have hall := List.all_eq_true.mp hmore d hd
    constructor
    · rintro rfl
      simp [hcontinue.1] at hall
    · rintro rfl
      simp [hcontinue.2] at hall

theorem noBreakBefore_append {before part : List Char} (hne : part ≠ [])
    (h : NoBreakBefore part) : NoBreakBefore (before ++ part) := by
  unfold NoBreakBefore at h ⊢
  rw [List.getLast?_append_of_ne_nil before hne]
  exact h

theorem NoBreak.eq_nil {ends : List Newline} {rest : List Char}
    (h : NoBreak (ends.flatMap Newline.chars ++ rest)) : ends = [] := by
  cases ends with
  | nil => rfl
  | cons e more =>
      refine (h e ?_).elim
      rw [List.flatMap_cons, List.append_assoc]
      exact List.prefix_append _ _

/-- Newlines never lie on both sides of the place where a step ends. -/
theorem ScanStep.noBreak_or {cs rest : List Char} {p : RawPiece} (h : ScanStep cs p rest) :
    NoBreak rest ∨ NoBreakBefore p.chars := by
  cases h with
  | breaks hne hstop => exact .inl hstop
  | text hne hrun hstop =>
      right
      intro c hc
      have htext := hrun c (List.mem_of_getLast? hc)
      constructor
      · rintro rfl
        cases htext
      · rintro rfl
        cases htext
  | @call _ name args _ h hclosed =>
      obtain ⟨after, hname, -⟩ := h
      right
      have hne : name ≠ [] := by
        obtain ⟨c, more, rfl, -⟩ := hname.name
        exact List.cons_ne_nil c more
      rcases List.eq_nil_or_concat args with rfl | ⟨others, a, rfl⟩
      · rw [RawPiece.chars, List.flatMap_nil, List.append_nil]
        have hslash : '\\' :: name = ['\\'] ++ name := rfl
        rw [hslash]
        exact noBreakBefore_append hne hname.noBreakBefore
      · rw [List.concat_eq_append]
        have hchars : RawPiece.chars (.call name (others ++ [a])) =
            ('\\' :: name ++ others.flatMap RawArgument.chars ++ (a.space ++ '{' :: a.content)) ++
              ['}'] := by simp [RawPiece.chars, RawArgument.chars]
        rw [hchars]
        refine noBreakBefore_append (List.cons_ne_nil _ _) ?_
        intro c hc
        obtain rfl := Option.some.inj hc
        decide

/-! ### Readers -/

namespace Reader

variable (r : Reader)

theorem arguments_after (args : List RawArgument) :
    (r.arguments args).2.text = r.text ∧
      (r.arguments args).2.pos = r.pos + (args.flatMap RawArgument.chars).length := by
  induction args generalizing r with
  | nil => exact ⟨rfl, rfl⟩
  | cons a args ih =>
      obtain ⟨htext, -, hpos⟩ := r.argument_after a
      obtain ⟨htext', hpos'⟩ := ih (r.argument a).2
      rw [htext] at htext'
      rw [hpos] at hpos'
      refine ⟨htext', ?_⟩
      rw [List.flatMap_cons, List.length_append, ← Nat.add_assoc]
      exact hpos'

theorem breaks_after (ends : List Newline) :
    (r.breaks ends).2.text = r.text ∧
      (r.breaks ends).2.pos = r.pos + (ends.flatMap Newline.chars).length := by
  induction ends generalizing r with
  | nil => exact ⟨rfl, rfl⟩
  | cons e ends ih =>
      obtain ⟨htext, hpos⟩ :=
        ih ((r.span r.pos (r.pos + e.chars.length : Nat)).2.skip e.chars.length)
      refine ⟨htext, hpos.trans ?_⟩
      simp only [Reader.skip, Reader.span, List.flatMap_cons, List.length_append]
      omega

/-- Reading a piece moves behind it. -/
theorem piece_after (p : RawPiece) :
    (r.piece p).2.text = r.text ∧ (r.piece p).2.pos = r.pos + p.chars.length := by
  cases p with
  | text run => exact ⟨rfl, rfl⟩
  | breaks ends => exact r.breaks_after ends
  | call name args =>
      obtain ⟨htext, hpos⟩ := arguments_after
        ((r.skip (name.length + 1)).span (r.pos + 1) (r.pos + 1 + name.length : Nat)).2 args
      refine ⟨htext, hpos.trans ?_⟩
      simp only [Reader.skip, Reader.span, RawPiece.chars, List.length_append, List.length_cons]
      omega

/-- A reader that has read `before` of its region and has `ahead` still to read. -/
structure Between (before ahead : List Char) : Prop where
  region : r.text = r.region.fragment.toList
  chars : r.text = before ++ ahead
  pos : r.pos = before.length

variable {r} {before ahead : List Char}

theorem Between.rest (h : r.Between before ahead) : r.rest = ahead := by
  rw [Reader.rest, h.chars, h.pos, List.drop_left]

/-- What is read off moves over to what has been read. -/
theorem Between.piece {p : RawPiece} (h : r.Between before (p.chars ++ ahead)) :
    (r.piece p).2.Between (before ++ p.chars) ahead := by
  obtain ⟨htext, hpos⟩ := r.piece_after p
  refine ⟨?_, ?_, ?_⟩
  · rw [htext, r.piece_region p]
    exact h.region
  · rw [htext, h.chars, List.append_assoc]
  · rw [hpos, h.pos, List.length_append]

/-- A newline alone is read as text. -/
theorem breaks_takesUp_one {e : Newline} (h : r.Between before (e.chars ++ ahead))
    (hbefore : NoBreakBefore before) (hstop : NoBreak ahead) :
    (r.piece (.breaks [e])).1.TakesUp r.region before e.chars ahead := by
  have hcovers : (r.span r.pos (r.pos + e.chars.length : Nat)).1.Covers
      (r.region.offset + before.length) e.chars :=
    r.span_covers h.rest (by rw [h.pos]) rfl
  exact .newline rfl hcovers hbefore hstop

/-- Newlines in a row are read as a paragraph command. -/
theorem breaks_takesUp_many {ends : List Newline} {e : Newline} (hne : ends ≠ [])
    (h : r.Between before ((ends ++ [e]).flatMap Newline.chars ++ ahead))
    (hbefore : NoBreakBefore before) (hstop : NoBreak ahead) :
    (r.piece (.breaks (ends ++ [e]))).1.TakesUp r.region before
      ((ends ++ [e]).flatMap Newline.chars) ahead := by
  obtain ⟨last, hlast, hoffset⟩ := r.breaks_concat ends e
  have hmany : ¬ (ends ++ [e]).length = 1 := by
    have hpos := List.length_pos_of_ne_nil hne
    rw [List.length_append, List.length_singleton]
    omega
  simp only [Reader.piece, hlast, Option.getD_some, if_neg hmany]
  have hpart : (ends ++ [e]).flatMap Newline.chars = ends.flatMap Newline.chars ++ e.chars := by
    rw [List.flatMap_append, List.flatMap_singleton]
  refine .paragraph hpart hne hbefore hstop rfl ?_ rfl
  rw [Source.parSpan, hoffset, h.pos]

/-- **What one step takes is what the piece takes up.** -/
theorem piece_takesUp {cs : List Char} {p : RawPiece} (h : r.Between before cs)
    (hstep : ScanStep cs p ahead) (hjoint : NoBreak cs ∨ NoBreakBefore before) :
    (r.piece p).1.TakesUp r.region before p.chars ahead := by
  cases hstep with
  | @text run _ hne hrun hstop =>
      have hcovers : ((r.skip run.length).span r.pos (r.pos + run.length : Nat)).1.Covers
          (r.region.offset + before.length) run :=
        span_covers _ h.rest (by rw [h.pos]; rfl) rfl
      exact .run hcovers hrun hstop
  | @breaks ends _ hne hstop =>
      rcases List.eq_nil_or_concat ends with rfl | ⟨more, e, rfl⟩
      · exact (hne rfl).elim
      rw [List.concat_eq_append] at h hjoint ⊢
      have hbefore : NoBreakBefore before := by
        rcases hjoint with hno | hbefore
        · exact (hne (List.concat_eq_append ▸ hno.eq_nil)).elim
        · exact hbefore
      by_cases hmore : more = []
      · subst hmore
        have hone : ([] ++ [e]).flatMap Newline.chars = e.chars := by simp
        rw [hone] at h
        rw [RawPiece.chars, hone]
        exact breaks_takesUp_one h hbefore hstop
      · exact breaks_takesUp_many hmore h hbefore hstop
  | @call _ name args _ hcommand hclosed =>
      have hchars := hcommand.chars
      rw [hchars] at h hcommand
      obtain ⟨hname, hargs, -⟩ := r.call_reads h.rest
      rw [h.pos] at hname hargs
      have hstop : (r.call name args).1.stop =
          r.region.offset + before.length + (RawPiece.call name args).chars.length := by
        rw [Call.stop_eq hname hargs]
        simp only [RawPiece.chars, List.length_append, List.length_cons]
        omega
      exact .command hcommand hclosed hname hargs hstop

end Reader

/-! ### Whole regions -/

/-- What a scan to the end reads lies side by side. -/
theorem ScanRun.tiles {cs : List Char} {scan : RegionScan} (h : ScanRun cs scan)
    (hend : scan.stop = none) : ∀ {r : Reader} {before : List Char}, r.Between before cs →
      NoBreak cs ∨ NoBreakBefore before → Tiles r.region before (r.pieces scan.pieces).1 := by
  induction h with
  | stuck h => cases hend
  | done =>
      intro r before hr _
      have hall : before = r.region.fragment.toList := by
        rw [← hr.region, hr.chars, List.append_nil]
      rw [hall]
      exact .done
  | @step cs rest p scan hstep h ih =>
      intro r before hr hjoint
      have hp := Reader.piece_takesUp hr hstep hjoint
      rw [hstep.chars] at hr
      have hnext : NoBreak rest ∨ NoBreakBefore (before ++ p.chars) :=
        hstep.noBreak_or.imp_right (noBreakBefore_append hstep.chars_ne_nil)
      have htiles := ih hend hr.piece hnext
      rw [r.piece_region p] at htiles
      refine .next ?_ hstep.chars_ne_nil hp htiles
      rw [← hr.region, hr.chars, List.append_assoc]

/-- The first character behind `before` is that of the piece there. -/
theorem Tiles.head? {region : Span} {before after : List Char} {p : Piece} {rest : List Piece}
    (h : Tiles region before (p :: rest)) (hrun : p.IsRun)
    (hchars : region.fragment.toList = before ++ after) :
    ∃ c ∈ after.head?, isTextChar c = true := by
  cases h with
  | @next _ part after' _ _ hchars' hne hp h =>
      have hafter : after = part ++ after' := by
        rw [hchars, List.append_assoc] at hchars'
        exact List.append_cancel_left hchars'
      obtain ⟨c, more, rfl⟩ := List.exists_cons_of_ne_nil hne
      refine ⟨c, by rw [hafter]; rfl, ?_⟩
      cases hp with
      | run hspan htext hstop => exact htext c List.mem_cons_self
      | newline hpart hspan hbefore hafter =>
          have hfragment := hspan.2
          refine hrun c ?_
          rw [hfragment, String.toList_ofList]
          exact List.mem_cons_self
      | paragraph | command => exact hrun.elim

/-- No run of text follows another one. -/
theorem Tiles.isChain {region : Span} {before : List Char} {pieces : List Piece}
    (h : Tiles region before pieces) :
    pieces.IsChain fun p q => ¬ (p.IsRun ∧ q.IsRun) := by
  induction h with
  | done => exact .nil
  | @next before part after p rest hchars hne hp h ih =>
      cases rest with
      | nil => exact .singleton p
      | cons q rest =>
          refine .cons_cons ?_ ih
          rintro ⟨hprun, hqrun⟩
          obtain ⟨c, hc, htext⟩ := h.head? hqrun hchars
          cases hp with
          | run hspan hrun hstop =>
              have hfalse := hstop c hc
              rw [htext] at hfalse
              cases hfalse
          | @newline span e hpart hspan hbefore hafter =>
              have hchar : ∃ d ∈ part, isTextChar d = false := by
                rw [hpart]
                cases e with
                | lf => exact ⟨'\n', by decide, by decide⟩
                | crlf => exact ⟨'\n', by decide, by decide⟩
              obtain ⟨d, hd, hfalse⟩ := hchar
              have htrue : isTextChar d = true := by
                refine hprun d ?_
                rw [hspan.2, String.toList_ofList]
                exact hd
              rw [htrue] at hfalse
              cases hfalse
          | paragraph | command => exact hprun

/-! ### Where reading fails -/

/-- What is left after some steps of a scan. -/
def Reached (cs rest : List Char) : Prop :=
  Relation.ReflTransGen (fun here next => ∃ p, ScanStep here p next) cs rest

/-- Nothing can be taken: a backslash without a name after it, half of a newline, or a command with
an argument that never closes. -/
inductive Blocked : List Char → Prop
  | nameless {rest : List Char} (h : ∀ c ∈ rest.head?, isNameStart c = false) :
      Blocked ('\\' :: rest)
  | half {rest : List Char} (h : rest.head? ≠ some '\n') : Blocked ('\r' :: rest)
  | unclosed {cs name rest : List Char} {args : List RawArgument} (h : CommandAt cs name args rest)
      (hopen : Unclosed rest) : Blocked cs

theorem ScanStuck.blocked {cs : List Char} {stop : ScanStop} (h : ScanStuck cs stop) :
    Blocked cs := by
  cases h with
  | unclosed h hopen => exact .unclosed h hopen
  | @nameless rest h =>
      refine .nameless fun c hc => ?_
      cases rest with
      | nil => cases hc
      | cons d rest =>
          obtain rfl := Option.some.inj hc
          rw [Bool.eq_false_iff]
          intro hstart
          exact h ⟨d, rest, rfl, hstart⟩
  | @unexpected c rest hslash htext hbreak =>
      have hlf : c ≠ '\n' := by
        rintro rfl
        exact hbreak .lf (List.prefix_append ['\n'] rest)
      have hcr : c = '\r' := by
        by_contra hcr
        simp [isTextChar, hslash, hlf, hcr] at htext
      subst hcr
      refine .half fun hhead => ?_
      obtain ⟨tail, rfl⟩ := List.head?_eq_some_iff.mp hhead
      exact hbreak .crlf (List.prefix_append ['\r', '\n'] tail)

theorem Blocked.exists_stuck {cs : List Char} (h : Blocked cs) : ∃ stop, ScanStuck cs stop := by
  cases h with
  | @unclosed _ name _ args h hopen => exact ⟨.unclosed name args [], .unclosed h hopen⟩
  | nameless h =>
      refine ⟨_, .nameless ?_⟩
      rintro ⟨c, rest, heq, hc⟩
      obtain ⟨-, rfl⟩ := List.cons.inj heq
      have hfalse := h c rfl
      rw [hc] at hfalse
      cases hfalse
  | half h =>
      refine ⟨_, .unexpected (by decide) (by decide) ?_⟩
      intro e
      cases e with
      | lf => simp [Newline.chars]
      | crlf =>
          rintro ⟨tail, htail⟩
          simp only [Newline.chars, List.cons_append, List.nil_append, List.cons.injEq,
            true_and] at htail
          rw [← htail] at h
          exact h rfl

theorem ScanRun.exists_blocked {cs : List Char} {scan : RegionScan} (h : ScanRun cs scan)
    (hstop : scan.stop ≠ none) : ∃ rest, Reached cs rest ∧ Blocked rest := by
  induction h with
  | done => exact (hstop rfl).elim
  | stuck h => exact ⟨_, .refl, h.blocked⟩
  | @step cs rest p scan hstep h ih =>
      obtain ⟨last, hreached, hblocked⟩ := ih hstop
      exact ⟨last, .head ⟨p, hstep⟩ hreached, hblocked⟩

theorem Reached.stop_eq {cs rest : List Char} (h : Reached cs rest) :
    (scanRegion cs).stop = (scanRegion rest).stop := by
  induction h using Relation.ReflTransGen.head_induction_on with
  | refl => rfl
  | head hstep _ ih =>
      obtain ⟨p, hstep⟩ := hstep
      rw [hstep.scanRegion_eq, ← ih]
      rfl

/-- A scan stops before the end exactly if it comes to a place where nothing can be taken. -/
theorem scanRegion_stop_iff (cs : List Char) :
    (scanRegion cs).stop ≠ none ↔ ∃ rest, Reached cs rest ∧ Blocked rest := by
  constructor
  · exact (scanRegion_run cs).exists_blocked
  · rintro ⟨rest, hreached, hblocked⟩
    obtain ⟨stop, hstuck⟩ := hblocked.exists_stuck
    obtain ⟨found, hscan⟩ := hstuck.scanRegion_eq
    rw [hreached.stop_eq, hscan]
    exact Option.some_ne_none found

theorem readMarkup_eq_ok_iff {source : Source} {region : Span} {pieces : List Piece} :
    readMarkup source region = .ok pieces ↔
      (scanRegion region.fragment.toList).stop = none ∧
        ((Reader.ofRegion region).pieces (scanRegion region.fragment.toList).pieces).1 =
          pieces := by
  unfold readMarkup readRegion
  cases hstop : (scanRegion region.fragment.toList).stop with
  | none => simp [Reader.ofRegion, hstop, Except.mapError]
  | some stop => simp [Reader.ofRegion, hstop, Except.mapError]

/-- **The pieces of a region lie side by side and take up all of it, each as long as it can be; and
reading fails exactly if a scan in such steps comes to a place where nothing can be taken.** -/
theorem readMarkup_tiles (source : Source) (region : Span) :
    (∀ pieces, readMarkup source region = .ok pieces →
      Tiles region [] pieces ∧ pieces.IsChain fun p q => ¬ (p.IsRun ∧ q.IsRun)) ∧
    ((∃ e, readMarkup source region = .error e) ↔
      ∃ rest, Reached region.fragment.toList rest ∧ Blocked rest) := by
  constructor
  · intro pieces hread
    obtain ⟨hend, rfl⟩ := readMarkup_eq_ok_iff.mp hread
    have hbetween : (Reader.ofRegion region).Between [] region.fragment.toList := ⟨rfl, rfl, rfl⟩
    have hstart : NoBreakBefore [] := fun c hc => by cases hc
    have htiles := (scanRegion_run region.fragment.toList).tiles hend hbetween (.inr hstart)
    exact ⟨htiles, htiles.isChain⟩
  · rw [← scanRegion_stop_iff]
    constructor
    · rintro ⟨e, hread⟩ hend
      have hok : readMarkup source region = .ok _ := readMarkup_eq_ok_iff.mpr ⟨hend, rfl⟩
      rw [hread] at hok
      cases hok
    · intro hstop
      cases hread : readMarkup source region with
      | error e => exact ⟨e, rfl⟩
      | ok pieces => exact (hstop (readMarkup_eq_ok_iff.mp hread).1).elim

end Markup
