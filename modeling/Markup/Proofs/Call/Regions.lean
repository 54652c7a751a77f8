import Markup.Proofs.Call.Command
import Markup.Proofs.Call.ScanStep
import Markup.Proofs.Call.Spans

/-! # Regions at every depth

Arguments are regions of their own that are read when a command asks for them, and so on down
through the arguments of the commands in them.  `Source.Region` are the regions that can come up
in this way.  Whatever is found in any of them, by reading it for commands or by taking it as it
is, stands in the text where its span says (`ArgMode.read_sound`), and so does the span of an error.

The name of a paragraph command is not written anywhere.  It stands for a run of two or more
newlines, and its place is that of the last of them (`Call.IsBreak`). -/

namespace Markup

open Text

/-! ### Where readers are -/

namespace Reader

variable (r : Reader)

theorem arguments_region (args : List RawArgument) :
    (r.arguments args).2.region = r.region := by
  induction args generalizing r with
  | nil => rfl
  | cons a args ih => exact (ih _).trans (r.argument_after a).2.1

theorem breaks_region (ends : List Newline) : (r.breaks ends).2.region = r.region := by
  induction ends generalizing r with
  | nil => rfl
  | cons e ends ih => exact ih _

theorem piece_region (p : RawPiece) : (r.piece p).2.region = r.region := by
  cases p with
  | text run => rfl
  | breaks ends => exact r.breaks_region ends
  | call name args => exact arguments_region _ args

theorem pieces_region (raw : List RawPiece) : (r.pieces raw).2.region = r.region := by
  induction raw generalizing r with
  | nil => rfl
  | cons p raw ih => exact (ih _).trans (r.piece_region p)

/-- A piece is what its part of the scan gives to a reader behind the parts before it. -/
theorem exists_of_mem_pieces {raw : List RawPiece} {q : Piece} (h : q ∈ (r.pieces raw).1) :
    ∃ before p after, raw = before ++ p :: after ∧ q = ((r.pieces before).2.piece p).1 := by
  induction raw generalizing r with
  | nil => exact (List.not_mem_nil h).elim
  | cons p raw ih =>
      rcases List.mem_cons.mp h with rfl | h
      · exact ⟨[], p, raw, rfl, rfl⟩
      · obtain ⟨before, p', after, rfl, rfl⟩ := ih _ h
        exact ⟨p :: before, p', after, rfl, rfl⟩

/-- The place that the last of some newlines is given. -/
theorem breaks_concat (ends : List Newline) (e : Newline) :
    ∃ last, (r.breaks (ends ++ [e])).1 = some last ∧
      last.offset = r.region.offset + r.pos + (ends.flatMap Newline.chars).length := by
  induction ends generalizing r with
  | nil => exact ⟨_, rfl, by simp⟩
  | cons e' ends ih =>
      obtain ⟨last, hlast, hoffset⟩ :=
        ih ((r.span r.pos (r.pos + e'.chars.length : Nat)).2.skip e'.chars.length)
      refine ⟨last, ?_, ?_⟩
      · simp only [List.cons_append, Reader.breaks, hlast, Option.getD_some]
      · rw [hoffset]
        simp only [Reader.span, Reader.skip, List.flatMap_cons, List.length_append]
        omega

end Reader

/-! ### Paragraph breaks -/

/-- The paragraph command for a run of newlines in a region: two or more newlines with none after
them, the name being at the place of the last. -/
def Call.IsBreak (text : List Char) (region : Span) (c : Call) : Prop :=
  ∃ (before : List Char) (ends : List Newline) (last : Newline) (after : List Char),
    region.fragment.toList = before ++ ends.flatMap Newline.chars ++ (last.chars ++ after) ∧
    ends ≠ [] ∧ NoBreak after ∧
    c.name.offset = region.offset + (before ++ ends.flatMap Newline.chars).length ∧
    c.name.line = 1 + (text.take c.name.offset.toNat).count '\n' ∧
    c.name.fragment = parCommand ∧ c.args = []

/-- A piece of a region whose spans stand in the text, the name of a paragraph break apart. -/
def Piece.SoundIn (text : List Char) (region : Span) : Piece → Prop
  | .text span => span.StandsIn text
  | .call c => c.WrittenIn text ∨ c.IsBreak text region

/-- In a scan, no newline comes after a run of newlines. -/
theorem ScanRun.breaks {cs : List Char} {scan : RegionScan} (h : ScanRun cs scan)
    {before after : List RawPiece} {ends : List Newline}
    (hpieces : scan.pieces = before ++ .breaks ends :: after) :
    ∃ rest, cs = before.flatMap RawPiece.chars ++ (ends.flatMap Newline.chars ++ rest) ∧
      NoBreak rest := by
  induction h generalizing before with
  | done => cases before <;> cases hpieces
  | stuck h => cases before <;> cases hpieces
  | @step cs rest p scan hstep h ih =>
      cases before with
      | nil =>
          obtain ⟨rfl, -⟩ := List.cons.inj hpieces
          cases hstep with
          | breaks hne hstop => exact ⟨rest, rfl, hstop⟩
      | cons p' before =>
          obtain ⟨rfl, htail⟩ := List.cons.inj hpieces
          obtain ⟨after', hrest, hstop⟩ := ih htail
          refine ⟨after', ?_, hstop⟩
          rw [hstep.chars, hrest, List.flatMap_cons, List.append_assoc]

theorem Span.StandsIn.line_eq {text : List Char} {s : Span} (h : s.StandsIn text) :
    s.line = 1 + (text.take s.offset.toNat).count '\n' := by
  obtain ⟨before, after, rfl, hoffset, hline⟩ := h
  rw [hline, hoffset, Int.toNat_natCast, List.append_assoc, List.take_left]

/-- Reading a run of newlines gives text for one, and a paragraph break for more. -/
theorem Reader.piece_breaks_sound {text : List Char} {r : Reader} {ends : List Newline}
    {rest : List Char} (hne : ends ≠ []) (hstop : NoBreak rest)
    (h : r.Before text (ends.flatMap Newline.chars ++ rest)) :
    (r.piece (.breaks ends)).1.SoundIn text r.region := by
  obtain ⟨hstands, -, -⟩ := breaks_standsIn h
  -- The last newline is taken off: its place is what the name is given.
  obtain ⟨more, e, rfl⟩ : ∃ more e, ends = more ++ [e] :=
    ⟨ends.dropLast, ends.getLast hne, (List.dropLast_append_getLast hne).symm⟩
  obtain ⟨last, hlast, hoffset⟩ := r.breaks_concat more e
  obtain ⟨hspan, -⟩ := hstands last hlast
  have hrest : r.text.drop r.pos = (more ++ [e]).flatMap Newline.chars ++ rest := h.rest
  have hregion : r.region.fragment.toList =
      r.text.take r.pos ++ more.flatMap Newline.chars ++ (e.chars ++ rest) := by
    rw [← h.toSound.chars]
    conv => lhs; rw [← List.take_append_drop r.pos r.text, hrest]
    simp
  simp only [Reader.piece, hlast, Option.getD_some]
  split
  · exact hspan
  · next hmany =>
    refine .inr ⟨r.text.take r.pos, more, e, rest, hregion, ?_, hstop, ?_, hspan.line_eq, rfl, rfl⟩
    · rintro rfl
      exact hmany rfl
    · have hpos := h.pos
      simp only [Source.parSpan, hoffset, List.length_append, List.length_take]
      omega

/-! ### Reading a region -/

/-- Each piece of a region is read where it stands, by a reader that has it ahead; behind a run of
newlines there is no other. -/
theorem exists_reader_of_mem {text : List Char} {region : Span} (h : region.StandsIn text)
    {q : Piece} (hq : q ∈ ((Reader.ofRegion region).pieces
      (scanRegion (Reader.ofRegion region).text).pieces).1) :
    ∃ (r : Reader) (p : RawPiece) (ahead : List Char), r.region = region ∧ p.chars ≠ [] ∧
      r.Before text (p.chars ++ ahead) ∧ q = (r.piece p).1 ∧
      ∀ ends, p = .breaks ends → NoBreak ahead := by
  have hcovers := scanRegion_covers (Reader.ofRegion region).text
  have hrun := scanRegion_run (Reader.ofRegion region).text
  generalize scanRegion (Reader.ofRegion region).text = scan at hcovers hrun hq
  obtain ⟨stopped, hchars⟩ := hcovers.chars
  obtain ⟨before, p, after, hraw, rfl⟩ := (Reader.ofRegion region).exists_of_mem_pieces hq
  have hnonempty := hcovers.nonempty
  rw [hraw, List.flatMap_append, List.flatMap_cons, List.append_assoc, List.append_assoc] at hchars
  rw [hraw] at hnonempty
  -- The parts before this one bring the reader to it.
  have hstart : (Reader.ofRegion region).Before text _ :=
    ⟨Reader.ofRegion_sound h, Nat.zero_le _, hchars⟩
  obtain ⟨-, hbefore⟩ := Reader.pieces_standsIn
    (fun p' hp' => hnonempty p' (List.mem_append_left _ hp')) hstart
  refine ⟨_, p, _, Reader.pieces_region _ before, ?_, hbefore, rfl, ?_⟩
  · exact hnonempty p (List.mem_append_right _ List.mem_cons_self)
  · rintro ends rfl
    obtain ⟨rest, hcs, hstop⟩ := hrun.breaks hraw
    have hrest := List.append_cancel_left (List.append_cancel_left (hchars.symm.trans hcs))
    rw [hrest]
    exact hstop

theorem readRegion_sound {text : List Char} {region : Span} (h : region.StandsIn text)
    {pieces : List Piece} (hread : readRegion region = .ok pieces) :
    ∀ q ∈ pieces, q.SoundIn text region := by
  unfold readRegion at hread
  dsimp only at hread
  split at hread
  · obtain rfl := Except.ok.inj hread
    intro q hq
    obtain ⟨r, p, ahead, rfl, hne, hbefore, rfl, hstop⟩ := exists_reader_of_mem h hq
    cases p with
    | text run => exact (Reader.piece_standsIn hne hbefore).1
    | call name args => exact .inl (Reader.call_writtenIn hbefore).1
    | breaks ends =>
        refine Reader.piece_breaks_sound ?_ (hstop ends rfl) hbefore
        rintro rfl
        exact hne rfl
  · cases hread

/-! ### Every depth -/

/-- The regions that come up when a source is read: the whole text, and the value of every argument
that is found in such a region, in whichever mode it is read. -/
inductive Source.Region (source : Source) : Span → Prop
  | whole : Region source source.span
  | argument {region : Span} {mode : ArgMode} {pieces : List Piece} {c : Call} {a : Argument}
      (h : Region source region) (hread : mode.read source region = .ok pieces)
      (hcall : .call c ∈ pieces) (harg : a ∈ c.args) : Region source a.value

theorem Source.Region.standsIn {source : Source} {region : Span} (h : source.Region region) :
    region.StandsIn source.text.toList := by
  induction h with
  | whole => exact source.span_standsIn
  | @argument region mode pieces c a h hread hcall harg ih =>
      have hpieces := ArgMode.read_standsIn source mode ih
      rw [hread] at hpieces
      have hc : c.StandsIn source.text.toList := hpieces _ hcall
      exact (hc.args a harg).1

/-- **What is read stands in the text, at every depth**: all spans of what is found in a region, or
of the error, are parts of the text at the place and on the line that they name.  Only the name of
a paragraph break is made up, and it has the place of the last newline of its run. -/
theorem ArgMode.read_sound {source : Source} {region : Span} (h : source.Region region)
    (mode : ArgMode) :
    match mode.read source region with
    | .ok pieces => ∀ p ∈ pieces, p.SoundIn source.text.toList region
    | .error e => e.span.StandsIn source.text.toList ∧ e.source = source.text := by
  have hregion := h.standsIn
  cases mode with
  | literal =>
      intro p hp
      obtain rfl := List.mem_singleton.mp hp
      exact hregion
  | markup =>
      have hstands := readMarkup_standsIn source hregion
      change match readMarkup source region with
        | .ok pieces => ∀ p ∈ pieces, p.SoundIn source.text.toList region
        | .error e => e.span.StandsIn source.text.toList ∧ e.source = source.text
      unfold readMarkup at hstands ⊢
      cases hread : readRegion region with
      | error stop =>
          rw [hread] at hstands
          exact hstands
      | ok pieces => exact readRegion_sound hregion hread

/-- Two levels down, inside the value of a keyword, a paragraph break of a region that is nothing
else. -/
theorem ArgMode.read_sound_nested :
    ∃ (source : Source) (region : Span),
      source.text = "p\n\n\\a\x7bk=q\r\n\r\n\\b\x7b\n\n\x7d\x7d" ∧
      source.Region region ∧ region.offset = 16 ∧
      ArgMode.markup.read source region = .ok [.call ⟨⟨17, 6, "par"⟩, []⟩] ∧
      Piece.SoundIn source.text.toList region (.call ⟨⟨17, 6, "par"⟩, []⟩) := by
  let source : Source := { text := "p\n\n\\a\x7bk=q\r\n\r\n\\b\x7b\n\n\x7d\x7d" }
  let outer : Argument := ⟨some ⟨6, 3, "k"⟩, ⟨8, 3, "q\r\n\r\n\\b\x7b\n\n\x7d"⟩⟩
  let inner : Argument := ⟨none, ⟨16, 5, "\n\n"⟩⟩
  have houter : ArgMode.markup.read source source.span =
      .ok [.text ⟨0, 1, "p"⟩, .call ⟨⟨2, 2, "par"⟩, []⟩, .call ⟨⟨4, 3, "a"⟩, [outer]⟩] := by
    decide +kernel
  have hinner : ArgMode.markup.read source outer.value =
      .ok [.text ⟨8, 3, "q"⟩, .call ⟨⟨11, 4, "par"⟩, []⟩, .call ⟨⟨14, 5, "b"⟩, [inner]⟩] := by
    decide +kernel
  have hread : ArgMode.markup.read source inner.value = .ok [.call ⟨⟨17, 6, "par"⟩, []⟩] := by
    decide +kernel
  have hvalue : source.Region outer.value :=
    .argument (c := ⟨⟨4, 3, "a"⟩, [outer]⟩) .whole houter (by simp) (List.mem_singleton.mpr rfl)
  have hregion : source.Region inner.value :=
    .argument (c := ⟨⟨14, 5, "b"⟩, [inner]⟩) hvalue hinner (by simp) (List.mem_singleton.mpr rfl)
  have hsound := ArgMode.read_sound hregion .markup
  rw [hread] at hsound
  exact ⟨source, inner.value, rfl, hregion, rfl, hread, hsound _ (List.mem_singleton.mpr rfl)⟩

end Markup
