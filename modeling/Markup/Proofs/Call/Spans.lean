import Markup.Call
import Mathlib.Data.List.Basic

/-! # What is read stands in the text

A span stands in a text if the text has its fragment at its offset, on its line
(`Span.StandsIn`).  Reading a region that stands in a text gives only spans that stand there too
(`readRegion_standsIn`): the texts, the arguments and their names, the names of the calls, and
the span of a failure.  The one exception is the name of a paragraph command, which was never
written: it has the place of a newline (`Call.StandsIn`).

A reader counts lines from the last line it knows, forwards or, if a span starts earlier, again
from the start of its region; either way the count is right (`LineCursor.right_moveTo`), so that a
reader stays sound whatever spans it is asked for (`Reader.Sound`). -/

namespace Markup

open Text

/-! ### Spans -/

/-- The text has the fragment of the span at its offset, on its line. -/
def Span.StandsIn (text : List Char) (s : Span) : Prop :=
  ∃ before after, text = before ++ s.fragment.toList ++ after ∧ s.offset = before.length ∧
    s.line = 1 + before.count '\n'

/-- A place in a text, its end included. -/
def Span.InText (text : List Char) (s : Span) : Prop := 0 ≤ s.offset ∧ s.offset ≤ text.length

theorem Span.StandsIn.inText {text : List Char} {s : Span} (h : s.StandsIn text) :
    s.InText text := by
  obtain ⟨before, after, htext, hoffset, -⟩ := h
  have hlength := congrArg List.length htext
  simp only [List.length_append] at hlength
  constructor <;> omega

theorem Source.span_standsIn (source : Source) : source.span.StandsIn source.text.toList :=
  ⟨[], [], by simp [Source.span], rfl, rfl⟩

/-- The part of a region behind `before` stands where the region does. -/
theorem Span.StandsIn.part {text before part after : List Char} {region : Span}
    (h : region.StandsIn text) (hregion : region.fragment.toList = before ++ part ++ after) :
    Span.StandsIn text ⟨region.offset + before.length, region.line + before.count '\n',
      String.ofList part⟩ := by
  obtain ⟨first, last, htext, hoffset, hline⟩ := h
  refine ⟨first ++ before, after ++ last, ?_, ?_, ?_⟩
  · simp [htext, hregion]
  · simp [hoffset]
  · simp [hline, List.count_append, Int.add_assoc]

/-! ### Readers -/

/-- The cursor knows the line of its position. -/
def LineCursor.Right (text : List Char) (base : Int) (c : LineCursor) : Prop :=
  c.line = base + ((text.take c.position).count '\n' : Nat)

theorem LineCursor.right_moveTo {text : List Char} {base : Int} (start : Nat) {c : LineCursor}
    (h : c.Right text base) : (c.moveTo text base start).Right text base := by
  unfold LineCursor.moveTo LineCursor.Right
  split
  · simp
  · next hstart =>
    have e : start = c.position + (start - c.position) := by omega
    have htake : (text.take start).count '\n' = (text.take c.position).count '\n' +
        ((text.drop c.position).take (start - c.position)).count '\n' := by
      conv => lhs; rw [e, List.take_add, List.count_append]
    dsimp only
    rw [htake, h]
    omega

/-- A reader of a region that stands in a text. -/
structure Reader.Sound (text : List Char) (r : Reader) : Prop where
  region : r.region.StandsIn text
  chars : r.text = r.region.fragment.toList
  lines : r.lines.Right r.text r.region.line

namespace Reader

variable {text : List Char} {r : Reader}

theorem ofRegion_sound {region : Span} (h : region.StandsIn text) : (ofRegion region).Sound text :=
  ⟨h, rfl, by simp [LineCursor.Right, ofRegion]⟩

theorem Sound.moved (h : r.Sound text) (pos : Nat) : Sound text { r with pos } :=
  ⟨h.region, h.chars, h.lines⟩

theorem Sound.span (h : r.Sound text) (start stop : Nat) : (r.span start stop).2.Sound text :=
  ⟨h.region, h.chars, LineCursor.right_moveTo start h.lines⟩

/-- Every span that starts in the region stands in the text. -/
theorem Sound.span_standsIn (h : r.Sound text) {start : Nat} (stop : Nat)
    (hstart : start ≤ r.text.length) : (r.span start stop).1.StandsIn text := by
  have hline : (r.span start stop).1.line =
      r.region.line + ((r.text.take start).count '\n' : Nat) :=
    LineCursor.right_moveTo start h.lines
  have hregion : r.region.fragment.toList = r.text.take start ++
      (r.text.drop start).take (stop - start) ++ (r.text.drop start).drop (stop - start) := by
    rw [List.append_assoc, List.take_append_drop, List.take_append_drop, h.chars]
  have hpart := h.region.part hregion
  rw [List.length_take_of_le hstart, ← hline, ← r.fragment_span] at hpart
  exact hpart

/-! ### Commands -/

end Reader

/-- The spans of an argument stand in the text. -/
def Argument.StandsIn (text : List Char) (a : Argument) : Prop :=
  a.value.StandsIn text ∧ ∀ name, a.name = some name → name.StandsIn text

/-- All spans of a call stand in the text. -/
def Call.WrittenIn (text : List Char) (c : Call) : Prop :=
  c.name.StandsIn text ∧ ∀ a ∈ c.args, a.StandsIn text

/-- The spans of a call stand in the text, or it is a paragraph command at the place of a newline
there. -/
def Call.StandsIn (text : List Char) (c : Call) : Prop :=
  (c.name.StandsIn text ∧ ∀ a ∈ c.args, a.StandsIn text) ∨
    ∃ last, last.StandsIn text ∧ (∃ e : Newline, last.fragment.toList = e.chars) ∧
      c = ⟨Source.parSpan last, []⟩

/-- The spans of a piece stand in the text. -/
def Piece.StandsIn (text : List Char) : Piece → Prop
  | .text span => span.StandsIn text
  | .call c => c.StandsIn text

theorem Call.StandsIn.name_inText {text : List Char} {c : Call} (h : c.StandsIn text) :
    c.name.InText text := by
  rcases h with ⟨hname, -⟩ | ⟨last, hlast, -, rfl⟩
  · exact hname.inText
  · exact hlast.inText

theorem Call.StandsIn.args {text : List Char} {c : Call} (h : c.StandsIn text) :
    ∀ a ∈ c.args, a.StandsIn text := by
  rcases h with ⟨-, hargs⟩ | ⟨last, -, -, rfl⟩
  · exact hargs
  · intro a ha
    cases ha

theorem splitKeyword_append {content key value : List Char}
    (h : splitKeyword content = some (key, value)) : content = key ++ '=' :: value := by
  unfold splitKeyword at h
  split at h
  · next c rest hdrop =>
    split at h
    · next hc =>
      simp only [Option.some.injEq, Prod.mk.injEq] at h
      obtain ⟨rfl, rfl⟩ := h
      rw [← hc, ← hdrop, List.takeWhile_append_dropWhile]
    · cases h
  · cases h

namespace Reader

variable {text : List Char} {r : Reader} {ahead : List Char}

/-- A sound reader with `ahead` still to read. -/
structure Before (text : List Char) (r : Reader) (ahead : List Char) : Prop extends
    r.Sound text where
  pos : r.pos ≤ r.text.length
  rest : r.rest = ahead

theorem Before.length (h : r.Before text ahead) : r.pos + ahead.length = r.text.length := by
  have hpos := h.pos
  rw [← h.rest, Reader.rest, List.length_drop]
  omega

theorem Before.span (h : r.Before text ahead) (start stop : Nat) :
    (r.span start stop).2.Before text ahead :=
  ⟨h.toSound.span start stop, h.pos, h.rest⟩

/-- The reader behind the first part of what it has to read. -/
theorem Before.advance {part : List Char} (h : r.Before text (part ++ ahead)) {pos : Nat}
    (hpos : pos = r.pos + part.length) : Before text { r with pos } ahead := by
  have hlength := h.length
  simp only [List.length_append] at hlength
  refine ⟨h.toSound.moved pos, ?_, ?_⟩
  · dsimp only
    omega
  · have hrest : r.text.drop r.pos = part ++ ahead := h.rest
    simp only [Reader.rest, hpos]
    rw [← List.drop_drop, hrest, List.drop_left]

theorem argument_standsIn {a : RawArgument} (h : r.Before text (a.chars ++ ahead)) :
    (r.argument a).1.StandsIn text ∧ (r.argument a).2.Before text ahead := by
  have hlength := h.length
  have hchars : a.chars.length = a.space.length + 1 + a.content.length + 1 := by
    simp only [RawArgument.chars, List.length_append, List.length_cons, List.length_nil]
    omega
  simp only [List.length_append] at hlength
  have hafter := h.advance (show _ = r.pos + a.chars.length from rfl)
  unfold Reader.argument
  dsimp only
  rw [show r.pos + a.space.length + 1 + a.content.length + 1 = r.pos + a.chars.length by omega]
  split
  · next key value hsplit =>
    have hcontent := congrArg List.length (splitKeyword_append hsplit)
    simp only [List.length_append, List.length_cons] at hcontent
    have hnamed := hafter.span (r.pos + a.space.length + 1)
      (r.pos + a.space.length + 1 + key.length)
    refine ⟨⟨?_, ?_⟩, hnamed.span _ (r.pos + a.space.length + 1 + a.content.length)⟩
    · refine hnamed.toSound.span_standsIn _ ?_
      change _ ≤ r.text.length
      omega
    · intro name hname
      cases hname
      refine hafter.toSound.span_standsIn _ ?_
      change _ ≤ r.text.length
      omega
  · refine ⟨⟨?_, ?_⟩, hafter.span _ (r.pos + a.space.length + 1 + a.content.length)⟩
    · refine hafter.toSound.span_standsIn _ ?_
      change _ ≤ r.text.length
      omega
    · intro name hname
      cases hname

theorem arguments_standsIn : ∀ {r : Reader} {args : List RawArgument},
    r.Before text (args.flatMap RawArgument.chars ++ ahead) →
      (∀ a ∈ (r.arguments args).1, a.StandsIn text) ∧ (r.arguments args).2.Before text ahead
  | _, [], h => ⟨fun _ ha => (List.not_mem_nil ha).elim, h⟩
  | _, a :: args, h => by
      rw [List.flatMap_cons, List.append_assoc] at h
      obtain ⟨harg, hafter⟩ := argument_standsIn h
      obtain ⟨hargs, hend⟩ := arguments_standsIn hafter
      refine ⟨?_, hend⟩
      intro b hb
      rcases List.mem_cons.mp hb with rfl | hb
      · exact harg
      · exact hargs b hb

theorem call_writtenIn {name : List Char} {args : List RawArgument}
    (h : r.Before text ('\\' :: name ++ args.flatMap RawArgument.chars ++ ahead)) :
    (r.call name args).1.WrittenIn text ∧ (r.call name args).2.Before text ahead := by
  have hlength := h.length
  simp only [List.length_append, List.length_cons] at hlength
  rw [List.append_assoc] at h
  have hafter : Before text (r.skip (name.length + 1)) _ := h.advance rfl
  obtain ⟨hargs, hend⟩ := arguments_standsIn (hafter.span (r.pos + 1) (r.pos + 1 + name.length))
  refine ⟨⟨?_, hargs⟩, hend⟩
  refine hafter.toSound.span_standsIn _ ?_
  change _ ≤ r.text.length
  omega

theorem call_standsIn {name : List Char} {args : List RawArgument}
    (h : r.Before text ('\\' :: name ++ args.flatMap RawArgument.chars ++ ahead)) :
    (r.call name args).1.StandsIn text ∧ (r.call name args).2.Before text ahead := by
  obtain ⟨hwritten, hend⟩ := call_writtenIn h
  exact ⟨.inl hwritten, hend⟩

/-! ### Regions -/

/-- The last of some newlines stands in the text. -/
theorem breaks_standsIn : ∀ {r : Reader} {ends : List Newline},
    r.Before text (ends.flatMap Newline.chars ++ ahead) →
      (∀ last, (r.breaks ends).1 = some last →
        last.StandsIn text ∧ ∃ e : Newline, last.fragment.toList = e.chars) ∧
      (ends ≠ [] → (r.breaks ends).1.isSome) ∧ (r.breaks ends).2.Before text ahead
  | _, [], h => 
      ⟨fun _ hlast => (Option.some_ne_none _ hlast.symm).elim, fun hne => (hne rfl).elim, h⟩
  | r, e :: ends, h => by
      rw [List.flatMap_cons, List.append_assoc] at h
      have hhere : (r.span r.pos (r.pos + e.chars.length : Nat)).1.fragment.toList = e.chars := by
        have hrest : r.text.drop r.pos = e.chars ++ (ends.flatMap Newline.chars ++ ahead) := h.rest
        rw [Reader.fragment_span, hrest, Nat.add_sub_cancel_left, List.take_left,
          String.toList_ofList]
      have hafter : Before text
          ((r.span r.pos (r.pos + e.chars.length : Nat)).2.skip e.chars.length) _ :=
        (h.span r.pos (r.pos + e.chars.length)).advance rfl
      obtain ⟨hlast, -, hend⟩ := breaks_standsIn hafter
      refine ⟨?_, fun _ => rfl, hend⟩
      intro last heq
      simp only [Reader.breaks, Option.some.injEq] at heq
      cases hmore : (Reader.breaks ((r.span r.pos (r.pos + e.chars.length : Nat)).2.skip
          e.chars.length) ends).1 with
      | none =>
          rw [hmore, Option.getD_none] at heq
          rw [← heq]
          exact ⟨h.toSound.span_standsIn _ h.pos, e, hhere⟩
      | some found =>
          rw [hmore, Option.getD_some] at heq
          rw [← heq]
          exact hlast found hmore

theorem piece_standsIn {p : RawPiece} (hne : p.chars ≠ [])
    (h : r.Before text (p.chars ++ ahead)) :
    (r.piece p).1.StandsIn text ∧ (r.piece p).2.Before text ahead := by
  cases p with
  | text run =>
      have hafter : Before text (r.skip run.length) ahead := h.advance rfl
      exact ⟨hafter.toSound.span_standsIn _ h.pos, hafter.span _ (r.pos + run.length)⟩
  | call name args => exact call_standsIn h
  | breaks ends =>
      obtain ⟨hstands, hsome, hend⟩ := breaks_standsIn h
      obtain ⟨last, hlast⟩ := Option.isSome_iff_exists.mp (hsome fun e => hne (by rw [e]; rfl))
      obtain ⟨hspan, hnewline⟩ := hstands last hlast
      refine ⟨?_, hend⟩
      simp only [Reader.piece, hlast, Option.getD_some]
      split
      · exact hspan
      · exact .inr ⟨last, hspan, hnewline, rfl⟩

theorem pieces_standsIn : ∀ {r : Reader} {raw : List RawPiece}, (∀ p ∈ raw, p.chars ≠ []) →
    r.Before text (raw.flatMap RawPiece.chars ++ ahead) →
      (∀ p ∈ (r.pieces raw).1, p.StandsIn text) ∧ (r.pieces raw).2.Before text ahead
  | _, [], _, h => ⟨fun _ hp => (List.not_mem_nil hp).elim, h⟩
  | _, p :: raw, hne, h => by
      rw [List.flatMap_cons, List.append_assoc] at h
      obtain ⟨hpiece, hafter⟩ := piece_standsIn (hne p List.mem_cons_self) h
      obtain ⟨hpieces, hend⟩ :=
        pieces_standsIn (fun q hq => hne q (List.mem_cons_of_mem p hq)) hafter
      refine ⟨?_, hend⟩
      intro q hq
      rcases List.mem_cons.mp hq with rfl | hq
      · exact hpiece
      · exact hpieces q hq

end Reader

/-! ### What a scan leaves -/

/-- What is known of the text where a scan stopped. -/
def ScanStop.chars : ScanStop → List Char
  | .unclosed name args space =>
    '\\' :: name ++ args.flatMap RawArgument.chars ++ (space ++ ['{'])
  | .nameless => ['\\']
  | .unexpected c => [c]

theorem scanArguments_unclosed {cs space : List Char}
    (h : (scanArguments cs).unclosed = some space) :
    ∃ after, (scanArguments cs).rest = space ++ ['{'] ++ after := by
  fun_induction scanArguments cs with
  | case1 => cases h
  | case2 cs body hb hdrop =>
      refine ⟨body, ?_⟩
      cases h
      rw [List.append_assoc, List.singleton_append, ← hdrop, List.takeWhile_append_dropWhile]
  | case3 cs body content rest hb scan hdrop ih => exact ih h
  | case4 => cases h

/-- What was scanned and what stopped the scan make up the start of the region; no part is
empty. -/
structure RegionScan.Covers (cs : List Char) (scan : RegionScan) : Prop where
  nonempty : ∀ p ∈ scan.pieces, p.chars ≠ []
  chars : ∃ after, cs = scan.pieces.flatMap RawPiece.chars ++
    (scan.stop.elim [] ScanStop.chars ++ after)

theorem RegionScan.Covers.stop {cs : List Char} {stop : ScanStop} (after : List Char)
    (h : cs = stop.chars ++ after) : RegionScan.Covers cs ⟨[], some stop⟩ :=
  ⟨fun _ hp => (List.not_mem_nil hp).elim, after, h⟩

theorem RegionScan.Covers.cons {cs rest : List Char} {p : RawPiece} {scan : RegionScan}
    (h : scan.Covers rest) (hp : p.chars ≠ []) (hcs : cs = p.chars ++ rest) :
    (scan.cons p).Covers cs := by
  obtain ⟨after, hrest⟩ := h.chars
  refine ⟨?_, after, ?_⟩
  · intro q hq
    rcases List.mem_cons.mp hq with rfl | hq
    · exact hp
    · exact h.nonempty q hq
  · rw [hcs, RegionScan.cons, List.flatMap_cons, List.append_assoc]
    exact congrArg _ hrest

theorem scanRegion_covers (cs : List Char) : (scanRegion cs).Covers cs := by
  fun_induction scanRegion cs with
  | case1 => exact ⟨fun _ hp => (List.not_mem_nil hp).elim, [], rfl⟩
  | case2 c tail call hc space hspace =>
      obtain ⟨⟨name, rest⟩, hname, rfl⟩ := Option.map_eq_some_iff.mp hc
      obtain ⟨after, hafter⟩ := scanArguments_unclosed hspace
      refine .stop after ?_
      have hrest := scanArguments_append rest
      rw [hafter] at hrest
      rw [scanName_append hname]
      conv => lhs; rw [hrest]
      simp [ScanStop.chars]
  | case3 c tail call hc hclosed ih =>
      obtain ⟨⟨name, rest⟩, hname, rfl⟩ := Option.map_eq_some_iff.mp hc
      refine ih.cons (by simp [RawPiece.chars]) ?_
      have hrest := scanArguments_append rest
      rw [scanName_append hname]
      conv => lhs; rw [hrest]
      simp [RawPiece.chars]
  | case4 c tail hc htext ih =>
      refine ih.cons (by simp [RawPiece.chars]) ?_
      simp [RawPiece.chars]
  | case5 c tail hc htext rest hb =>
      refine .stop tail ?_
      split
      · next hslash => simp [ScanStop.chars, hslash]
      · simp [ScanStop.chars]
  | case6 c tail hc htext e ends rest hb ih =>
      have he := List.ne_nil_of_length_pos e.length_chars_pos
      refine ih.cons (by simp [RawPiece.chars, he]) ?_
      have hbreaks := scanBreaks_append (c :: tail)
      rw [hb] at hbreaks
      exact hbreaks

/-! ### Reading -/

theorem Reader.stopped_standsIn {text after : List Char} {r : Reader} {stop : ScanStop}
    (h : r.Before text (stop.chars ++ after)) : (r.stopped stop).span.StandsIn text := by
  cases stop with
  | unclosed name args space =>
      rw [ScanStop.chars, List.append_assoc] at h
      obtain ⟨-, hcall⟩ := call_standsIn h
      have hlength := hcall.length
      simp only [List.length_append] at hlength
      exact hcall.toSound.span_standsIn _ (by omega)
  | nameless | unexpected c => exact h.toSound.span_standsIn _ h.pos

/-- **All that reading a region gives stands in the text that the region stands in.** -/
theorem readRegion_standsIn {text : List Char} {region : Span} (h : region.StandsIn text) :
    match readRegion region with
    | .ok pieces => ∀ p ∈ pieces, p.StandsIn text
    | .error stop => stop.span.StandsIn text := by
  have hscan := scanRegion_covers (Reader.ofRegion region).text
  obtain ⟨after, hchars⟩ := hscan.chars
  have hbefore : (Reader.ofRegion region).Before text _ :=
    ⟨Reader.ofRegion_sound h, Nat.zero_le _, hchars⟩
  obtain ⟨hpieces, hend⟩ := Reader.pieces_standsIn hscan.nonempty hbefore
  unfold readRegion
  dsimp only
  cases hstop : (scanRegion (Reader.ofRegion region).text).stop with
  | none => exact hpieces
  | some stop =>
      rw [hstop] at hend
      exact Reader.stopped_standsIn hend

theorem readMarkup_standsIn (source : Source) {region : Span}
    (h : region.StandsIn source.text.toList) :
    match readMarkup source region with
    | .ok pieces => ∀ p ∈ pieces, p.StandsIn source.text.toList
    | .error e => e.span.StandsIn source.text.toList ∧ e.source = source.text := by
  have hread := readRegion_standsIn h
  unfold readMarkup
  cases hregion : readRegion region with
  | ok pieces =>
      rw [hregion] at hread
      exact hread
  | error stop =>
      rw [hregion] at hread
      exact ⟨hread, rfl⟩

theorem ArgMode.read_standsIn (source : Source) (mode : ArgMode) {region : Span}
    (h : region.StandsIn source.text.toList) :
    match mode.read source region with
    | .ok pieces => ∀ p ∈ pieces, p.StandsIn source.text.toList
    | .error e => e.span.StandsIn source.text.toList ∧ e.source = source.text := by
  cases mode with
  | markup => exact readMarkup_standsIn source h
  | literal =>
      intro p hp
      rw [List.mem_singleton.mp hp]
      exact h

end Markup
