import Markup.Proofs.Call.ScanLineEndings
import Markup.Proofs.Call.Spans
import Markup.Proofs.Token.LineEndings

/-! # Reading a text with other line ends

A region whose line feeds all become newlines of two characters is read as before: the same calls,
arguments and texts come up in the same lines, and each covers what it covered with the newlines in
it rewritten; where reading fails, it fails for the same reason in the same line
(`readRegion_crlf`).  Tokens and commands together are in `lineEnds_agree`.

The parts that are scanned correspond, so two readers walk through them side by side
(`Reader.Abreast`).  Where the one has read some text, the other has read the same with newlines of
two characters, and any part of what the region holds gets corresponding spans from them
(`Reader.Abreast.span`). -/

namespace Markup

open Text

/-! ### What is read -/

/-- The argument in the text with newlines of two characters. -/
def Argument.crlf (a : Argument) : Argument := ⟨a.name.map Span.crlf, a.value.crlf⟩

/-- The call in the text with newlines of two characters. -/
def Call.crlf (c : Call) : Call := ⟨c.name.crlf, c.args.map Argument.crlf⟩

/-- The piece in the text with newlines of two characters. -/
def Piece.crlf : Piece → Piece
  | text span => .text span.crlf
  | call c => .call c.crlf

/-- The source with newlines of two characters. -/
def Source.crlf (source : Source) : Source := { source with text := crlfText source.text }

theorem Source.crlf_span (source : Source) : source.crlf.span = source.span.crlf := by
  rw [Source.span, Source.span, Span.crlf]
  rfl

/-- The name of a paragraph command has no newline in it. -/
theorem crlf_parSpan (last : Span) : (Source.parSpan last).crlf = Source.parSpan last.crlf := by
  have hname : crlfText parCommand = parCommand := crlfText_of_notMem (by decide)
  rw [Source.parSpan, Span.crlf, hname]
  rfl

theorem RawArgument.crlf_chars (a : RawArgument) : a.crlf.chars = Text.crlf a.chars := by
  rw [RawArgument.chars, RawArgument.chars, crlf_append, crlf_append, crlf_cons (by decide),
    crlf_cons (by decide)]
  rfl

theorem RawArgument.length_chars (a : RawArgument) :
    a.chars.length = a.space.length + 1 + a.content.length + 1 := by
  simp only [RawArgument.chars, List.length_append, List.length_cons, List.length_nil]
  omega

/-! ### Readers -/

namespace Reader

/-- The span of a part of the region. -/
theorem span_of_split {r : Reader} {first part last : List Char}
    (hchars : r.text = first ++ part ++ last) (hlines : r.lines.Right r.text r.region.line) :
    (r.span first.length (first.length + part.length : Nat)).1 =
      ⟨r.region.offset + first.length, r.region.line + first.count '\n', String.ofList part⟩ := by
  have hline : (r.lines.moveTo r.text r.region.line first.length).line =
      r.region.line + ((r.text.take first.length).count '\n' : Nat) :=
    LineCursor.right_moveTo first.length hlines
  have htake : r.text.take first.length = first := by
    rw [hchars, List.append_assoc, List.take_left]
  have hpart : (r.text.drop first.length).take (first.length + part.length - first.length) =
      part := by
    rw [hchars, List.append_assoc, List.drop_left, Nat.add_sub_cancel_left, List.take_left]
  rw [htake] at hline
  rw [Reader.span, slice_natCast, hline, hpart]

/-- Two readers at the same place, the one behind `before` with `ahead` to read, and the other where
both have newlines of two characters. -/
structure Abreast (before ahead : List Char) (r r' : Reader) : Prop where
  region : r'.region = r.region.crlf
  chars : r.text = before ++ ahead
  crlf_chars : r'.text = crlf before ++ crlf ahead
  pos : r.pos = before.length
  crlf_pos : r'.pos = (crlf before).length
  lines : r.lines.Right r.text r.region.line
  crlf_lines : r'.lines.Right r'.text r'.region.line

variable {before ahead : List Char} {r r' : Reader}

/-- **A part of the region gets corresponding spans.** -/
theorem Abreast.span (h : Abreast before ahead r r') {first part last : List Char}
    (hsplit : before ++ ahead = first ++ part ++ last) {start stop start' stop' : Nat}
    (hstart : start = first.length) (hstop : stop = start + part.length)
    (hstart' : start' = (crlf first).length) (hstop' : stop' = start' + (crlf part).length) :
    (r'.span start' stop').1 = (r.span start stop).1.crlf ∧
      Abreast before ahead (r.span start stop).2 (r'.span start' stop').2 := by
  have hchars := h.chars.trans hsplit
  have hchars' : r'.text = crlf first ++ crlf part ++ crlf last := by
    rw [h.crlf_chars, ← crlf_append, hsplit, crlf_append, crlf_append]
  refine ⟨?_, h.region, h.chars, h.crlf_chars, h.pos, h.crlf_pos,
    LineCursor.right_moveTo start h.lines, LineCursor.right_moveTo start' h.crlf_lines⟩
  subst hstop hstop' hstart hstart'
  rw [span_of_split hchars h.lines, span_of_split hchars' h.crlf_lines, h.region, Span.crlf,
    Span.crlf, Span.mk.injEq, length_crlf, count_crlf, crlfText_ofList]
  refine ⟨?_, rfl, rfl⟩
  dsimp only
  push_cast
  omega

/-- A part of the region is on the line that it is on, however far it goes. -/
theorem Abreast.line (h : Abreast before ahead r r') {first last : List Char}
    (hsplit : before ++ ahead = first ++ last) {start stop start' stop' : Nat}
    (hstart : start = first.length) (hstart' : start' = (crlf first).length) :
    (r'.span start' stop').1.line = (r.span start stop).1.line := by
  have hempty : before ++ ahead = first ++ [] ++ last := by rw [hsplit, List.append_nil]
  obtain ⟨hspan, -⟩ := h.span hempty hstart rfl hstart' rfl
  have hline := congrArg Span.line hspan
  exact hline

/-- Both readers behind the next part. -/
theorem Abreast.advance {part : List Char} (h : Abreast before (part ++ ahead) r r')
    {pos pos' : Nat} (hpos : pos = r.pos + part.length)
    (hpos' : pos' = r'.pos + (crlf part).length) :
    Abreast (before ++ part) ahead { r with pos } { r' with pos := pos' } := by
  refine ⟨h.region, ?_, ?_, ?_, ?_, h.lines, h.crlf_lines⟩
  · rw [h.chars, List.append_assoc]
  · rw [h.crlf_chars, crlf_append, crlf_append, List.append_assoc]
  · rw [List.length_append, ← h.pos, hpos]
  · rw [crlf_append, List.length_append, ← h.crlf_pos, hpos']

/-! ### Commands -/

theorem Abreast.argument {a : RawArgument} (h : Abreast before (a.chars ++ ahead) r r') :
    (r'.argument a.crlf).1 = (r.argument a).1.crlf ∧
      Abreast (before ++ a.chars) ahead (r.argument a).2 (r'.argument a.crlf).2 := by
  obtain ⟨space, content⟩ := a
  have hclose : r.pos + space.length + 1 + content.length + 1 =
      r.pos + (RawArgument.chars ⟨space, content⟩).length := by
    rw [RawArgument.length_chars]
    dsimp only
    omega
  have hclose' : r'.pos + (crlf space).length + 1 + (crlf content).length + 1 =
      r'.pos + (crlf (RawArgument.chars ⟨space, content⟩)).length := by
    rw [← RawArgument.crlf_chars, RawArgument.length_chars]
    dsimp only [RawArgument.crlf]
    omega
  -- Both stand behind the argument while its spans are taken.
  have hafter := h.advance hclose hclose'
  have hstart : r.pos + space.length + 1 = (before ++ space ++ ['{']).length := by
    rw [h.pos, List.length_append, List.length_append, List.length_singleton]
  have hstart' : r'.pos + (crlf space).length + 1 = (crlf (before ++ space ++ ['{'])).length := by
    rw [h.crlf_pos, crlf_append, crlf_append, List.length_append, List.length_append]
    rfl
  unfold Reader.argument
  dsimp only [RawArgument.crlf]
  rw [splitKeyword_crlf]
  cases hkeyword : splitKeyword content with
  | none =>
      have hsplit : before ++ RawArgument.chars ⟨space, content⟩ ++ ahead =
          before ++ space ++ ['{'] ++ content ++ ('}' :: ahead) := by
        simp [RawArgument.chars]
      obtain ⟨hvalue, hend⟩ := hafter.span hsplit hstart rfl hstart' rfl
      exact ⟨congrArg (Argument.mk none) hvalue, hend⟩
  | some p =>
      obtain ⟨key, value⟩ := p
      obtain rfl := splitKeyword_append hkeyword
      have hname : before ++ RawArgument.chars ⟨space, key ++ '=' :: value⟩ ++ ahead =
          before ++ space ++ ['{'] ++ key ++ ('=' :: value ++ '}' :: ahead) := by
        simp [RawArgument.chars]
      have hvalue : before ++ RawArgument.chars ⟨space, key ++ '=' :: value⟩ ++ ahead =
          before ++ space ++ ['{'] ++ key ++ ['='] ++ value ++ ('}' :: ahead) := by
        simp [RawArgument.chars]
      obtain ⟨hnamed, hnamedEnd⟩ := hafter.span hname hstart rfl hstart' rfl
      have hsecond : r.pos + space.length + 1 + key.length + 1 =
          (before ++ space ++ ['{'] ++ key ++ ['=']).length := by
        simp only [hstart, List.length_append, List.length_singleton]
      have hsecond' : r'.pos + (crlf space).length + 1 + (crlf key).length + 1 =
          (crlf (before ++ space ++ ['{'] ++ key ++ ['='])).length := by
        simp only [hstart', crlf_append, List.length_append]
        rfl
      have hstop : r.pos + space.length + 1 + (key ++ '=' :: value).length =
          r.pos + space.length + 1 + key.length + 1 + value.length := by
        rw [List.length_append, List.length_cons]
        omega
      have hstop' : r'.pos + (crlf space).length + 1 + (crlf (key ++ '=' :: value)).length =
          r'.pos + (crlf space).length + 1 + (crlf key).length + 1 + (crlf value).length := by
        rw [crlf_append, crlf_cons (by decide), List.length_append, List.length_cons]
        omega
      obtain ⟨hvalued, hend⟩ := hnamedEnd.span hvalue hsecond hstop hsecond' hstop'
      refine ⟨?_, hend⟩
      exact congrArg₂ (fun name value => Argument.mk (some name) value) hnamed hvalued

theorem Abreast.arguments : ∀ {args : List RawArgument} {before : List Char} {r r' : Reader},
    Abreast before (args.flatMap RawArgument.chars ++ ahead) r r' →
      (r'.arguments (args.map RawArgument.crlf)).1 = (r.arguments args).1.map Argument.crlf ∧
        Abreast (before ++ args.flatMap RawArgument.chars) ahead (r.arguments args).2
          (r'.arguments (args.map RawArgument.crlf)).2
  | [], before, r, r', h => by
      rw [List.flatMap_nil, List.append_nil]
      exact ⟨rfl, h⟩
  | a :: args, before, r, r', h => by
      rw [List.flatMap_cons, List.append_assoc] at h
      obtain ⟨harg, hafter⟩ := h.argument
      obtain ⟨hargs, hend⟩ := hafter.arguments
      rw [List.flatMap_cons, ← List.append_assoc]
      exact ⟨congrArg₂ List.cons harg hargs, hend⟩

theorem Abreast.call {name : List Char} {args : List RawArgument}
    (h : Abreast before ('\\' :: name ++ args.flatMap RawArgument.chars ++ ahead) r r') :
    (r'.call (crlf name) (args.map RawArgument.crlf)).1 = (r.call name args).1.crlf ∧
      Abreast (before ++ ('\\' :: name ++ args.flatMap RawArgument.chars)) ahead
        (r.call name args).2 (r'.call (crlf name) (args.map RawArgument.crlf)).2 := by
  rw [List.append_assoc] at h
  have hskip' : r'.pos + ((crlf name).length + 1) = r'.pos + (crlf ('\\' :: name)).length := by
    rw [crlf_cons (by decide), List.length_cons]
  have hsplit : before ++ '\\' :: name ++ (args.flatMap RawArgument.chars ++ ahead) =
      before ++ ['\\'] ++ name ++ (args.flatMap RawArgument.chars ++ ahead) := by simp
  have hstart : r.pos + 1 = (before ++ ['\\']).length := by
    rw [h.pos, List.length_append, List.length_singleton]
  have hstart' : r'.pos + 1 = (crlf (before ++ ['\\'])).length := by
    rw [h.crlf_pos, crlf_append, List.length_append]
    rfl
  have hafter := h.advance (show r.pos + (name.length + 1) = _ from rfl) hskip'
  obtain ⟨hname, hnamed⟩ := hafter.span hsplit hstart rfl hstart' rfl
  obtain ⟨hargs, hend⟩ := hnamed.arguments
  rw [← List.append_assoc]
  exact ⟨congrArg₂ Call.mk hname hargs, hend⟩

/-! ### Regions -/

theorem Abreast.breaks : ∀ {ends : List Newline} {before : List Char} {r r' : Reader},
    (∀ e ∈ ends, e = .lf) → Abreast before (ends.flatMap Newline.chars ++ ahead) r r' →
      (r'.breaks (ends.map fun _ => .crlf)).1 = (r.breaks ends).1.map Span.crlf ∧
        Abreast (before ++ ends.flatMap Newline.chars) ahead (r.breaks ends).2
          (r'.breaks (ends.map fun _ => .crlf)).2
  | [], before, r, r', _, h => by
      rw [List.flatMap_nil, List.append_nil]
      exact ⟨rfl, h⟩
  | e :: ends, before, r, r', hends, h => by
      obtain rfl := hends e List.mem_cons_self
      rw [List.flatMap_cons, List.append_assoc] at h
      have hsplit : before ++ (Newline.lf.chars ++ (ends.flatMap Newline.chars ++ ahead)) =
          before ++ ['\n'] ++ (ends.flatMap Newline.chars ++ ahead) := by simp [Newline.chars]
      obtain ⟨hhere, hspan⟩ := h.span hsplit h.pos rfl h.crlf_pos rfl
      obtain ⟨hmore, hend⟩ := Abreast.breaks (fun e he => hends e (List.mem_cons_of_mem _ he))
        (hspan.advance rfl rfl)
      rw [List.flatMap_cons, ← List.append_assoc]
      exact ⟨congrArg some ((congrArg₂ Option.getD hmore hhere).trans (Option.getD_map ..)), hend⟩

/-- The newlines of a text without carriage returns are line feeds. -/
theorem eq_lf_of_mem {ends : List Newline} (h : '\r' ∉ ends.flatMap Newline.chars) :
    ∀ e ∈ ends, e = .lf := by
  intro e he
  cases e with
  | lf => rfl
  | crlf => exact (h (List.mem_flatMap.mpr ⟨_, he, List.mem_cons_self⟩)).elim

theorem Abreast.piece {p : RawPiece} (hne : p.chars ≠ []) (hcr : '\r' ∉ p.chars)
    (h : Abreast before (p.chars ++ ahead) r r') :
    (r'.piece p.crlf).1 = (r.piece p).1.crlf ∧
      Abreast (before ++ p.chars) ahead (r.piece p).2 (r'.piece p.crlf).2 := by
  cases p with
  | text run =>
      have hafter := h.advance (show r.pos + run.length = _ from rfl) rfl
      obtain ⟨hspan, hend⟩ := hafter.span rfl h.pos rfl h.crlf_pos rfl
      exact ⟨congrArg Piece.text hspan, hend⟩
  | call name args =>
      obtain ⟨hcall, hend⟩ := h.call
      exact ⟨congrArg Piece.call hcall, hend⟩
  | breaks ends =>
      obtain ⟨hlast, hend⟩ := h.breaks (eq_lf_of_mem hcr)
      refine ⟨?_, hend⟩
      have hsome : ∃ last, (r.breaks ends).1 = some last := by
        cases ends with
        | nil => exact (hne rfl).elim
        | cons e ends => exact ⟨_, rfl⟩
      obtain ⟨last, hfound⟩ := hsome
      rw [hfound, Option.map_some] at hlast
      rw [RawPiece.crlf, Reader.piece, Reader.piece]
      dsimp only
      rw [hlast, hfound, List.length_map]
      dsimp only [Option.getD_some]
      split
      · rfl
      · exact congrArg (fun name => Piece.call ⟨name, []⟩) (crlf_parSpan last).symm

theorem Abreast.pieces : ∀ {raw : List RawPiece} {before : List Char} {r r' : Reader},
    (∀ p ∈ raw, p.chars ≠ []) → '\r' ∉ raw.flatMap RawPiece.chars →
      Abreast before (raw.flatMap RawPiece.chars ++ ahead) r r' →
        (r'.pieces (raw.map RawPiece.crlf)).1 = (r.pieces raw).1.map Piece.crlf ∧
          Abreast (before ++ raw.flatMap RawPiece.chars) ahead (r.pieces raw).2
            (r'.pieces (raw.map RawPiece.crlf)).2
  | [], before, r, r', _, _, h => by
      rw [List.flatMap_nil, List.append_nil]
      exact ⟨rfl, h⟩
  | p :: raw, before, r, r', hne, hcr, h => by
      rw [List.flatMap_cons, List.append_assoc] at h
      rw [List.flatMap_cons, List.mem_append, not_or] at hcr
      obtain ⟨hpiece, hafter⟩ := h.piece (hne p List.mem_cons_self) hcr.1
      obtain ⟨hpieces, hend⟩ :=
        hafter.pieces (fun q hq => hne q (List.mem_cons_of_mem p hq)) hcr.2
      rw [List.flatMap_cons, ← List.append_assoc]
      exact ⟨congrArg₂ List.cons hpiece hpieces, hend⟩

/-- A failure is for the same reason, in the same line. -/
theorem Abreast.stopped {stop : ScanStop} (h : Abreast before (stop.chars ++ ahead) r r') :
    (r'.stopped stop.crlf).fault = (r.stopped stop).fault ∧
      (r'.stopped stop.crlf).span.line = (r.stopped stop).span.line := by
  cases stop with
  | unclosed name args space =>
      rw [ScanStop.chars, List.append_assoc] at h
      obtain ⟨-, hafter⟩ := h.call
      have hsplit : before ++ ('\\' :: name ++ args.flatMap RawArgument.chars) ++
          (space ++ ['{'] ++ ahead) =
          before ++ ('\\' :: name ++ args.flatMap RawArgument.chars) ++ space ++
            ('{' :: ahead) := by simp
      refine ⟨rfl, hafter.line hsplit ?_ ?_⟩
      · rw [List.length_append, ← hafter.pos]
      · rw [crlf_append, List.length_append, ← hafter.crlf_pos]
  | nameless => exact ⟨rfl, h.line rfl h.pos h.crlf_pos⟩
  | unexpected c => exact ⟨rfl, h.line rfl h.pos h.crlf_pos⟩

end Reader

theorem abreast_ofRegion (region : Span) :
    Reader.Abreast [] region.fragment.toList (Reader.ofRegion region)
      (Reader.ofRegion region.crlf) :=
  ⟨rfl, rfl, toList_crlfText _, rfl, rfl, by simp [LineCursor.Right, Reader.ofRegion],
    by simp [LineCursor.Right, Reader.ofRegion]⟩

/-- What is read, from what is scanned. -/
theorem readRegion_of_scan {region : Span} {scan : RegionScan}
    (h : scanRegion region.fragment.toList = scan) :
    readRegion region = match scan.stop with
      | none => .ok ((Reader.ofRegion region).pieces scan.pieces).1
      | some stop => .error (((Reader.ofRegion region).pieces scan.pieces).2.stopped stop) := by
  rw [← h]
  rfl

/-- **Line ends do not matter to commands**: a region of which the newlines are rewritten holds the
same pieces, with the newlines in them rewritten, or fails for the same reason in the same line. -/
theorem readRegion_crlf {region : Span} (h : '\r' ∉ region.fragment.toList) :
    match readRegion region, readRegion region.crlf with
    | .ok pieces, .ok pieces' => pieces' = pieces.map Piece.crlf
    | .error e, .error e' => e'.fault = e.fault ∧ e'.span.line = e.span.line
    | _, _ => False := by
  have habreast := abreast_ofRegion region
  have hscan := scanRegion_covers region.fragment.toList
  obtain ⟨after, hchars⟩ := hscan.chars
  have hcr : '\r' ∉ (scanRegion region.fragment.toList).pieces.flatMap RawPiece.chars :=
    fun hmem => h (by
      rw [hchars]
      exact List.mem_append_left _ hmem)
  rw [hchars] at habreast
  obtain ⟨hpieces, hend⟩ := habreast.pieces hscan.nonempty hcr
  have hcrlf : scanRegion region.crlf.fragment.toList =
      (scanRegion region.fragment.toList).crlf := by
    rw [← scanRegion_crlf h]
    exact congrArg scanRegion (toList_crlfText _)
  rw [readRegion_of_scan rfl, readRegion_of_scan hcrlf]
  generalize scanRegion region.fragment.toList = scan at hpieces hend ⊢
  obtain ⟨pieces, stop⟩ := scan
  cases stop with
  | none => exact hpieces
  | some stop => exact hend.stopped

/-- **Line ends do not matter.**  A text without carriage returns and the same text with newlines of
two characters have the same tokens and the same commands in the same lines, with the newlines in
what they cover rewritten, or are refused with the same message in the same line. -/
theorem lineEnds_agree {seg : Segmenter} {source : Source} (h : '\r' ∉ source.text.toList) :
    lex source.crlf.text seg =
        ((lex source.text seg).map (List.map (Token.mapSpan Span.crlf))).mapError LexError.crlf ∧
      match readMarkup source source.span, readMarkup source.crlf source.crlf.span with
      | .ok pieces, .ok pieces' => pieces' = pieces.map Piece.crlf
      | .error e, .error e' => e'.message = e.message ∧ e'.span.line = e.span.line
      | _, _ => False := by
  have hread : match readRegion source.span, readRegion source.span.crlf with
    | .ok pieces, .ok pieces' => pieces' = pieces.map Piece.crlf
    | .error e, .error e' => e'.fault = e.fault ∧ e'.span.line = e.span.line
    | _, _ => False := readRegion_crlf h
  refine ⟨lex_crlf h, ?_⟩
  rw [source.crlf_span, readMarkup, readMarkup]
  generalize readRegion source.span = read, readRegion source.span.crlf = read' at hread ⊢
  match read, read', hread with
  | .ok _, .ok _, hread => exact hread
  | .error _, .error _, hread => exact ⟨congrArg ParseFault.message hread.1, hread.2⟩

/-- A line that is folded behind a backslash inside braces, a name of an argument on two lines, a
paragraph break, and indentation. -/
def foldedSource : Source := { text := "\\a\x7bx\\\n\x7by\x7d\x7d  \x7bk\n=v\n\x7d\n\nb\n\tc" }

theorem lineEnds_agree_folded :
    '\r' ∉ foldedSource.text.toList ∧
      (lex foldedSource.text).map (List.map fun t => (t.kind, t.span.fragment)) =
        .ok [(.punct, "\\"), (.word, "a"), (.punct, "\x7b"), (.word, "x"), (.punct, "\\"),
          (.newline, "\n"), (.punct, "\x7b"), (.word, "y"), (.punct, "\x7d\x7d"), (.space, "  "),
          (.punct, "\x7b"), (.word, "k"), (.newline, "\n"), (.punct, "="), (.word, "v"),
          (.newline, "\n"), (.punct, "\x7d"), (.newline, "\n"), (.blankLines, "\n"), (.word, "b"),
          (.newline, "\n"), (.indent, "\t"), (.word, "c"), (.newline, ""), (.deindent, "")] ∧
      readMarkup foldedSource.crlf foldedSource.crlf.span =
        .ok [.call ⟨⟨1, 1, "a"⟩, [⟨none, ⟨3, 1, "x\\\r\n\x7by\x7d"⟩⟩,
            ⟨some ⟨14, 2, "k\r\n"⟩, ⟨18, 3, "v\r\n"⟩⟩]⟩,
          .call ⟨⟨24, 5, "par"⟩, []⟩, .text ⟨26, 6, "b"⟩, .text ⟨27, 6, "\r\n"⟩,
          .text ⟨29, 7, "\tc"⟩] ∧
      lex foldedSource.crlf.text =
        ((lex foldedSource.text).map (List.map (Token.mapSpan Span.crlf))).mapError
          LexError.crlf ∧
      match readMarkup foldedSource foldedSource.span,
        readMarkup foldedSource.crlf foldedSource.crlf.span with
      | .ok pieces, .ok pieces' => pieces' = pieces.map Piece.crlf
      | .error e, .error e' => e'.message = e.message ∧ e'.span.line = e.span.line
      | _, _ => False := by
  have hcr : '\r' ∉ foldedSource.text.toList := by decide
  exact ⟨hcr, by decide +kernel, by decide +kernel, lineEnds_agree hcr⟩

end Markup
