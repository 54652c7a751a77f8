import Markup.Proofs.Call.Spans

/-! # Lines counted on, and lines counted anew

A reader counts on from the last line it knows, so what line it gives a span could depend on all
the spans it was asked for before.  It does not: whatever came before, a span is the slice of the
region between its two positions, on the line that `Span.slice` finds by counting from the start of
the region.

A history is a list of queries, in any order: spans at any positions, failures, commands, and all
the rest of a region (`Reader.replies`).  Every query has a plain answer, where each span is a slice
of the region and nothing is remembered but how much has been read (`Span.replies`).  A reader is
`At` a position of a region if it has read so much of it and its cursor knows the line it is on;
each query keeps this and gets the plain answer, and by induction so does every history
(`Reader.replies_eq`). -/

namespace Markup

open Text

/-! ### Histories -/

/-- What a reader may be asked for. -/
inductive Query where
  /-- The span between a position and a signed index. -/
  | span (start : Nat) (stop : Int)
  /-- A failure: from where the reader is, if no start is given, and at one character, if no end
  is. -/
  | failure (fault : ParseFault) (start : Option Nat) (stop : Option Int)
  /-- The command that starts here. -/
  | command (minArgs : Int)
  /-- All that is still to be read. -/
  | rest
deriving DecidableEq, Repr

/-- What comes of a query. -/
inductive Reply where
  | span (span : Span)
  | failure (stop : ParseStop)
  | command (read : Except ParseStop (Option Call))
  | rest (read : Except ParseStop (List Piece))

namespace Reader

/-- The failure that a scan stopped with, and the reader behind it. -/
def stopAt (r : Reader) : ScanStop → ParseStop × Reader
  | .unclosed name args space => (r.call name args).2.unclosed space
  | .nameless => r.failAt .nameExpected r.pos (r.pos + 2 : Nat)
  | .unexpected c => r.failAtChar (.unexpected c) r.pos

theorem stopAt_fst (r : Reader) (stop : ScanStop) : (r.stopAt stop).1 = r.stopped stop := by
  cases stop <;> rfl

/-- Reads all that is left, for commands and text. -/
def readRest (r : Reader) : Except ParseStop (List Piece) × Reader :=
  let scan := scanRegion r.rest
  let (pieces, r) := r.pieces scan.pieces
  match scan.stop with
  | none => (.ok pieces, r)
  | some stop =>
    let (e, r) := r.stopAt stop
    (.error e, r)

/-- The answer to a query, and the reader behind it. -/
def reply (r : Reader) : Query → Reply × Reader
  | .span start stop => (r.span start stop).map .span id
  | .failure fault start stop =>
    let start := start.getD r.pos
    (r.failAt fault start (stop.getD (min (start + 1) r.text.length : Nat))).map .failure id
  | .command minArgs => (r.command minArgs).map .command id
  | .rest => r.readRest.map .rest id

/-- The answers to queries one after the other, and the reader behind them. -/
def replies (r : Reader) : List Query → List Reply × Reader
  | [] => ([], r)
  | q :: queries =>
    let (first, r) := r.reply q
    let (others, r) := r.replies queries
    (first :: others, r)

end Reader

theorem readRegion_eq_readRest (region : Span) :
    readRegion region = (Reader.ofRegion region).readRest.1 := by
  unfold readRegion Reader.readRest
  have hrest : (Reader.ofRegion region).rest = (Reader.ofRegion region).text := List.drop_zero
  rw [hrest]
  dsimp only
  cases (scanRegion (Reader.ofRegion region).text).stop with
  | none => rfl
  | some stop => exact congrArg Except.error (Reader.stopAt_fst _ stop).symm

/-! ### Plain answers -/

namespace Span

/-- A scanned argument that starts at a position, in slices. -/
def argumentAt (region : Span) (pos : Nat) (a : RawArgument) : Argument :=
  let start := pos + a.space.length + 1
  let close := start + a.content.length
  match splitKeyword a.content with
  | some (key, _) =>
    ⟨some (region.slice start (start + key.length : Nat)),
      region.slice (start + key.length + 1 : Nat) close⟩
  | none => ⟨none, region.slice start close⟩

/-- Scanned arguments from a position on, in slices. -/
def argumentsAt (region : Span) (pos : Nat) : List RawArgument → List Argument
  | [] => []
  | a :: args => region.argumentAt pos a :: region.argumentsAt (pos + a.chars.length) args

/-- A scanned command that starts at a position, in slices. -/
def callAt (region : Span) (pos : Nat) (name : List Char) (args : List RawArgument) : Call :=
  ⟨region.slice (pos + 1 : Nat) (pos + 1 + name.length : Nat),
    region.argumentsAt (pos + (name.length + 1)) args⟩

/-- The last of the newlines from a position on, as a slice. -/
def lastBreakAt (region : Span) (pos : Nat) : List Newline → Option Span
  | [] => none
  | e :: ends =>
    some ((region.lastBreakAt (pos + e.chars.length) ends).getD
      (region.slice pos (pos + e.chars.length : Nat)))

/-- A scanned part that starts at a position, in slices. -/
def pieceAt (region : Span) (pos : Nat) : RawPiece → Piece
  | .text run => .text (region.slice pos (pos + run.length : Nat))
  | .breaks ends =>
    let last := (region.lastBreakAt pos ends).getD default
    if ends.length = 1 then .text last else .call ⟨Source.parSpan last, []⟩
  | .call name args => .call (region.callAt pos name args)

/-- Scanned parts from a position on, in slices. -/
def piecesAt (region : Span) (pos : Nat) : List RawPiece → List Piece
  | [] => []
  | p :: raw => region.pieceAt pos p :: region.piecesAt (pos + p.chars.length) raw

/-- The index behind the character at a position, or the end. -/
def behindChar (region : Span) (pos : Nat) : Int := (min (pos + 1) region.fragment.length : Nat)

/-- The failure of a scan that stopped at a position, and how much has been read then. -/
def stopAt (region : Span) (pos : Nat) : ScanStop → ParseStop × Nat
  | .unclosed name args space =>
    let behind := pos + ('\\' :: name ++ args.flatMap RawArgument.chars).length
    let brace := behind + space.length
    (⟨.unclosedBrace, region.slice brace (region.behindChar brace)⟩, behind)
  | .nameless => (⟨.nameExpected, region.slice pos (pos + 2 : Nat)⟩, pos)
  | .unexpected c => (⟨.unexpected c, region.slice pos (region.behindChar pos)⟩, pos)

/-- The command that starts at a position, in slices, and how much has been read then. -/
def commandAt (region : Span) (pos : Nat) (minArgs : Int) :
    Except ParseStop (Option Call) × Nat :=
  match scanCall (region.fragment.toList.drop pos) with
  | none => (.ok none, pos)
  | some raw =>
    let behind := pos + ('\\' :: raw.name ++ raw.scan.args.flatMap RawArgument.chars).length
    match raw.scan.unclosed with
    | some space => (region.stopAt pos (.unclosed raw.name raw.scan.args space)).map .error id
    | none =>
      let call := region.callAt pos raw.name raw.scan.args
      if (call.args.length : Int) < minArgs then
        (.error ⟨.tooFewArguments minArgs call.name.fragment call.args.length,
          region.slice pos behind⟩, behind)
      else (.ok (some call), behind)

/-- All that stands behind a position, in slices, and how much has been read then. -/
def restAt (region : Span) (pos : Nat) : Except ParseStop (List Piece) × Nat :=
  let scan := scanRegion (region.fragment.toList.drop pos)
  let behind := pos + (scan.pieces.flatMap RawPiece.chars).length
  match scan.stop with
  | none => (.ok (region.piecesAt pos scan.pieces), behind)
  | some stop => (region.stopAt behind stop).map .error id

/-- The plain answer to a query at a position, and how much has been read then. -/
def reply (region : Span) (pos : Nat) : Query → Reply × Nat
  | .span start stop => (.span (region.slice start stop), pos)
  | .failure fault start stop =>
    let start := start.getD pos
    (.failure ⟨fault, region.slice start (stop.getD (region.behindChar start))⟩, pos)
  | .command minArgs => (region.commandAt pos minArgs).map .command id
  | .rest => (region.restAt pos).map .rest id

/-- The plain answers to queries one after the other. -/
def replies (region : Span) (pos : Nat) : List Query → List Reply
  | [] => []
  | q :: queries =>
    let (first, pos) := region.reply pos q
    first :: region.replies pos queries

/-- The line of a slice is that of the region and the newlines in front of it. -/
theorem slice_line (region : Span) (start : Nat) (stop : Int) :
    (region.slice start stop).line =
      region.line + ((region.fragment.toList.take start).count '\n' : Nat) := by
  have hfront : Text.slice region.fragment.toList 0 start = region.fragment.toList.take start :=
    slice_natCast region.fragment.toList 0 start
  rw [Span.slice, hfront]

end Span

/-! ### Readers at a position -/

namespace Reader

/-- The reader has read `pos` characters of the region, and knows the line of its cursor. -/
structure At (region : Span) (pos : Nat) (r : Reader) : Prop where
  text : r.text = region.fragment.toList
  region : r.region = region
  pos : r.pos = pos
  lines : r.lines.Right r.text r.region.line

variable {region : Span} {pos : Nat} {r : Reader}

theorem ofRegion_at (region : Span) : At region 0 (ofRegion region) :=
  ⟨rfl, rfl, rfl, by simp [LineCursor.Right, ofRegion]⟩

theorem At.moved (h : r.At region pos) (pos' : Nat) : At region pos' { r with pos := pos' } :=
  ⟨h.text, h.region, rfl, h.lines⟩

theorem At.skip (h : r.At region pos) (n : Nat) : (r.skip n).At region (pos + n) := by
  rw [← h.pos]
  exact h.moved (r.pos + n)

theorem At.rest (h : r.At region pos) : r.rest = region.fragment.toList.drop pos := by
  rw [Reader.rest, h.text, h.pos]

/-- **A span is a slice of the region**, and taking it leaves the reader where it is. -/
theorem At.span (h : r.At region pos) (start : Nat) (stop : Int) :
    (r.span start stop).1 = region.slice start stop ∧ (r.span start stop).2.At region pos := by
  have hmoved := LineCursor.right_moveTo start h.lines
  have hline : (r.lines.moveTo r.text r.region.line start).line =
      (region.slice start stop).line := by
    rw [region.slice_line, ← h.text, ← h.region]
    exact hmoved
  refine ⟨?_, h.text, h.region, h.pos, hmoved⟩
  rw [Reader.span, hline, h.region, h.text]
  rfl

theorem At.failAt (h : r.At region pos) (fault : ParseFault) (start : Nat) (stop : Int) :
    (r.failAt fault start stop).1 = ⟨fault, region.slice start stop⟩ ∧
      (r.failAt fault start stop).2.At region pos := by
  obtain ⟨hspan, hafter⟩ := h.span start stop
  exact ⟨congrArg (ParseStop.mk fault) hspan, hafter⟩

theorem At.behindChar (h : r.At region pos) (start : Nat) :
    ((min (start + 1) r.text.length : Nat) : Int) = region.behindChar start := by
  rw [h.text, String.length_toList]
  rfl

theorem At.failAtChar (h : r.At region pos) (fault : ParseFault) (start : Nat) :
    (r.failAtChar fault start).1 = ⟨fault, region.slice start (region.behindChar start)⟩ ∧
      (r.failAtChar fault start).2.At region pos := by
  rw [Reader.failAtChar, h.behindChar start]
  exact h.failAt fault start _

/-! ### One step -/

theorem At.argument (h : r.At region pos) (a : RawArgument) :
    (r.argument a).1 = region.argumentAt pos a ∧
      (r.argument a).2.At region (pos + a.chars.length) := by
  have hclose : pos + a.space.length + 1 + a.content.length + 1 = pos + a.chars.length := by
    simp only [RawArgument.chars, List.length_append, List.length_cons, List.length_nil]
    omega
  -- Both spans are taken with the reader behind the argument.
  have hbehind := h.moved (pos + a.chars.length)
  unfold Reader.argument Span.argumentAt
  rw [h.pos]
  dsimp only
  rw [hclose]
  cases splitKeyword a.content with
  | none =>
      obtain ⟨hvalue, hend⟩ := hbehind.span (pos + a.space.length + 1)
        (pos + a.space.length + 1 + a.content.length : Nat)
      exact ⟨congrArg (Argument.mk none) hvalue, hend⟩
  | some found =>
      obtain ⟨hname, hnamed⟩ := hbehind.span (pos + a.space.length + 1)
        (pos + a.space.length + 1 + found.1.length : Nat)
      obtain ⟨hvalue, hend⟩ := hnamed.span (pos + a.space.length + 1 + found.1.length + 1)
        (pos + a.space.length + 1 + a.content.length : Nat)
      exact ⟨congrArg₂ (fun name value => Argument.mk (some name) value) hname hvalue, hend⟩

theorem At.arguments : ∀ {pos : Nat} {r : Reader}, r.At region pos → ∀ args : List RawArgument,
    (r.arguments args).1 = region.argumentsAt pos args ∧
      (r.arguments args).2.At region (pos + (args.flatMap RawArgument.chars).length)
  | _, _, h, [] => ⟨rfl, h⟩
  | _, _, h, a :: args => by
      obtain ⟨hfirst, hafter⟩ := h.argument a
      obtain ⟨hothers, hend⟩ := hafter.arguments args
      rw [List.flatMap_cons, List.length_append, ← Nat.add_assoc]
      exact ⟨congrArg₂ List.cons hfirst hothers, hend⟩

theorem At.call (h : r.At region pos) (name : List Char) (args : List RawArgument) :
    (r.call name args).1 = region.callAt pos name args ∧
      (r.call name args).2.At region
        (pos + ('\\' :: name ++ args.flatMap RawArgument.chars).length) := by
  obtain ⟨hname, hnamed⟩ := (h.skip (name.length + 1)).span (pos + 1) (pos + 1 + name.length : Nat)
  obtain ⟨hargs, hend⟩ := hnamed.arguments args
  rw [List.length_append, List.length_cons, ← Nat.add_assoc]
  unfold Reader.call Span.callAt
  rw [h.pos]
  exact ⟨congrArg₂ Call.mk hname hargs, hend⟩

theorem At.breaks : ∀ {pos : Nat} {r : Reader}, r.At region pos → ∀ ends : List Newline,
    (r.breaks ends).1 = region.lastBreakAt pos ends ∧
      (r.breaks ends).2.At region (pos + (ends.flatMap Newline.chars).length)
  | _, _, h, [] => ⟨rfl, h⟩
  | pos, r, h, e :: ends => by
      obtain ⟨hhere, hspan⟩ := h.span pos (pos + e.chars.length : Nat)
      obtain ⟨hmore, hend⟩ := (hspan.skip e.chars.length).breaks ends
      rw [List.flatMap_cons, List.length_append, ← Nat.add_assoc]
      unfold Reader.breaks Span.lastBreakAt
      rw [h.pos]
      exact ⟨congrArg some (congrArg₂ Option.getD hmore hhere), hend⟩

theorem At.piece (h : r.At region pos) (p : RawPiece) :
    (r.piece p).1 = region.pieceAt pos p ∧ (r.piece p).2.At region (pos + p.chars.length) := by
  cases p with
  | text run =>
      obtain ⟨hspan, hend⟩ := (h.skip run.length).span pos (pos + run.length : Nat)
      unfold Reader.piece Span.pieceAt
      rw [h.pos]
      exact ⟨congrArg Piece.text hspan, hend⟩
  | breaks ends =>
      obtain ⟨hlast, hend⟩ := h.breaks ends
      refine ⟨?_, hend⟩
      rw [Reader.piece, Span.pieceAt, ← hlast]
  | call name args =>
      obtain ⟨hcall, hend⟩ := h.call name args
      exact ⟨congrArg Piece.call hcall, hend⟩

theorem At.pieces : ∀ {pos : Nat} {r : Reader}, r.At region pos → ∀ raw : List RawPiece,
    (r.pieces raw).1 = region.piecesAt pos raw ∧
      (r.pieces raw).2.At region (pos + (raw.flatMap RawPiece.chars).length)
  | _, _, h, [] => ⟨rfl, h⟩
  | _, _, h, p :: raw => by
      obtain ⟨hfirst, hafter⟩ := h.piece p
      obtain ⟨hothers, hend⟩ := hafter.pieces raw
      rw [List.flatMap_cons, List.length_append, ← Nat.add_assoc]
      exact ⟨congrArg₂ List.cons hfirst hothers, hend⟩

theorem At.stopAt (h : r.At region pos) (stop : ScanStop) :
    (r.stopAt stop).1 = (region.stopAt pos stop).1 ∧
      (r.stopAt stop).2.At region (region.stopAt pos stop).2 := by
  cases stop with
  | unclosed name args space =>
      obtain ⟨-, hbehind⟩ := h.call name args
      rw [Reader.stopAt, Reader.unclosed, hbehind.pos]
      exact hbehind.failAtChar .unclosedBrace _
  | nameless =>
      rw [Reader.stopAt, h.pos]
      exact h.failAt .nameExpected pos _
  | unexpected c =>
      rw [Reader.stopAt, h.pos]
      exact h.failAtChar (.unexpected c) pos

theorem At.command (h : r.At region pos) (minArgs : Int) :
    (r.command minArgs).1 = (region.commandAt pos minArgs).1 ∧
      (r.command minArgs).2.At region (region.commandAt pos minArgs).2 := by
  unfold Reader.command Span.commandAt
  rw [h.rest]
  cases scanCall (region.fragment.toList.drop pos) with
  | none => exact ⟨rfl, h⟩
  | some raw =>
      dsimp only
      obtain ⟨hcall, hbehind⟩ := h.call raw.name raw.scan.args
      rw [hcall]
      cases hunclosed : raw.scan.unclosed with
      | some space =>
          obtain ⟨hstop, hafter⟩ := h.stopAt (.unclosed raw.name raw.scan.args space)
          exact ⟨congrArg Except.error hstop, hafter⟩
      | none =>
          dsimp only
          split
          · obtain ⟨hstop, hafter⟩ := hbehind.failAt (.tooFewArguments minArgs
              (region.callAt pos raw.name raw.scan.args).name.fragment
              (region.callAt pos raw.name raw.scan.args).args.length) pos
              (pos + ('\\' :: raw.name ++ raw.scan.args.flatMap RawArgument.chars).length : Nat)
            rw [hbehind.pos, h.pos]
            exact ⟨congrArg Except.error hstop, hafter⟩
          · exact ⟨rfl, hbehind⟩

theorem At.readRest (h : r.At region pos) :
    r.readRest.1 = (region.restAt pos).1 ∧ r.readRest.2.At region (region.restAt pos).2 := by
  unfold Reader.readRest Span.restAt
  rw [h.rest]
  obtain ⟨hpieces, hbehind⟩ := h.pieces (scanRegion (region.fragment.toList.drop pos)).pieces
  dsimp only
  cases (scanRegion (region.fragment.toList.drop pos)).stop with
  | none => exact ⟨congrArg Except.ok hpieces, hbehind⟩
  | some stop =>
      obtain ⟨hstop, hafter⟩ := hbehind.stopAt stop
      exact ⟨congrArg Except.error hstop, hafter⟩

/-- **Every query gets the plain answer**, and leaves the reader where the plain reading is. -/
theorem At.reply (h : r.At region pos) (q : Query) :
    (r.reply q).1 = (region.reply pos q).1 ∧ (r.reply q).2.At region (region.reply pos q).2 := by
  cases q with
  | span start stop =>
      obtain ⟨hspan, hafter⟩ := h.span start stop
      exact ⟨congrArg Reply.span hspan, hafter⟩
  | failure fault start stop =>
      rw [Reader.reply, Span.reply, h.pos, h.behindChar]
      obtain ⟨hstop, hafter⟩ := h.failAt fault (start.getD pos)
        (stop.getD (region.behindChar (start.getD pos)))
      exact ⟨congrArg Reply.failure hstop, hafter⟩
  | command minArgs =>
      obtain ⟨hread, hafter⟩ := h.command minArgs
      exact ⟨congrArg Reply.command hread, hafter⟩
  | rest =>
      obtain ⟨hread, hafter⟩ := h.readRest
      exact ⟨congrArg Reply.rest hread, hafter⟩

/-! ### Whole histories -/

theorem At.replies : ∀ {pos : Nat} {r : Reader}, r.At region pos → ∀ queries : List Query,
    (r.replies queries).1 = region.replies pos queries ∧
      ∃ pos', (r.replies queries).2.At region pos'
  | pos, _, h, [] => ⟨rfl, pos, h⟩
  | _, _, h, q :: queries => by
      obtain ⟨hfirst, hafter⟩ := h.reply q
      obtain ⟨hothers, hend⟩ := hafter.replies queries
      exact ⟨congrArg₂ List.cons hfirst hothers, hend⟩

/-- **The lines that a reader remembers are those that are counted anew.**  In every history of a
region each query gets its plain answer, and behind it any span is the slice of the region, on the
line of the region plus the newlines in front of the span.  What the query for the rest gets at the
start is what is read of the region. -/
theorem replies_eq (region : Span) (queries : List Query) :
    (((ofRegion region).replies queries).1 = region.replies 0 queries ∧
      ∀ (start : Nat) (stop : Int),
        (((ofRegion region).replies queries).2.span start stop).1 = region.slice start stop ∧
          (((ofRegion region).replies queries).2.span start stop).1.line =
            region.line + ((region.fragment.toList.take start).count '\n' : Nat)) ∧
      ((ofRegion region).reply .rest).1 = .rest (readRegion region) := by
  obtain ⟨hreplies, pos, hafter⟩ := (ofRegion_at region).replies queries
  refine ⟨⟨hreplies, fun start stop => ?_⟩, ?_⟩
  · obtain ⟨hspan, -⟩ := hafter.span start stop
    rw [hspan]
    exact ⟨rfl, region.slice_line start stop⟩
  · rw [readRegion_eq_readRest]
    rfl

/-- A span behind the second newline, and then one that starts in front of it. -/
example : (((ofRegion ⟨5, 3, "a\nb\nc"⟩).replies [.span 4 5]).2.span 2 (-1)).1 = ⟨7, 4, "b\n"⟩ := by
  decide +kernel

end Reader

end Markup
