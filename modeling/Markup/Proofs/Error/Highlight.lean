import Markup.Proofs.Compile.Outcome
import Markup.Proofs.Error.Excerpt
import Markup.Proofs.Library.Blame

/-! # Carets and ranges

A report puts carets under the part of a line that an error is about, and an editor marks a range
of a line.  The carets are cut off where the line that is shown ends; the range ends where its last
offset stands, unless that is on another line.  Both start at the same place, and the text above the
carets is the text in the range but for carriage returns at the end (`highlight_agrees`).

That needs to be so only for what an error points at (`Span.FoundIn`).  A fragment of the text goes
no further on its first line than that line does, and where the name of a paragraph command does,
there is nothing left on the line but a carriage return (`Span.FoundIn.exists_split`). -/

namespace Markup

open Text

/-! ### Carriage returns at the end -/

/-- A text without the carriage returns at its end. -/
def trimReturns (cs : List Char) : List Char := trimEnd (· == '\r') cs

theorem trimReturns_append (cs rest : List Char) : trimReturns (cs ++ rest) =
    if (trimReturns rest).isEmpty then trimReturns cs else cs ++ trimReturns rest :=
  Html.trimEnd_append _ cs rest

theorem trimReturns_of_forall {cs : List Char} (h : ∀ c ∈ cs, c = '\r') : trimReturns cs = [] := by
  have hreverse : cs.reverse.dropWhile (· == '\r') = [] :=
    List.dropWhile_eq_nil_iff.mpr fun c hc => beq_iff_eq.mpr (h c (List.mem_reverse.mp hc))
  rw [trimReturns, trimEnd, hreverse, List.reverse_nil]

theorem exists_eq_trimReturns_append (cs : List Char) :
    ∃ returns, cs = trimReturns cs ++ returns ∧ ∀ c ∈ returns, c = '\r' := by
  refine ⟨(cs.reverse.takeWhile (· == '\r')).reverse, ?_, fun c hc => ?_⟩
  · rw [trimReturns, trimEnd, ← List.reverse_append, List.takeWhile_append_dropWhile,
      List.reverse_reverse]
  · have hreturn := List.mem_takeWhile_imp (List.mem_reverse.mp hc)
    exact beq_iff_eq.mp hreturn

/-- Behind the start of a line, what is shown of the line is what is shown of its rest. -/
theorem drop_trimReturns_append (cs rest : List Char) :
    (trimReturns (cs ++ rest)).drop cs.length = trimReturns rest := by
  rw [trimReturns_append]
  split
  · next hempty =>
    obtain ⟨returns, hcs, -⟩ := exists_eq_trimReturns_append cs
    have hlength := congrArg List.length hcs
    rw [List.length_append] at hlength
    rw [List.isEmpty_iff.mp hempty, List.drop_eq_nil_of_le (by omega)]
  · exact List.drop_left

/-- The first characters are the same, whether carriage returns at the end are dropped before. -/
theorem trimReturns_take (cs : List Char) (n : Nat) :
    trimReturns ((trimReturns cs).take n) = trimReturns (cs.take n) := by
  obtain ⟨returns, hcs, hreturns⟩ := exists_eq_trimReturns_append cs
  have hrest : trimReturns (returns.take (n - (trimReturns cs).length)) = [] :=
    trimReturns_of_forall fun c hc => hreturns c (List.mem_of_mem_take hc)
  conv_rhs => rw [hcs, List.take_append, trimReturns_append, hrest]
  rfl

/-! ### The text of a range -/

/-- The text in a range of one line. -/
def PlaceRange.text (cs : List Char) (r : PlaceRange) : List Char :=
  (((linesBetween cs)[r.start.line]?.getD []).drop r.start.column).take
    (r.stop.column - r.start.column)

section range

variable {before after : List Char} {line : Int} {fragment : String}

/-- The characters of a span on its first line, or one if there is none. -/
def Span.reach (s : Span) : Nat := max 1 (firstLine s.fragment.toList).length

theorem placeAt_append (before after : List Char) (n : Nat) :
    placeAt (before ++ after) ((before.length : Int) + n) = endPlace (before ++ after.take n) := by
  have hclamp : clampOffset (before ++ after) ((before.length : Int) + n) =
      before.length + min n after.length := by
    rw [clampOffset, List.length_append]
    omega
  rw [placeAt_eq_endPlace, hclamp, List.take_length_add_append, ← List.take_eq_take_min]

theorem placeAt_length (before after : List Char) :
    placeAt (before ++ after) before.length = endPlace before := by
  have hplace := placeAt_append before after 0
  rwa [List.take_zero, List.append_nil, Nat.cast_zero, Int.add_zero] at hplace

/-- The line on which a part of a text ends goes on with the first line of what follows. -/
theorem getElem?_linesBetween (before after : List Char) :
    (linesBetween (before ++ after))[(endPlace before).line]? =
      some (lineTail before ++ firstLine after) := by
  obtain ⟨earlier, later, hlines, hcount, -⟩ := exists_linesBetween_append before after
  rw [hlines, endPlace, ← hcount, List.getElem?_append_right (Nat.le_refl _), Nat.sub_self]
  rfl

/-- A range that starts behind `before` and is so long has that much of what follows on the line. -/
theorem PlaceRange.text_of_start {r : PlaceRange} {n : Nat} (hstart : r.start = endPlace before)
    (hstop : r.stop.column = r.start.column + n) :
    r.text (before ++ after) = (firstLine after).take n := by
  rw [text, hstop, hstart, getElem?_linesBetween, Option.getD_some, endPlace, List.drop_left,
    Nat.add_sub_cancel_left]

/-- An editor marks the reach of a span where no line feed is within it, and one character
otherwise. -/
theorem rangeOf_append (text : String) (htext : text.toList = before ++ after) (span : Span)
    (hoffset : span.offset = before.length) :
    (rangeOf text (some span)).start = endPlace before ∧
      (rangeOf text (some span)).stop = ⟨(endPlace before).line, (endPlace before).column +
        if '\n' ∈ after.take span.reach then 1 else (after.take span.reach).length⟩ := by
  have hstart : (rangeOf text (some span)).start = endPlace before := by
    rw [rangeOf, position_eq_placeAt, hoffset, htext]
    exact placeAt_length before after
  have hreach : position text (span.offset + max 1 (firstLine span.fragment.toList).length) =
      endPlace (before ++ after.take span.reach) := by
    rw [position_eq_placeAt, htext, hoffset, ← placeAt_append, Span.reach]
  refine ⟨hstart, ?_⟩
  have hstop : (rangeOf text (some span)).stop =
      if (endPlace (before ++ after.take span.reach)).line = (endPlace before).line then
        endPlace (before ++ after.take span.reach)
      else ⟨(endPlace before).line, (endPlace before).column + 1⟩ := by
    rw [← hstart, ← hreach]
    rfl
  rw [hstop]
  by_cases hbreak : '\n' ∈ after.take span.reach
  · have hcount := List.count_pos_iff.mpr hbreak
    rw [if_pos hbreak, if_neg]
    simp only [endPlace, List.count_append]
    omega
  · simp only [endPlace, List.count_append, List.count_eq_zero_of_not_mem hbreak, Nat.add_zero,
      lineTail_append before hbreak, List.length_append, if_neg hbreak, if_true]

end range

/-! ### Spans that errors have -/

/-- On its first line a fragment of the text goes no further than the line does; where the name of a
paragraph command stands, the line has no more than carriage returns. -/
theorem Span.FoundIn.exists_split {text : List Char} {span : Span} (h : span.FoundIn text) :
    ∃ before after, text = before ++ after ∧ span.offset = before.length ∧
      ((firstLine span.fragment.toList).length ≤ (firstLine after).length ∨
        ∀ c ∈ firstLine after, c = '\r') := by
  rcases h with ⟨before, after, htext, hoffset, -⟩ |
    ⟨last, ⟨before, after, htext, hoffset, -⟩, ⟨e, he⟩, rfl⟩
  · refine ⟨before, span.fragment.toList ++ after, by rw [htext, List.append_assoc], hoffset,
      .inl ?_⟩
    rw [firstLine, firstLine, List.takeWhile_append]
    split
    · next hwhole =>
      rw [hwhole, List.length_append]
      exact Nat.le_add_right ..
    · exact Nat.le_refl _
  · refine ⟨before, last.fragment.toList ++ after, by rw [htext, List.append_assoc], hoffset,
      .inr fun c hc => ?_⟩
    rw [he] at hc
    cases e with
    | lf => cases hc
    | crlf => exact List.mem_singleton.mp hc

/-! ### Clipping -/

section clipping

variable {before after : List Char} {text : String} {span : Span}

/-- What is within the first line of a text has no line feed. -/
theorem length_firstLine_lt {n : Nat} (h : '\n' ∈ after.take n) : (firstLine after).length < n := by
  by_contra hle
  have hprefix : firstLine after <+: after := List.takeWhile_prefix _
  have htake : after.take n <+: firstLine after :=
    List.prefix_of_prefix_length_le (List.take_prefix n after) hprefix
      ((List.length_take_le n after).trans (Nat.le_of_not_lt hle))
  exact lineFeed_notMem_firstLine after (htake.subset h)

/-- The range of a span has the reach of the span on its line, or one character of it if there is a
line feed in its reach. -/
theorem text_rangeOf (htext : text.toList = before ++ after)
    (hoffset : span.offset = before.length) :
    (rangeOf text (some span)).text text.toList =
      (firstLine after).take (if '\n' ∈ after.take span.reach then 1 else span.reach) := by
  obtain ⟨hstart, hstop⟩ := rangeOf_append text htext span hoffset
  have hcolumn := congrArg Place.column hstop
  rw [← hstart] at hcolumn
  rw [htext, PlaceRange.text_of_start hstart hcolumn]
  have hwhole : (firstLine after).take after.length = firstLine after :=
    List.take_of_length_le (List.takeWhile_prefix _).length_le
  split
  · rfl
  · rw [List.length_take, ← List.take_take, hwhole]

/-- Above the carets for a span is the reach of the span on the line that is shown. -/
theorem overCarets_report (htext : text.toList = before ++ after)
    (hoffset : span.offset = before.length) (message filename : String) :
    overCarets (excerpt message span text filename) =
      (trimReturns (firstLine after)).take span.reach := by
  have hclamp : clampOffset text.toList span.offset = before.length := by
    rw [clampOffset, hoffset, htext, List.length_append]
    omega
  have hplace : placeAt text.toList span.offset = endPlace before := by
    rw [htext, hoffset, placeAt_length]
  have hshown : shownLine text.toList before.length =
      trimReturns (lineTail before ++ firstLine after) := by
    rw [shownLine, htext, List.take_left, List.drop_left]
    rfl
  rw [overCarets_excerpt, hclamp, hplace, hshown]
  dsimp only
  rw [caretCount, endPlace, ← List.length_drop, drop_trimReturns_append, List.take_eq_take_iff,
    Span.reach]
  omega

/-- **Carets and range highlight the same text** but for carriage returns at its end. -/
theorem trimReturns_text_rangeOf (h : span.FoundIn text.toList) (message filename : String) :
    trimReturns ((rangeOf text (some span)).text text.toList) =
      trimReturns (overCarets (excerpt message span text filename)) := by
  obtain ⟨before, after, htext, hoffset, hline⟩ := h.exists_split
  rw [text_rangeOf htext hoffset, overCarets_report htext hoffset, trimReturns_take]
  split
  · next hbreak =>
    -- The reach goes on behind the line: then there is nothing but carriage returns left on it.
    have hreturns : ∀ c ∈ firstLine after, c = '\r' := by
      rcases hline with hle | hreturns
      · have hlt := length_firstLine_lt hbreak
        rw [Span.reach] at hlt
        have hnil : firstLine after = [] := List.length_eq_zero_iff.mp (by omega)
        intro c hc
        rw [hnil] at hc
        cases hc
      · exact hreturns
    have htake : ∀ n, trimReturns ((firstLine after).take n) = [] := fun n =>
      trimReturns_of_forall fun c hc => hreturns c (List.mem_of_mem_take hc)
    rw [htake, htake]
  · rfl

end clipping

/-! ### Errors of a text -/

/-- The error that an editor shows for a text: of its indentation, or else of its evaluation. -/
def Source.error? (source : Source) : Option Error :=
  match lex source.text with
  | .error e => some (.lex e)
  | .ok _ =>
    match (evaluateStandard source defaultMaxDepth).1 with
    | .error e => some e
    | .ok _ => none

section errors

variable {source : Source} {e : Error} {span : Span}

theorem diagnose_of_error? (h : source.error? = some e) (hspan : e.span? = some span) :
    ∃ d, diagnose source = [d] ∧ d.range = rangeOf source.text (some span) := by
  have hshown : diagnose source = (e.diagnostic? source.text).toList := by
    unfold Source.error? at h
    cases hlex : lex source.text with
    | error le =>
        rw [hlex] at h
        cases h
        exact diagnose_of_lex_error hlex
    | ok tokens =>
        rw [diagnose_of_lex hlex]
        cases heval : (evaluateStandard source defaultMaxDepth).1 with
        | error e' =>
            rw [hlex, heval] at h
            cases h
            rfl
        | ok d =>
            rw [hlex, heval] at h
            cases h
  rw [hshown]
  cases e with
  | lex e => exact ⟨_, rfl, by rw [← hspan]; rfl⟩
  | parse e => exact ⟨_, rfl, by rw [← hspan]; rfl⟩
  | command e => exact ⟨_, rfl, by rw [← hspan]; rfl⟩
  | arguments _ | build _ | render _ | unpushable _ | overflow _ | other _ => cases hspan

theorem lex_error_standsIn {seg : Segmenter} {text : String} {e : LexError}
    (h : lex text seg = .error e) :
    e.span.StandsIn text.toList := by
  unfold lex lexChars at h
  cases hlines : lexLines seg {} (linesOf text.toList) with
  | ok tokens =>
      rw [hlines] at h
      cases h
  | error stop =>
      rw [hlines] at h
      cases h
      have hfirst : linesOf text.toList = [] ++ linesOf text.toList := rfl
      exact standsIn_of_lexLines hfirst ⟨rfl, rfl⟩ hlines

/-- A located error with a place is reported as an excerpt of the text. -/
theorem Error.Located.report_eq {text : String} (h : e.Located text) (hspan : e.span? = some span)
    (filename : String) : e.report filename = excerpt e.message span text filename := by
  cases e with
  | lex e =>
      obtain ⟨-, rfl⟩ := h
      cases hspan
      rfl
  | parse e =>
      obtain ⟨-, rfl⟩ := h
      cases hspan
      rfl
  | command e =>
      obtain ⟨-, -, hsource⟩ := h
      obtain hspan : e.span = some span := hspan
      rw [report, CommandError.format, hspan, hsource]
      rfl
  | arguments _ | build _ | render _ | unpushable _ | overflow _ | other _ => cases hspan

/-- What is wrong with a text is reported as an excerpt of it, for a span that is found in it. -/
theorem report_of_error? (h : source.error? = some e) (hspan : e.span? = some span) :
    span.FoundIn source.text.toList ∧
      ∀ filename, e.report filename = excerpt e.message span source.text filename := by
  unfold Source.error? at h
  cases hlex : lex source.text with
  | error le =>
      rw [hlex] at h
      cases h
      cases hspan
      have hlocated : (Error.lex le).Located source.text := lex_error_inText hlex
      exact ⟨.inl (lex_error_standsIn hlex), hlocated.report_eq rfl⟩
  | ok tokens =>
      rw [hlex] at h
      cases heval : (evaluateStandard source defaultMaxDepth).1 with
      | ok d =>
          rw [heval] at h
          cases h
      | error e' =>
          rw [heval] at h
          cases h
          refine ⟨foundIn_of_evaluateStandard heval hspan, ?_⟩
          have hlocated : e.Located source.text := by
            cases hread : readMarkup source source.span with
            | error pe =>
                have hstands := readMarkup_standsIn source source.span_standsIn
                rw [hread] at hstands
                rw [evaluateStandard_eq_of_error hread] at heval
                cases heval
                exact ⟨hstands.1.inText, hstands.2⟩
            | ok pieces =>
                have hclosed : Closed source defaultMaxDepth {} _ :=
                  closed_of_read {} ⟨⟨tokens, hlex⟩, hread⟩
                rw [heval] at hclosed
                rcases hclosed.ends with ⟨html, hok⟩ | ⟨e', herror, hlocated⟩ | hleft |
                  ⟨resource, hroom⟩
                · cases hok
                · cases herror
                  exact hlocated
                · cases hleft
                  cases hspan
                · cases hroom
                  cases hspan
          exact hlocated.report_eq hspan

/-- **Carets and editor ranges highlight the same text.**  If an error with a place is what an
editor shows of a text, it shows nothing else, at a range of one line that does not end before it
starts.  Whatever the file is called, the report of the error names the start of the range, counted
from one, and has its carets under the text in the range but for carriage returns at the end. -/
theorem highlight_agrees (h : source.error? = some e) (hspan : e.span? = some span) :
    ∃ d, diagnose source = [d] ∧
      d.range.start.line = d.range.stop.line ∧ d.range.start.column ≤ d.range.stop.column ∧
      ∀ filename,
        reportedPlace? (e.report filename) =
          some (d.range.start.line + 1, d.range.start.column + 1) ∧
        trimReturns (d.range.text source.text.toList) =
          trimReturns (overCarets (e.report filename)) := by
  obtain ⟨d, hd, hrange⟩ := diagnose_of_error? h hspan
  obtain ⟨hfound, hreport⟩ := report_of_error? h hspan
  obtain ⟨before, after, htext, hoffset, -⟩ := hfound.exists_split
  obtain ⟨hstart, hstop⟩ := rangeOf_append source.text htext span hoffset
  refine ⟨d, hd, ?_, ?_, fun filename => ?_⟩
  · rw [hrange, hstart, hstop]
  · rw [hrange, hstart, hstop]
    exact Nat.le_add_right ..
  · rw [hreport, hrange, reportedPlace?_excerpt, ← position_eq_placeAt]
    exact ⟨rfl, trimReturns_text_rangeOf hfound _ _⟩

/-- The name of a paragraph command is longer than what is left of the line it stands on. -/
theorem highlight_agrees_par :
    let source : Source := { text := "\\link\x7ba\r\n\r\nb\x7d" }
    let e : Error := .command
      ⟨.shape (.commandInText "par"), some ⟨9, 2, "par"⟩, some "\\link\x7ba\r\n\r\nb\x7d"⟩
    source.error? = some e ∧
    ∃ d, diagnose source = [d] ∧
      d.range.start.line = d.range.stop.line ∧ d.range.start.column ≤ d.range.stop.column ∧
      ∀ filename,
        reportedPlace? (e.report filename) =
          some (d.range.start.line + 1, d.range.start.column + 1) ∧
        trimReturns (d.range.text source.text.toList) =
          trimReturns (overCarets (e.report filename)) := by
  intro source e
  have herror : source.error? = some e := by decide +kernel
  exact ⟨herror, highlight_agrees herror rfl⟩

end errors

end Markup
