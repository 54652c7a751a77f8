import Std.Data.String.ToNat
import Markup.Compile
import Markup.Proofs.Text.Places

/-! # What a report shows

A report of an error with a place can be read back.  Its lines are counted from the last one up,
since a message and a file name may have lines of their own.  The last line has the carets and the
line above it what they stand under (`overCarets`); three lines above the carets stand the line and
the column (`reportedPlace?`).

`reportedPlace?_excerpt` and `overCarets_excerpt` say what is read, whatever the message and the
file are: the place of the span, and as many characters of its line from there on as there are
carets.

A source, an editor and a report each count line feeds and look for the last one in their own way.
All three come to the place at which the text before an offset ends (`Source.lineCol_eq`,
`position_eq_placeAt`, `excerpt_eq_reportAt`), so they agree (`Source.lineCol_corresponds`). -/

namespace Markup

open Text

/-! ### Reading a report -/

/-- The lines of a report from the last one up. -/
def linesUp (report : String) : List (List Char) := (linesBetween report.toList).reverse

/-- The line and the column that a report names, counted from one: the two numbers at the end of
the third line above the carets. -/
def reportedPlace? (report : String) : Option (Nat × Nat) := do
  let named ← (linesUp report)[3]?
  let line ← (named.splitOn ':').reverse[1]?
  let column ← (named.splitOn ':').reverse[0]?
  return (← (String.ofList line).toNat?, ← (String.ofList column).toNat?)

/-- The characters of a line that stand above a caret. -/
def marked (line marks : List Char) : List Char :=
  ((line.zip marks).filter (·.2 == '^')).map Prod.fst

/-- The characters that stand above the carets of a report. -/
def overCarets (report : String) : List Char :=
  match linesUp report with
  | marks :: line :: _ => marked line marks
  | _ => []

/-! ### Carets -/

section marked

variable {line line' marks marks' : List Char}

theorem marked_append (h : line.length = marks.length) :
    marked (line ++ line') (marks ++ marks') = marked line marks ++ marked line' marks' := by
  rw [marked, List.zip_append h, List.filter_append, List.map_append]
  rfl

theorem marked_of_notMem (h : '^' ∉ marks) : marked line marks = [] := by
  rw [marked, List.filter_eq_nil_iff.mpr, List.map_nil]
  intro pair hpair
  rw [beq_iff_eq]
  exact fun hcaret => h (hcaret ▸ (List.of_mem_zip hpair).2)

theorem marked_replicate (line : List Char) (n : Nat) :
    marked line (List.replicate n '^') = line.take n := by
  induction n generalizing line with
  | zero => cases line <;> rfl
  | succ n ih =>
      cases line with
      | nil => rfl
      | cons c line =>
          rw [List.take_succ_cons, ← ih line]
          rfl

/-- Carets behind some blanks mark what stands behind as many characters. -/
theorem marked_pad (line : List Char) (column n : Nat) :
    marked line (List.replicate column ' ' ++ List.replicate n '^') =
      (line.drop column).take n := by
  induction column generalizing line with
  | zero => exact marked_replicate line n
  | succ column ih =>
      cases line with
      | nil => rw [List.drop_nil, List.take_nil, marked, List.zip_nil_left]; rfl
      | cons c line =>
          rw [List.drop_succ_cons, ← ih line]
          rfl

end marked

/-! ### The lines of an excerpt -/

/-- What an excerpt shows of the line around an offset. -/
def shownLine (cs : List Char) (offset : Nat) : List Char :=
  trimEnd (· == '\r') (lineTail (cs.take offset) ++ firstLine (cs.drop offset))

/-- The number of carets under a line that is shown, from a column on. -/
def caretCount (span : Span) (shown : List Char) (column : Nat) : Nat :=
  max 1 (min (firstLine span.fragment.toList).length (shown.length - column))

section formulas

variable (cs : List Char) (offset : Int)

/-- The line that an offset is on starts behind the last line feed before it. -/
theorem lineStart_eq :
    rfind '\n' cs (clampOffset cs offset) + 1 =
      (clampOffset cs offset - (placeAt cs offset).column : Nat) := by
  rw [rfind_lineFeed, List.length_take_of_le (clampOffset_le cs offset), placeAt]

theorem column_placeAt_le : (placeAt cs offset).column ≤ clampOffset cs offset := by
  have hle := (lineTail_suffix (cs.take (clampOffset cs offset))).length_le
  rwa [List.length_take_of_le (clampOffset_le cs offset)] at hle

/-- What stands between the last line feed before an offset and the next one. -/
theorem line_around :
    (cs.take (clampOffset cs offset + (firstLine (cs.drop (clampOffset cs offset))).length)).drop
        (clampOffset cs offset - (placeAt cs offset).column) =
      lineTail (cs.take (clampOffset cs offset)) ++
        firstLine (cs.drop (clampOffset cs offset)) := by
  have hlength := List.length_take_of_le (clampOffset_le cs offset)
  have hfirst : firstLine (cs.drop (clampOffset cs offset)) <+: cs.drop (clampOffset cs offset) :=
    List.takeWhile_prefix _
  obtain ⟨earlier, hearlier⟩ := lineTail_suffix (cs.take (clampOffset cs offset))
  have hcolumn : clampOffset cs offset - (placeAt cs offset).column = earlier.length := by
    have hsum := congrArg List.length hearlier
    rw [List.length_append, hlength] at hsum
    rw [placeAt]
    dsimp only
    omega
  rw [hcolumn, List.take_add, ← List.prefix_iff_eq_take.mp hfirst]
  conv_lhs => rw [← hearlier, List.append_assoc, List.drop_left]

/-- The line and column of an offset is its place, counted from one. -/
theorem Source.lineCol_eq (s : Source) (offset : Int) :
    s.lineCol offset =
      ((placeAt s.text.toList offset).line + 1, (placeAt s.text.toList offset).column + 1) := by
  have hstart := lineStart_eq s.text.toList offset
  have hle := column_placeAt_le s.text.toList offset
  unfold lineCol
  dsimp only
  rw [max_min_toNat, Prod.mk.injEq]
  exact ⟨rfl, by omega⟩

/-- An editor counts the place of an offset. -/
theorem position_eq_placeAt (text : String) (offset : Int) :
    position text offset = placeAt text.toList offset := by
  have hstart := lineStart_eq text.toList offset
  have hle := column_placeAt_le text.toList offset
  unfold position
  dsimp only
  rw [max_min_toNat, hstart]
  refine congrArg (Place.mk _) ?_
  change (_ : Int).toNat = (placeAt text.toList offset).column
  omega

/-- **A report is about the place of its span** and the line around it. -/
theorem excerpt_eq_reportAt (message : String) (span : Span) (source filename : String) :
    excerpt message span source filename =
      let place := placeAt source.toList span.offset
      let shown := shownLine source.toList (clampOffset source.toList span.offset)
      reportAt message filename (place.line + 1) (place.column + 1) shown
        (caretCount span shown place.column) := by
  have hstart := lineStart_eq source.toList span.offset
  have hle := column_placeAt_le source.toList span.offset
  have hcolumn : clampOffset source.toList span.offset -
      (clampOffset source.toList span.offset - (placeAt source.toList span.offset).column) =
        (placeAt source.toList span.offset).column := by omega
  unfold excerpt
  dsimp only
  rw [max_min_toNat, find_lineFeed (clampOffset_le _ _), hstart, Int.toNat_natCast, line_around,
    hcolumn, Nat.add_sub_add_right]
  rfl

end formulas

theorem lineFeed_notMem_shownLine (cs : List Char) (offset : Nat) :
    '\n' ∉ shownLine cs offset := by
  intro hmem
  have hline := (List.reverse_sublist.mpr (List.dropWhile_sublist _)).subset hmem
  rw [List.reverse_reverse] at hline
  rcases List.mem_append.mp hline with hbefore | hbehind
  · exact lineFeed_notMem_lineTail _ hbefore
  · exact lineFeed_notMem_firstLine _ hbehind

theorem notMem_toString (n : Nat) {c : Char} (hc : c.isDigit = false) :
    c ∉ (toString n).toList := by
  intro hmem
  change c ∈ n.repr.toList at hmem
  rw [Nat.toList_repr] at hmem
  rw [Nat.isDigit_of_mem_toDigits (by omega) (by omega) hmem] at hc
  cases hc

/-- A line feed and a line without one is the last line of a text. -/
theorem reverse_linesBetween_concat {last : List Char} (h : '\n' ∉ last) (before : List Char) :
    (linesBetween (before ++ '\n' :: last)).reverse = last :: (linesBetween before).reverse := by
  rw [linesBetween_append_lineFeed, linesBetween_of_notMem h, List.reverse_append]
  rfl

/-- What goes on without a line feed ends the last line of a text. -/
theorem exists_reverse_linesBetween {last : List Char} (h : '\n' ∉ last) (before : List Char) :
    ∃ started above, (linesBetween (before ++ last)).reverse = (started ++ last) :: above := by
  obtain ⟨above, habove⟩ := List.getLast?_eq_some_iff.mp (getLast?_linesBetween (before ++ last))
  refine ⟨lineTail before, above.reverse, ?_⟩
  rw [habove, List.reverse_append, lineTail_append before h]
  rfl

variable (message filename source : String) (span : Span)

/-- The blanks in front of the bars of an excerpt. -/
def gutter (number : List Char) : List Char := List.replicate (number.length + 1) ' '

/-- The last four lines of an excerpt: the place, an empty one, the line of the text and the
carets. -/
theorem linesUp_excerpt {place : Place} (hplace : placeAt source.toList span.offset = place)
    {shown number column : List Char}
    (hshown : shownLine source.toList (clampOffset source.toList span.offset) = shown)
    (hnumber : (toString (place.line + 1)).toList = number)
    (hcolumn : (toString (place.column + 1)).toList = column) : ∃ named above,
    linesUp (excerpt message span source filename) =
      (gutter number ++ ['|', ' '] ++ (List.replicate place.column ' ' ++
        List.replicate (caretCount span shown place.column) '^')) ::
      (number ++ [' ', '|', ' '] ++ shown) ::
      (gutter number ++ ['|']) ::
      (named ++ ':' :: (number ++ ':' :: column)) :: above := by
  have hshown' : '\n' ∉ shown := hshown ▸ lineFeed_notMem_shownLine _ _
  have hnumber' : '\n' ∉ number := hnumber ▸ notMem_toString _ rfl
  have hcolumn' : '\n' ∉ column := hcolumn ▸ notMem_toString _ rfl
  have hnamed : '\n' ∉ ':' :: (number ++ ':' :: column) := by simp [hnumber', hcolumn']
  have hgutter : '\n' ∉ gutter number := by simp [gutter]
  have hchars : (excerpt message span source filename).toList =
      ((("error: " ++ message ++ "\n" ++ String.ofList (gutter number) ++ "--> " ++
        filename).toList ++ ':' :: (number ++ ':' :: column)) ++
      '\n' :: (gutter number ++ ['|'])) ++
      '\n' :: (number ++ [' ', '|', ' '] ++ shown) ++
      '\n' :: (gutter number ++ ['|', ' '] ++ (List.replicate place.column ' ' ++
        List.replicate (caretCount span shown place.column) '^')) := by
    subst hshown hcolumn hnumber hplace
    have hcolon : ":".toList = [':'] := rfl
    have hbreak : "\n".toList = ['\n'] := rfl
    have hempty : "|\n".toList = ['|', '\n'] := rfl
    have hshow : " | ".toList = [' ', '|', ' '] := rfl
    have hmark : "| ".toList = ['|', ' '] := rfl
    rw [excerpt_eq_reportAt]
    unfold reportAt
    dsimp only
    rw [gutter, Nat.add_sub_cancel]
    simp only [String.toList_append, String.toList_ofList, String.length_toList, List.append_assoc,
      List.cons_append, List.nil_append, hcolon, hbreak, hempty, hshow, hmark]
  obtain ⟨named, above, habove⟩ := exists_reverse_linesBetween hnamed
    ("error: " ++ message ++ "\n" ++ String.ofList (gutter number) ++ "--> " ++ filename).toList
  refine ⟨named, above, ?_⟩
  rw [linesUp, hchars, reverse_linesBetween_concat (by simp [hgutter]),
    reverse_linesBetween_concat (by simp [hnumber', hshown']),
    reverse_linesBetween_concat (by simp [hgutter]), habove]

/-- **A report names the place of its span**, whatever it says and whatever the file is called. -/
theorem reportedPlace?_excerpt :
    reportedPlace? (excerpt message span source filename) =
      some ((placeAt source.toList span.offset).line + 1,
        (placeAt source.toList span.offset).column + 1) := by
  obtain ⟨named, above, hlines⟩ := linesUp_excerpt message filename source span rfl rfl rfl rfl
  have hsplit : ∀ line column : Nat, ∃ rest,
      ((named ++ ':' :: ((toString line).toList ++ ':' :: (toString column).toList)).splitOn
        ':').reverse = (toString column).toList :: (toString line).toList :: rest := by
    intro line column
    refine ⟨(named.splitOn ':').reverse, ?_⟩
    rw [List.splitOn_append_cons_self, List.splitOn_append_cons_self,
      List.splitOn_eq_singleton (notMem_toString line rfl),
      List.splitOn_eq_singleton (notMem_toString column rfl), List.reverse_append]
    rfl
  have hread : ∀ n : Nat, (String.ofList (toString n).toList).toNat? = some n := by
    intro n
    rw [String.ofList_toList]
    exact Nat.toNat?_repr n
  obtain ⟨rest, hrest⟩ := hsplit ((placeAt source.toList span.offset).line + 1)
    ((placeAt source.toList span.offset).column + 1)
  rw [reportedPlace?, hlines]
  simp only [List.getElem?_cons_succ, List.getElem?_cons_zero, Option.bind_eq_bind,
    Option.bind_some, hrest, hread]
  rfl

/-- **A report puts its carets under the line from the column of its span on.** -/
theorem overCarets_excerpt :
    overCarets (excerpt message span source filename) =
      let place := placeAt source.toList span.offset
      let shown := shownLine source.toList (clampOffset source.toList span.offset)
      (shown.drop place.column).take (caretCount span shown place.column) := by
  obtain ⟨named, above, hlines⟩ := linesUp_excerpt message filename source span rfl rfl rfl rfl
  rw [overCarets, hlines]
  dsimp only
  rw [marked_append (by simp [gutter]), marked_of_notMem (by simp [gutter]), List.nil_append,
    marked_pad]

/-! ### Lines and columns -/

namespace Source

/-- An offset stands at a line and a column, both counted from one, if it is that far behind the
lines before, each with its line feed; the column goes up to one behind the last character. -/
def StandsAt (s : Source) (place : Nat × Nat) (o : Nat) : Prop :=
  ∃ earlier line later, linesBetween s.text.toList = earlier ++ line :: later ∧
    place.1 = earlier.length + 1 ∧ 1 ≤ place.2 ∧ place.2 ≤ line.length + 1 ∧
    (o : Int) = extent earlier + place.2 - 1

variable (s : Source)

/-- Counted from zero, these are the places of offsets. -/
theorem standsAt_iff_isAt (place : Nat × Nat) (o : Nat) :
    s.StandsAt place o ↔
      ∃ p : Place, p.IsAt s.text.toList o ∧ place = (p.line + 1, p.column + 1) := by
  constructor
  · rintro ⟨earlier, line, later, hlines, hline, hfirst, hlast, hoffset⟩
    refine ⟨⟨earlier.length, place.2 - 1⟩, ⟨earlier, line, later, hlines, rfl, ?_, ?_⟩, ?_⟩
    · change place.2 - 1 ≤ line.length
      omega
    · change o = extent earlier + (place.2 - 1)
      omega
    · rw [← hline, Nat.sub_add_cancel hfirst]
  · rintro ⟨p, ⟨earlier, line, later, hlines, hline, hcolumn, hoffset⟩, rfl⟩
    refine ⟨earlier, line, later, hlines, congrArg (· + 1) hline, Nat.le_add_left .., ?_, ?_⟩
    · exact Nat.succ_le_succ hcolumn
    · change (o : Int) = extent earlier + (p.column + 1 : Nat) - 1
      omega

theorem lineCol_eq_iff {p : Place} (o : Int) :
    s.lineCol o = (p.line + 1, p.column + 1) ↔ placeAt s.text.toList o = p := by
  rw [lineCol_eq, Prod.mk.injEq, Nat.succ_inj, Nat.succ_inj, Place.mk.injEq]

/-- **Offsets and places correspond one to one.**  The line and column of an offset within the text
are the ones it stands at, and every place at which an offset stands is its line and column.  A
later offset has a later place, and an offset outside the text the place of the nearest end.  An
editor counts the same place from zero, and a report names it as it is. -/
theorem lineCol_corresponds :
    (∀ (o : Nat) (place : Nat × Nat),
      s.StandsAt place o ↔ o ≤ s.text.length ∧ s.lineCol o = place) ∧
    StrictMonoOn (fun o : Nat => toLex (s.lineCol o)) (Set.Iic s.text.length) ∧
    (∀ o : Int, s.lineCol o = s.lineCol (max 0 (min o s.text.length))) ∧
    (∀ o : Int, s.lineCol o = ((position s.text o).line + 1, (position s.text o).column + 1)) ∧
    ∀ (message : String) (span : Span) (filename : String),
      reportedPlace? (excerpt message span s.text filename) = some (s.lineCol span.offset) := by
  refine ⟨fun o place => ?_, fun o ho o' ho' hlt => ?_, fun o => ?_, fun o => ?_,
    fun message span filename => ?_⟩
  · rw [standsAt_iff_isAt, ← String.length_toList]
    constructor
    · rintro ⟨p, hp, rfl⟩
      obtain ⟨hle, hplace⟩ := (isAt_iff _ p o).mp hp
      exact ⟨hle, (s.lineCol_eq_iff o).mpr hplace⟩
    · rintro ⟨hle, rfl⟩
      exact ⟨_, (isAt_iff _ _ o).mpr ⟨hle, rfl⟩, s.lineCol_eq o⟩
  · rw [← String.length_toList] at ho ho'
    have hplaces : (placeAt s.text.toList o).key < (placeAt s.text.toList o').key :=
      strictMonoOn_placeAt s.text.toList ho ho' hlt
    rw [Place.key, Place.key, Prod.Lex.toLex_lt_toLex] at hplaces
    rw [Prod.Lex.toLex_lt_toLex, lineCol_eq, lineCol_eq]
    exact hplaces.imp Nat.succ_lt_succ (And.imp (congrArg (· + 1)) Nat.succ_lt_succ)
  · have hclamp : clampOffset s.text.toList (max 0 (min o s.text.length)) =
        clampOffset s.text.toList o := by
      rw [clampOffset, clampOffset, String.length_toList]
      omega
    rw [lineCol_eq, lineCol_eq, placeAt_eq_endPlace, placeAt_eq_endPlace, hclamp]
  · rw [lineCol_eq, position_eq_placeAt]
  · rw [lineCol_eq, reportedPlace?_excerpt]

end Source

end Markup
