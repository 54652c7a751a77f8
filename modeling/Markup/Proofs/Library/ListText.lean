import Markup.Proofs.Call.Segments
import Markup.Proofs.Html.Spacing
import Markup.Proofs.Library.Lists

/-! # Lists as they are written

A list is written as its command with entries in braces, each entry as its command with arguments
in braces, and with space in front of the entries and behind each of them (`ListText`).  Such a text
is read to one call, and its body to the words of the entries with those of the space between them
(`ListText.exists_alone`): neither the space nor what stands in the braces of an entry changes how
the rest is read. -/

namespace Markup

open Text

/-! ### What stands in front of a command -/

/-- Nothing, or a backslash, comes first. -/
def SlashNext (cs : List Char) : Prop := ∀ c ∈ cs.head?, c = '\\'

theorem SlashNext.noBreak {cs : List Char} (h : SlashNext cs) : NoBreak cs := by
  rintro e ⟨rest, rfl⟩
  cases e with
  | lf => exact absurd (h '\n' rfl) (by decide)
  | crlf => exact absurd (h '\r' rfl) (by decide)

/-- A step in a text without markup is the same in front of a backslash. -/
theorem MarkupFree.step_append {cs rest tail : List Char} {p : RawPiece} (h : MarkupFree cs)
    (hstep : ScanStep cs p rest) (htail : SlashNext tail) :
    ScanStep (cs ++ tail) p (rest ++ tail) := by
  have hrest : MarkupFree rest := of_append (hstep.chars ▸ h)
  cases hstep with
  | call hcommand _ => exact (h.not_commandAt hcommand).elim
  | text hne hrun hstop =>
      rw [List.append_assoc]
      refine .text hne hrun ?_
      cases rest with
      | cons c rest => exact hstop
      | nil =>
          intro c hc
          rw [htail c hc]
          rfl
  | breaks hne hstop =>
      rw [List.append_assoc]
      refine .breaks hne ?_
      by_cases hnil : rest = []
      · rw [hnil]
        exact htail.noBreak
      · refine noBreak_append hstop hnil ?_
        rintro rfl
        have hnext := hrest.returns 0 (by decide) rfl
        cases hnext

/-- **A text without markup is scanned the same way in front of a command.** -/
theorem MarkupFree.scanRegion_append {cs tail : List Char} (h : MarkupFree cs)
    (htail : SlashNext tail) :
    scanRegion (cs ++ tail) =
      ⟨(scanRegion cs).pieces ++ (scanRegion tail).pieces, (scanRegion tail).stop⟩ := by
  -- The induction follows the steps of the scan.
  have hrun := scanRegion_run cs
  generalize scanRegion cs = scan at hrun
  induction hrun with
  | done => simp
  | stuck hstuck => exact (h.not_stuck hstuck).elim
  | @step cs rest p scan hstep _ ih =>
      have hrest : MarkupFree rest := of_append (hstep.chars ▸ h)
      rw [(h.step_append hstep htail).scanRegion_eq, ih hrest]
      rfl

/-- A command with arguments is scanned as one part, if nothing follows that belongs to it. -/
theorem scanRegion_command {name rest : List Char} {args : List RawArgument}
    (hname : ∃ c more, name = c :: more ∧ isNameStart c ∧ more.all isNameContinue)
    (hargs : ∀ a ∈ args, a.Valid)
    (hstop : ∀ c ∈ (args.flatMap RawArgument.chars ++ rest).head?, isNameContinue c = false)
    (hbrace : NoBrace rest) :
    scanRegion ('\\' :: name ++ (args.flatMap RawArgument.chars ++ rest)) =
      (scanRegion rest).cons (.call name args) := by
  have hscan := scanArguments_flatMap hargs rest
  rw [scanArguments_of_noBrace hbrace, List.append_nil] at hscan
  refine scanRegion_call ?_
  rw [scanCall, scanName_eq_some_iff.mpr ⟨rfl, hname, hstop⟩, Option.map_some]
  dsimp only
  rw [hscan]

/-! ### Balanced text -/

theorem Balanced.append {cs ds : List Char} (h : Balanced cs) (hds : Balanced ds) :
    Balanced (cs ++ ds) := by
  induction h with
  | nil => exact hds
  | char hslash hopen hclose _ ih => exact .char hslash hopen hclose ih
  | escape c _ ih => exact .escape c ih
  | @braces body cs hbody _ _ ih =>
      have e : '{' :: body ++ '}' :: cs ++ ds = '{' :: body ++ '}' :: (cs ++ ds) := by simp
      rw [e]
      exact .braces hbody ih

theorem Balanced.flatMap {α : Type} {xs : List α} {f : α → List Char}
    (h : ∀ x ∈ xs, Balanced (f x)) : Balanced (xs.flatMap f) := by
  induction xs with
  | nil => exact .nil
  | cons x xs ih =>
      rw [List.flatMap_cons]
      exact (h x List.mem_cons_self).append (ih fun y hy => h y (List.mem_cons_of_mem x hy))

theorem balanced_of_plain {cs : List Char} (h : ∀ c ∈ cs, c ≠ '\\' ∧ c ≠ '{' ∧ c ≠ '}') :
    Balanced cs := by
  induction cs with
  | nil => exact .nil
  | cons c cs ih =>
      obtain ⟨hslash, hopen, hclose⟩ := h c List.mem_cons_self
      exact .char hslash hopen hclose (ih fun d hd => h d (List.mem_cons_of_mem c hd))

/-! ### Space between commands -/

theorem exists_textGroups_cons : ∀ words : List Wording, ∃ g gs, textGroups words = g :: gs
  | [] => ⟨_, _, rfl⟩
  | .text t :: rest => by
      obtain ⟨g, gs, hrest⟩ := exists_textGroups_cons rest
      exact ⟨t :: g, gs, by rw [textGroups, hrest]; rfl⟩
  | .call _ _ :: rest => ⟨_, _, rfl⟩

theorem mem_of_mem_textGroups : ∀ {words : List Wording} {g : List String},
    g ∈ textGroups words → ∀ {t : String}, t ∈ g → .text t ∈ words
  | [], g, hg, t, ht => by
      rw [List.mem_singleton.mp hg] at ht
      cases ht
  | .text u :: rest, g, hg, t, ht => by
      obtain ⟨g', gs, hrest⟩ := exists_textGroups_cons rest
      rw [textGroups, hrest] at hg
      have hsame : ∀ {x}, x ∈ g' :: gs → x ∈ textGroups rest := fun hx => hrest ▸ hx
      rcases List.mem_cons.mp hg with rfl | hg
      · rcases List.mem_cons.mp ht with rfl | ht
        · exact List.mem_cons_self
        · exact List.mem_cons_of_mem _ (mem_of_mem_textGroups (hsame List.mem_cons_self) ht)
      · exact List.mem_cons_of_mem _
          (mem_of_mem_textGroups (hsame (List.mem_cons_of_mem _ hg)) ht)
  | .call _ _ :: rest, g, hg, t, ht => by
      rcases List.mem_cons.mp hg with rfl | hg
      · cases ht
      · exact List.mem_cons_of_mem _ (mem_of_mem_textGroups hg ht)

/-- Spaces, tabs and newlines, as they may stand between commands; a carriage return is a part of a
newline. -/
structure Spacing where
  text : String
  chars : IsSpacing text
  returns : ∀ i < text.toList.length, text.toList[i]? = some '\r' → text.toList[i + 1]? = some '\n'

namespace Spacing

/-- No space. -/
def none : Spacing := ⟨"", by decide, by decide⟩

theorem markupFree (s : Spacing) : MarkupFree s.text.toList where
  slash := fun hslash => absurd (s.chars _ hslash) (by decide)
  returns := s.returns

theorem balanced (s : Spacing) : Balanced s.text.toList := by
  have hplain : Html.Every (fun c => c ≠ '\\' ∧ c ≠ '{' ∧ c ≠ '}') spacingChars := by decide
  exact balanced_of_plain fun c hc => hplain c (s.chars c hc)

/-- The words of the space: texts and paragraph commands. -/
def words (s : Spacing) : List Wording := (scanRegion s.text.toList).pieces.map RawPiece.wording

/-- The texts before the first paragraph command. -/
def run (s : Spacing) : List String := (textGroups s.words).headD []

/-- Space comes before the first run of two or more newlines. -/
def clings (s : Spacing) : Bool := (segments s.text.toList).head? != some []

theorem plain_words (s : Spacing) : ∀ word ∈ s.words, word.Plain := s.markupFree.scan.2.1

/-- Every text in the space is a piece of it. -/
theorem of_mem_words {s : Spacing} {t : String} (h : .text t ∈ s.words) : t ≠ "" ∧ IsSpacing t := by
  obtain ⟨p, hp, hword⟩ := List.mem_map.mp h
  have hcovers := scanRegion_covers s.text.toList
  have hne := hcovers.nonempty p hp
  obtain ⟨after, hchars⟩ := hcovers.chars
  have hmem : ∀ c ∈ p.chars, c ∈ s.text.toList := by
    intro c hc
    rw [hchars]
    exact List.mem_append_left _ (List.mem_flatMap.mpr ⟨p, hp, hc⟩)
  obtain rfl : t = String.ofList p.chars := by
    cases p with
    | text run => exact (Wording.text.inj hword).symm
    | breaks ends =>
        rw [RawPiece.wording] at hword
        split at hword
        · exact (Wording.text.inj hword).symm
        · cases hword
    | call name args => cases hword
  refine ⟨fun hempty => hne ?_, fun c hc => ?_⟩
  · have hlist := congrArg String.toList hempty
    rwa [String.toList_ofList] at hlist
  · rw [String.toList_ofList] at hc
    exact s.chars c (hmem c hc)

theorem of_mem_textGroups {s : Spacing} {g : List String} (hg : g ∈ textGroups s.words)
    {t : String} (ht : t ∈ g) : t ≠ "" ∧ IsSpacing t :=
  of_mem_words (mem_of_mem_textGroups hg ht)

theorem isSpacing_join {s : Spacing} {g : List String} (hg : g ∈ textGroups s.words) :
    IsSpacing (String.join g) := by
  intro c hc
  rw [String.toList_join] at hc
  obtain ⟨t, ht, hmem⟩ := List.mem_flatMap.mp hc
  exact (of_mem_textGroups hg ht).2 c hmem

theorem run_mem (s : Spacing) : s.run ∈ textGroups s.words := by
  obtain ⟨g, gs, hgroups⟩ := exists_textGroups_cons s.words
  rw [run, hgroups]
  exact List.mem_cons_self

/-- Texts that are not empty do not join to nothing. -/
theorem join_run_ne_empty {s : Spacing} (h : s.run ≠ []) : String.join s.run ≠ "" := by
  obtain ⟨t, rest, hrun⟩ := List.exists_cons_of_ne_nil h
  have ht : t ≠ "" := (of_mem_textGroups s.run_mem (hrun ▸ List.mem_cons_self)).1
  rw [hrun, String.join_cons]
  intro hempty
  exact ht (String.append_eq_empty_iff.mp hempty).1

/-- The run before the first paragraph command is what stands there. -/
theorem clings_iff (s : Spacing) : s.clings = true ↔ s.run ≠ [] := by
  obtain ⟨g, gs, hgroups⟩ := exists_textGroups_cons s.words
  have hjoin := s.markupFree.scan.2.2
  change (textGroups s.words).map String.join = _ at hjoin
  have hrun : s.run = g := by
    rw [run, hgroups]
    rfl
  rw [hgroups, List.map_cons] at hjoin
  obtain ⟨seg, segs, hsegments, hseg, -⟩ := List.map_eq_cons_iff.mp hjoin.symm
  have hne := join_run_ne_empty (s := s)
  rw [hrun] at hne ⊢
  rw [clings, hsegments, List.head?_cons, bne_iff_ne]
  constructor
  · rintro hclings rfl
    have hlist := congrArg String.toList hseg
    rw [String.toList_ofList] at hlist
    exact hclings (congrArg some hlist)
  · intro hg hnil
    obtain rfl := Option.some.inj hnil
    exact hne hg hseg.symm

section front

variable {tail : List Char}

theorem head_append (s : Spacing) (h : SlashNext tail) :
    ∀ c ∈ (s.text.toList ++ tail).head?, c ∈ '\\' :: spacingChars := by
  intro c hc
  have hchars := s.chars
  cases htext : s.text.toList with
  | nil =>
      rw [htext] at hc
      rw [h c hc]
      exact List.mem_cons_self
  | cons d rest =>
      rw [htext] at hc
      obtain rfl := Option.some.inj hc
      exact List.mem_cons_of_mem _ (hchars d (htext ▸ List.mem_cons_self))

/-- No argument follows over the space. -/
theorem noBrace_append (s : Spacing) (h : SlashNext tail) : NoBrace (s.text.toList ++ tail) := by
  have hbrace : '{' ∉ '\\' :: spacingChars := by decide
  have hslash : isInlineSpace '\\' = false := by decide
  intro c hc hopen
  subst hopen
  rw [List.dropWhile_append] at hc
  split at hc
  · cases tail with
    | nil => cases hc
    | cons d tail =>
        obtain rfl := h d rfl
        rw [List.dropWhile_cons_of_neg (by simp [hslash])] at hc
        exact absurd (Option.some.inj hc) (by decide)
  · next hne =>
    rw [List.head?_append_of_ne_nil _ (by simpa using hne)] at hc
    have hmem := (List.dropWhile_sublist _).subset (List.mem_of_mem_head? hc)
    exact hbrace (List.mem_cons_of_mem _ (s.chars _ hmem))

end front

end Spacing

/-! ### Lists -/

/-- An entry as it is written: the arguments of its command, and the space behind it. -/
structure EntryText where
  args : List String
  balanced : ∀ a ∈ args, Balanced a.toList
  behind : Spacing

/-- A list as it is written: the space in front of its entries, and the entries. -/
structure ListText where
  form : ListForm
  lead : Spacing
  entries : List EntryText

/-- An argument in braces. -/
def bracedText (arg : String) : String := "\x7b" ++ arg ++ "\x7d"

namespace EntryText

/-- The arguments as they are scanned. -/
def rawArgs (e : EntryText) : List RawArgument := e.args.map fun a => ⟨[], a.toList⟩

/-- The entry with its command and the space behind it. -/
def text (form : ListForm) (e : EntryText) : String :=
  "\\" ++ form.member.name ++ String.join (e.args.map bracedText) ++ e.behind.text

/-- The words of the command. -/
def word (form : ListForm) (e : EntryText) : Wording :=
  .call form.member.name (e.rawArgs.map RawArgument.wording)

/-- The entry without the space. -/
def tight (e : EntryText) : EntryText := { e with behind := .none }

end EntryText

namespace ListText

/-- What stands between the braces. -/
def body (t : ListText) : String :=
  t.lead.text ++ String.join (t.entries.map (EntryText.text t.form))

/-- The whole text. -/
def text (t : ListText) : String := "\\" ++ t.form.command.name ++ bracedText t.body

/-- The text as a source. -/
def source (t : ListText) : Source := { text := t.text }

/-- The list without space between its entries. -/
def tight (t : ListText) : ListText :=
  { t with lead := .none, entries := t.entries.map EntryText.tight }

/-- The words of the body. -/
def words (t : ListText) : List Wording :=
  t.lead.words ++ t.entries.flatMap fun e => e.word t.form :: e.behind.words

end ListText

/-! ### Reading a list -/

section reading

variable {form : ListForm}

theorem ListForm.member_name (form : ListForm) : ∃ c more, form.member.name.toList = c :: more ∧
    isNameStart c ∧ more.all isNameContinue ∧
      Html.Every (fun d => d ≠ '\\' ∧ d ≠ '{' ∧ d ≠ '}') more := by
  cases form with
  | itemized kind =>
      exact ⟨'i', ['t', 'e', 'm'], by simp [member, itemDefinition], by decide +kernel,
        by decide +kernel, by decide⟩
  | glossary =>
      exact ⟨'t', ['e', 'r', 'm'], by simp [member, termDefinition], by decide +kernel,
        by decide +kernel, by decide⟩

theorem bracedText_toList (arg : String) :
    (bracedText arg).toList = RawArgument.chars ⟨[], arg.toList⟩ := by
  simp [bracedText, RawArgument.chars]

namespace EntryText

theorem toList_text (form : ListForm) (e : EntryText) : (e.text form).toList =
    '\\' :: form.member.name.toList ++
      (e.rawArgs.flatMap RawArgument.chars ++ e.behind.text.toList) := by
  simp [text, rawArgs, String.toList_join, List.flatMap_map, bracedText_toList]

theorem valid_rawArgs (e : EntryText) : ∀ a ∈ e.rawArgs, a.Valid := by
  intro a ha
  obtain ⟨arg, harg, rfl⟩ := List.mem_map.mp ha
  exact ⟨rfl, e.balanced arg harg⟩

theorem balanced_text (form : ListForm) (e : EntryText) : Balanced (e.text form).toList := by
  obtain ⟨c, more, hname, -, -, hplain⟩ := form.member_name
  rw [toList_text, hname]
  refine .append (.escape c (balanced_of_plain hplain)) (.append ?_ e.behind.balanced)
  refine .flatMap fun a ha => ?_
  have hbraces := Balanced.braces (e.valid_rawArgs a ha).2 .nil
  obtain ⟨arg, -, rfl⟩ := List.mem_map.mp ha
  exact hbraces

/-- An entry is scanned as its command and the space behind it. -/
theorem scanRegion_text (form : ListForm) (e : EntryText) {tail : List Char} (h : SlashNext tail) :
    scanRegion ((e.text form).toList ++ tail) =
      ⟨.call form.member.name.toList e.rawArgs ::
          ((scanRegion e.behind.text.toList).pieces ++ (scanRegion tail).pieces),
        (scanRegion tail).stop⟩ := by
  obtain ⟨c, more, hname, hstart, hmore, -⟩ := form.member_name
  have hends : Html.Every (isNameContinue · = false) ('{' :: '\\' :: spacingChars) := by
    decide +kernel
  have hstop : ∀ c ∈ (e.rawArgs.flatMap RawArgument.chars ++ (e.behind.text.toList ++ tail)).head?,
      isNameContinue c = false := by
    intro c hc
    refine hends c ?_
    cases hargs : e.args with
    | nil =>
        rw [rawArgs, hargs] at hc
        exact List.mem_cons_of_mem _ (e.behind.head_append h c hc)
    | cons arg args =>
        rw [rawArgs, hargs] at hc
        obtain rfl := Option.some.inj hc
        exact List.mem_cons_self
  have hscan := scanRegion_command ⟨c, more, hname, hstart, hmore⟩ e.valid_rawArgs hstop
    (e.behind.noBrace_append h)
  rw [toList_text, List.append_assoc, List.append_assoc, hscan,
    e.behind.markupFree.scanRegion_append h]
  rfl

theorem slashNext_text (form : ListForm) : ∀ entries : List EntryText,
    SlashNext (entries.flatMap fun e => (e.text form).toList)
  | [] => fun c hc => by cases hc
  | e :: rest => fun c hc => by
      rw [List.flatMap_cons, toList_text] at hc
      exact (Option.some.inj hc).symm

/-- Entries are scanned one after the other. -/
theorem scanRegion_flatMap (form : ListForm) : ∀ entries : List EntryText,
    scanRegion (entries.flatMap fun e => (e.text form).toList) =
      ⟨entries.flatMap fun e => .call form.member.name.toList e.rawArgs ::
        (scanRegion e.behind.text.toList).pieces, none⟩
  | [] => by
      rw [List.flatMap_nil, scanRegion]
      rfl
  | e :: rest => by
      rw [List.flatMap_cons, e.scanRegion_text form (slashNext_text form rest),
        scanRegion_flatMap form rest, List.flatMap_cons]
      rfl

end EntryText

namespace ListText

variable (t : ListText)

theorem toList_body : t.body.toList =
    t.lead.text.toList ++ t.entries.flatMap fun e => (e.text t.form).toList := by
  simp [body, String.toList_join, List.flatMap_map]

theorem toList_text : t.text.toList =
    '\\' :: t.form.command.name.toList ++
      ([(⟨[], t.body.toList⟩ : RawArgument)].flatMap RawArgument.chars ++ []) := by
  simp [text, bracedText_toList]

theorem balanced_body : Balanced t.body.toList := by
  rw [toList_body]
  exact t.lead.balanced.append (.flatMap fun e _ => e.balanced_text t.form)

/-- The body is no keyword argument: a backslash comes before any equals sign. -/
theorem splitKeyword_body : splitKeyword t.body.toList = none := by
  have hspace : Html.Every (isKeywordStop · = false) spacingChars := by decide
  have hlead : ∀ c ∈ t.lead.text.toList, (!isKeywordStop c) = true := fun c hc => by
    rw [hspace c (t.lead.chars c hc)]
    rfl
  have hnext := EntryText.slashNext_text t.form t.entries
  unfold splitKeyword
  rw [toList_body, List.dropWhile_append_of_pos hlead]
  cases hrest : t.entries.flatMap fun e => (e.text t.form).toList with
  | nil => rfl
  | cons c rest =>
      rw [hrest] at hnext
      obtain rfl := hnext c rfl
      rfl

theorem scanRegion_body : scanRegion t.body.toList =
    ⟨(scanRegion t.lead.text.toList).pieces ++ t.entries.flatMap fun e =>
      .call t.form.member.name.toList e.rawArgs ::
        (scanRegion e.behind.text.toList).pieces, none⟩ := by
  rw [toList_body, t.lead.markupFree.scanRegion_append (EntryText.slashNext_text t.form t.entries),
    EntryText.scanRegion_flatMap]

theorem scanRegion_text : scanRegion t.text.toList =
    ⟨[.call t.form.command.name.toList [⟨[], t.body.toList⟩]], none⟩ := by
  have hname : ∃ c more, t.form.command.name.toList = c :: more ∧ isNameStart c ∧
      more.all isNameContinue := by
    rcases t.form with (_ | _) | _
    · exact ⟨'l', ['i', 's', 't'], by simp [ListForm.command], by decide +kernel, by decide +kernel⟩
    · exact ⟨'e', ['n', 'u', 'm'], by simp [ListForm.command], by decide +kernel, by decide +kernel⟩
    · exact ⟨'t', ['e', 'r', 'm', 's'], by simp [ListForm.command], by decide +kernel,
        by decide +kernel⟩
  have hvalid : ∀ a ∈ [(⟨[], t.body.toList⟩ : RawArgument)], a.Valid := by
    intro a ha
    rw [List.mem_singleton.mp ha]
    exact ⟨rfl, t.balanced_body⟩
  have hbrace : isNameContinue '{' = false := by decide +kernel
  rw [toList_text, scanRegion_command hname hvalid ?_ ?_]
  · rw [scanRegion]
    rfl
  · intro c hc
    obtain rfl := Option.some.inj hc
    exact hbrace
  · intro c hc
    cases hc

theorem words_eq : (scanRegion t.body.toList).pieces.map RawPiece.wording = t.words := by
  rw [scanRegion_body]
  simp [words, Spacing.words, List.map_flatMap, RawPiece.wording, EntryText.word]

/-- **A list is read to one call, and its body to the words of its entries and the space between
them.** -/
theorem exists_alone : ∃ c pieces, t.form.Alone t.source c pieces ∧
    pieces.map Piece.wording = t.words := by
  have hscan : scanRegion t.source.span.fragment.toList = _ := t.scanRegion_text
  obtain ⟨calls, hcalls⟩ : ∃ calls, readMarkup t.source t.source.span = .ok calls :=
    exists_readMarkup (by rw [hscan])
  have hword := readMarkup_wording hcalls
  rw [hscan] at hword
  obtain ⟨p, rfl, hp⟩ := List.map_eq_singleton_iff.mp hword
  cases p with
  | text span => cases hp
  | call c =>
      obtain ⟨hname, hargs⟩ := Wording.call.inj hp
      obtain ⟨⟨name, value⟩, ha, hbody⟩ := List.map_eq_singleton_iff.mp hargs
      rw [RawArgument.wording, t.splitKeyword_body, String.ofList_toList] at hbody
      obtain ⟨hnone, hvalue⟩ := Prod.mk.inj hbody
      obtain rfl : name = none := Option.map_eq_none_iff.mp hnone
      have hfragment : value.fragment = t.body := hvalue
      obtain ⟨pieces, hpieces⟩ : ∃ pieces, readMarkup t.source value = .ok pieces :=
        exists_readMarkup (by rw [hfragment, scanRegion_body])
      refine ⟨c, pieces, ⟨hcalls, ?_, value, ha, hpieces⟩, ?_⟩
      · rw [hname, String.ofList_toList]
      · rw [readMarkup_wording hpieces, hfragment, t.words_eq]

end ListText

end reading

end Markup
