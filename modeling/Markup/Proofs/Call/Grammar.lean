import Markup.Call.Scan
import Markup.Proofs.Text

/-! # The grammar of commands

A command is a backslash and a name, followed by arguments in braces.  What may stand between the
braces is balanced text (`Balanced`): characters other than backslash and braces, a backslash with
whatever character follows it, and balanced text in braces, any number of these in any order.
Inline space may stand before each opening brace.

The scanner counts braces where the grammar nests them.  Both agree: from `n` open braces on, the
scanner reads balanced text `n` times over, each time up to the brace that closes it
(`Closing`), so that it finds the closing brace of an argument exactly if there is one
(`takeBalanced_eq_some_iff`, `takeBalanced_eq_none_iff`).  An argument that a text begins with is
therefore the only one that it begins with, the scanner reads as many as there are
(`scanArguments_longest`), and `scanCall` divides a text in the one way that the grammar allows
(`CommandAt.scanCall_eq`, `commandAt_of_scanCall`). -/

namespace Markup

open Text

/-! ### Balanced text -/

/-- Text in which every brace that is not shielded by a backslash has its partner. -/
inductive Balanced : List Char → Prop
  | nil : Balanced []
  /-- A character without a meaning of its own. -/
  | char {c : Char} {cs : List Char} (hslash : c ≠ '\\') (hopen : c ≠ '{') (hclose : c ≠ '}')
      (h : Balanced cs) : Balanced (c :: cs)
  /-- A backslash and the character that it shields. -/
  | escape (c : Char) {cs : List Char} (h : Balanced cs) : Balanced ('\\' :: c :: cs)
  /-- Balanced text in braces. -/
  | braces {body cs : List Char} (hbody : Balanced body) (h : Balanced cs) :
      Balanced ('{' :: body ++ '}' :: cs)

/-- Balanced text `n + 1` times over, with closing braces in between. -/
inductive Closing : Nat → List Char → Prop
  | last {cs : List Char} (h : Balanced cs) : Closing 0 cs
  | next {n : Nat} {first rest : List Char} (hfirst : Balanced first) (h : Closing n rest) :
      Closing (n + 1) (first ++ '}' :: rest)

/-- What may stand in front of balanced text may stand in front of the first one of several. -/
theorem Closing.behind {n : Nat} {cs : List Char} (h : Closing n cs) (part : List Char)
    (hpart : ∀ ds, Balanced ds → Balanced (part ++ ds)) : Closing n (part ++ cs) := by
  cases h with
  | last h => exact .last (hpart _ h)
  | next hfirst h =>
      rw [← List.append_assoc]
      exact .next (hpart _ hfirst) h

/-- A brace that is opened is closed by the first closing brace in between. -/
theorem Closing.enclose {n : Nat} {cs : List Char} (h : Closing (n + 1) cs) :
    Closing n ('{' :: cs) := by
  cases h with
  | @next _ first rest hfirst h =>
      have e : '{' :: (first ++ '}' :: rest) = ('{' :: first ++ ['}']) ++ rest := by simp
      rw [e]
      refine h.behind _ fun ds hds => ?_
      have hbraces := Balanced.braces hfirst hds
      simpa using hbraces

/-- What the scanner takes for the content of braces is as the grammar has it. -/
theorem closing_of_takeBalanced {n : Nat} {cs body after : List Char}
    (h : takeBalanced n cs = some (body, after)) : Closing n body := by
  -- The braces that are open are the closing braces that the rest still has to bring.
  fun_induction takeBalanced n cs generalizing body after with
  | case1 => cases h
  | case2 => cases h
  | case3 n e rest ih =>
      obtain ⟨⟨b, a⟩, hb, heq⟩ := Option.map_eq_some_iff.1 h
      cases heq
      exact (ih hb).behind ['\\', e] fun ds hds => .escape e hds
  | case4 n rest _ ih =>
      obtain ⟨⟨b, a⟩, hb, heq⟩ := Option.map_eq_some_iff.1 h
      cases heq
      exact (ih hb).enclose
  | case5 rest _ _ =>
      cases h
      exact .last .nil
  | case6 rest _ _ n ih =>
      obtain ⟨⟨b, a⟩, hb, heq⟩ := Option.map_eq_some_iff.1 h
      cases heq
      exact .next .nil (ih hb)
  | case7 n c rest hslash hopen hclose ih =>
      obtain ⟨⟨b, a⟩, hb, heq⟩ := Option.map_eq_some_iff.1 h
      cases heq
      exact (ih hb).behind [c] fun ds hds => .char hslash hopen hclose hds

section equations

variable (n : Nat) (cs : List Char)

theorem takeBalanced_char {c : Char} (hslash : c ≠ '\\') (hopen : c ≠ '{') (hclose : c ≠ '}') :
    takeBalanced n (c :: cs) =
      (takeBalanced n cs).map fun (body, after) => (c :: body, after) := by
  rw [takeBalanced.eq_def]
  simp only [hslash, hopen, hclose, if_false]

theorem takeBalanced_escape (c : Char) :
    takeBalanced n ('\\' :: c :: cs) =
      (takeBalanced n cs).map fun (body, after) => ('\\' :: c :: body, after) := by
  rw [takeBalanced.eq_def]
  rfl

theorem takeBalanced_open :
    takeBalanced n ('{' :: cs) =
      (takeBalanced (n + 1) cs).map fun (body, after) => ('{' :: body, after) := by
  rw [takeBalanced.eq_def]
  rfl

theorem takeBalanced_close :
    takeBalanced (n + 1) ('}' :: cs) =
      (takeBalanced n cs).map fun (body, after) => ('}' :: body, after) := by
  rw [takeBalanced.eq_def]
  rfl

theorem takeBalanced_end : takeBalanced 0 ('}' :: cs) = some ([], cs) := by
  rw [takeBalanced.eq_def]
  rfl

end equations

/-- The scanner passes over balanced text without leaving the braces that it is in. -/
theorem takeBalanced_append_of_balanced {cs : List Char} (h : Balanced cs) (n : Nat)
    (rest : List Char) :
    takeBalanced n (cs ++ rest) =
      (takeBalanced n rest).map fun (body, after) => (cs ++ body, after) := by
  induction h generalizing n rest with
  | nil => simp
  | char hslash hopen hclose h ih =>
      rw [List.cons_append, takeBalanced_char n _ hslash hopen hclose, ih, Option.map_map]
      rfl
  | escape c h ih =>
      rw [List.cons_append, List.cons_append, takeBalanced_escape, ih, Option.map_map]
      rfl
  | @braces body cs hbody h ihbody ih =>
      have e : '{' :: body ++ '}' :: cs ++ rest = '{' :: (body ++ '}' :: (cs ++ rest)) := by simp
      rw [e, takeBalanced_open, ihbody, takeBalanced_close, ih]
      simp only [Option.map_map]
      congr 1
      funext p
      simp

/-- **The closing brace is found**: what the scanner takes is the balanced text up to a closing
brace, and there is only one such. -/
theorem takeBalanced_eq_some_iff {cs body after : List Char} :
    takeBalanced 0 cs = some (body, after) ↔ Balanced body ∧ cs = body ++ '}' :: after := by
  constructor
  · intro h
    refine ⟨?_, takeBalanced_append h⟩
    cases closing_of_takeBalanced h with
    | last hbody => exact hbody
  · rintro ⟨hbody, rfl⟩
    rw [takeBalanced_append_of_balanced hbody, takeBalanced_end]
    simp

theorem takeBalanced_eq_none_iff {cs : List Char} :
    takeBalanced 0 cs = none ↔ ∀ body after, Balanced body → cs ≠ body ++ '}' :: after := by
  rw [Option.eq_none_iff_forall_ne_some]
  constructor
  · intro h body after hbody hcs
    exact h (body, after) (takeBalanced_eq_some_iff.mpr ⟨hbody, hcs⟩)
  · rintro h ⟨body, after⟩ hsome
    obtain ⟨hbody, hcs⟩ := takeBalanced_eq_some_iff.mp hsome
    exact h body after hbody hcs

/-! ### Arguments -/

/-- An argument of the grammar: inline space, and balanced text in braces. -/
def RawArgument.Valid (a : RawArgument) : Prop :=
  a.space.all isInlineSpace ∧ Balanced a.content

/-- An opening brace comes first, after inline space, that no brace closes. -/
def Unclosed (cs : List Char) : Prop :=
  ∃ space body, space.all isInlineSpace ∧ cs = space ++ '{' :: body ∧
    ∀ content after, Balanced content → body ≠ content ++ '}' :: after

/-- The arguments that a text begins with, as many as there are: any others that it begins with
are the first of these. -/
structure LongestArguments (cs : List Char) (args : List RawArgument) (rest : List Char) :
    Prop where
  chars : cs = args.flatMap RawArgument.chars ++ rest
  valid : ∀ a ∈ args, a.Valid
  longest : ∀ others after, (∀ a ∈ others, a.Valid) →
    cs = others.flatMap RawArgument.chars ++ after → others <+: args

theorem not_isInlineSpace_brace (body : List Char) :
    ∀ c ∈ ('{' :: body).head?, isInlineSpace c = false := by
  intro c hc
  obtain rfl := Option.some.inj hc
  decide

theorem takeWhile_space_append {space : List Char} (h : space.all isInlineSpace)
    (body : List Char) : (space ++ '{' :: body).takeWhile isInlineSpace = space :=
  takeWhile_append_of_stop (List.all_eq_true.mp h) (not_isInlineSpace_brace body)

theorem dropWhile_space_append {space : List Char} (h : space.all isInlineSpace)
    (body : List Char) : (space ++ '{' :: body).dropWhile isInlineSpace = '{' :: body :=
  dropWhile_append_of_stop (List.all_eq_true.mp h) (not_isInlineSpace_brace body)

/-- The scanner reads an argument that a text begins with. -/
theorem scanArguments_cons {a : RawArgument} (ha : a.Valid) (rest : List Char) :
    scanArguments (a.chars ++ rest) =
      { scanArguments rest with args := a :: (scanArguments rest).args } := by
  obtain ⟨space, content⟩ := a
  obtain ⟨hspace, hcontent⟩ := ha
  have hchars : RawArgument.chars ⟨space, content⟩ ++ rest =
      space ++ '{' :: (content ++ '}' :: rest) := by simp [RawArgument.chars]
  have hbody : takeBalanced 0 (content ++ '}' :: rest) = some (content, rest) :=
    takeBalanced_eq_some_iff.mpr ⟨hcontent, rfl⟩
  have hdrop := dropWhile_space_append hspace (content ++ '}' :: rest)
  rw [hchars, scanArguments]
  split
  · next h =>
    rw [hdrop] at h
    cases h
  · next c body h =>
    rw [hdrop] at h
    obtain ⟨rfl, rfl⟩ := List.cons.inj h
    rw [if_pos rfl]
    split
    · next hnone =>
      rw [hbody] at hnone
      cases hnone
    · next content' rest' hsome =>
      rw [hbody] at hsome
      obtain ⟨rfl, rfl⟩ := Prod.mk.inj (Option.some.inj hsome)
      rw [takeWhile_space_append hspace]

theorem scanArguments_flatMap {args : List RawArgument} (hargs : ∀ a ∈ args, a.Valid)
    (rest : List Char) :
    scanArguments (args.flatMap RawArgument.chars ++ rest) =
      { scanArguments rest with args := args ++ (scanArguments rest).args } := by
  induction args with
  | nil => rfl
  | cons a args ih =>
      rw [List.flatMap_cons, List.append_assoc, scanArguments_cons (hargs a List.mem_cons_self),
        ih fun b hb => hargs b (List.mem_cons_of_mem a hb)]
      rfl

theorem scanArguments_valid (cs : List Char) : ∀ a ∈ (scanArguments cs).args, a.Valid := by
  fun_induction scanArguments cs with
  | case1 => exact fun a ha => (List.not_mem_nil ha).elim
  | case2 => exact fun a ha => (List.not_mem_nil ha).elim
  | case3 cs body content rest hb scan h ih =>
      intro a ha
      rcases List.mem_cons.mp ha with rfl | ha
      · exact ⟨List.all_takeWhile, (takeBalanced_eq_some_iff.mp hb).1⟩
      · exact ih a ha
  | case4 => exact fun a ha => (List.not_mem_nil ha).elim

/-- The scanner reports a brace that never closes exactly where there is one. -/
theorem scanArguments_unclosed_iff (cs : List Char) :
    (scanArguments cs).unclosed.isSome ↔ Unclosed (scanArguments cs).rest := by
  fun_induction scanArguments cs with
  | case1 cs h =>
      refine iff_of_false (by simp) ?_
      rintro ⟨space, body, hspace, rfl, -⟩
      rw [dropWhile_space_append hspace] at h
      cases h
  | case2 cs body hb h =>
      refine iff_of_true rfl ⟨cs.takeWhile isInlineSpace, body, List.all_takeWhile, ?_, ?_⟩
      · rw [← h, List.takeWhile_append_dropWhile]
      · exact takeBalanced_eq_none_iff.mp hb
  | case3 cs body content rest hb scan h ih => exact ih
  | case4 cs c body h hc =>
      refine iff_of_false (by simp) ?_
      rintro ⟨space, body, hspace, rfl, -⟩
      rw [dropWhile_space_append hspace] at h
      exact hc (List.cons.inj h).1.symm

theorem scanArguments_longest (cs : List Char) :
    LongestArguments cs (scanArguments cs).args (scanArguments cs).rest := by
  refine ⟨scanArguments_append cs, scanArguments_valid cs, ?_⟩
  rintro others after hothers rfl
  rw [scanArguments_flatMap hothers]
  exact List.prefix_append others _

/-- There is one way to take as many arguments as there are. -/
theorem LongestArguments.eq_scan {cs : List Char} {args : List RawArgument} {rest : List Char}
    (h : LongestArguments cs args rest) :
    args = (scanArguments cs).args ∧ rest = (scanArguments cs).rest := by
  -- Each of the two lists is the beginning of the other.
  have hscan := scanArguments_longest cs
  have hle := h.longest _ _ hscan.valid hscan.chars
  have hge := hscan.longest _ _ h.valid h.chars
  have hargs : args = (scanArguments cs).args := hge.eq_of_length_le hle.length_le
  refine ⟨hargs, ?_⟩
  have hchars := h.chars.symm.trans hscan.chars
  rw [hargs] at hchars
  exact List.append_cancel_left hchars

/-! ### Keywords -/

/-- A name and a value with an equals sign in between, which is the first of the characters that
settle the form of an argument. -/
def KeywordForm (content key value : List Char) : Prop :=
  content = key ++ '=' :: value ∧ ∀ c ∈ key, isKeywordStop c = false

theorem splitKeyword_eq_some_iff {content key value : List Char} :
    splitKeyword content = some (key, value) ↔ KeywordForm content key value := by
  unfold splitKeyword KeywordForm
  constructor
  · intro h
    split at h
    · next c rest hdrop =>
      split at h
      · next hc =>
        obtain ⟨rfl, rfl⟩ := Prod.mk.inj (Option.some.inj h)
        refine ⟨?_, ?_⟩
        · rw [← hc, ← hdrop, List.takeWhile_append_dropWhile]
        · intro d hd
          simpa using List.mem_takeWhile_imp hd
      · cases h
    · cases h
  · rintro ⟨rfl, hkey⟩
    have hall : ∀ c ∈ key, (!isKeywordStop c) = true := fun c hc => by rw [hkey c hc]; rfl
    have hstop : ∀ c ∈ ('=' :: value).head?, (!isKeywordStop c) = false := by
      simp [show isKeywordStop '=' = true by decide]
    rw [dropWhile_append_of_stop hall hstop, takeWhile_append_of_stop hall hstop]
    rfl

/-! ### Commands -/

/-- A backslash and a character that may start a name come first. -/
def StartsCommand (cs : List Char) : Prop :=
  ∃ c rest, cs = '\\' :: c :: rest ∧ isNameStart c

/-- A backslash and a name come first, which goes on for as long as it can. -/
structure NameAt (cs name after : List Char) : Prop where
  chars : cs = '\\' :: name ++ after
  name : ∃ c more, name = c :: more ∧ isNameStart c ∧ more.all isNameContinue
  longest : ∀ c ∈ after.head?, isNameContinue c = false

/-- A command comes first: its name, as many arguments as there are, and then `rest`. -/
def CommandAt (cs name : List Char) (args : List RawArgument) (rest : List Char) : Prop :=
  ∃ after, NameAt cs name after ∧ LongestArguments after args rest

theorem scanName_eq_some_iff {cs name after : List Char} :
    scanName cs = some (name, after) ↔ NameAt cs name after := by
  constructor
  · intro h
    match cs, h with
    | b :: c :: tail, h =>
        have hchars := scanName_append h
        rw [scanName] at h
        split at h
        · next hb =>
          obtain ⟨rfl, rfl⟩ := Prod.mk.inj (Option.some.inj h)
          exact ⟨hchars, ⟨c, _, rfl, hb.2, List.all_takeWhile⟩, head?_dropWhile_of_mem tail⟩
        · cases h
  · rintro ⟨rfl, ⟨c, more, rfl, hc, hmore⟩, hafter⟩
    have hall := List.all_eq_true.mp hmore
    rw [List.cons_append, List.cons_append, scanName, if_pos ⟨rfl, hc⟩,
      takeWhile_append_of_stop hall hafter, dropWhile_append_of_stop hall hafter]

theorem scanName_eq_none_iff {cs : List Char} : scanName cs = none ↔ ¬ StartsCommand cs := by
  constructor
  · rintro h ⟨c, rest, rfl, hc⟩
    rw [scanName, if_pos ⟨rfl, hc⟩] at h
    cases h
  · intro h
    cases cs with
    | nil => rfl
    | cons b tail =>
        cases tail with
        | nil => rfl
        | cons c rest =>
            rw [scanName, if_neg]
            rintro ⟨rfl, hc⟩
            exact h ⟨c, rest, rfl, hc⟩

theorem scanCall_eq_none_iff {cs : List Char} : scanCall cs = none ↔ ¬ StartsCommand cs := by
  rw [scanCall, Option.map_eq_none_iff, scanName_eq_none_iff]

/-- A text that starts like a command starts with one. -/
theorem exists_commandAt {cs : List Char} (h : StartsCommand cs) :
    ∃ name args rest, CommandAt cs name args rest := by
  cases hname : scanName cs with
  | none => exact (scanName_eq_none_iff.mp hname h).elim
  | some p =>
      obtain ⟨name, after⟩ := p
      exact ⟨name, _, _, after, scanName_eq_some_iff.mp hname, scanArguments_longest after⟩

/-- **The scanner finds the command that a text starts with**, and whether its arguments end at a
brace that never closes. -/
theorem CommandAt.scanCall_eq {cs name : List Char} {args : List RawArgument} {rest : List Char}
    (h : CommandAt cs name args rest) :
    ∃ unclosed, scanCall cs = some ⟨name, args, rest, unclosed⟩ ∧
      (unclosed.isSome ↔ Unclosed rest) := by
  obtain ⟨after, hname, hargs⟩ := h
  obtain ⟨rfl, rfl⟩ := hargs.eq_scan
  refine ⟨(scanArguments after).unclosed, ?_, scanArguments_unclosed_iff after⟩
  rw [scanCall, scanName_eq_some_iff.mpr hname]
  rfl

theorem commandAt_of_scanCall {cs : List Char} {call : RawCall} (h : scanCall cs = some call) :
    CommandAt cs call.name call.scan.args call.scan.rest ∧
      (call.scan.unclosed.isSome ↔ Unclosed call.scan.rest) := by
  obtain ⟨⟨name, after⟩, hname, rfl⟩ := Option.map_eq_some_iff.mp h
  exact ⟨⟨after, scanName_eq_some_iff.mp hname, scanArguments_longest after⟩,
    scanArguments_unclosed_iff after⟩

/-- A command takes up the text in front of `rest`. -/
theorem CommandAt.chars {cs name : List Char} {args : List RawArgument} {rest : List Char}
    (h : CommandAt cs name args rest) :
    cs = '\\' :: name ++ args.flatMap RawArgument.chars ++ rest := by
  obtain ⟨after, hname, hargs⟩ := h
  rw [hname.chars, hargs.chars, List.append_assoc]

end Markup
