import Markup.Proofs.Html.Template
import Markup.Proofs.Html.Unescape
import Markup.Proofs.Text

/-! # Reading start tags

`StartTag.read?` reads a start tag as HTML has it, and knows nothing of what was written: the name
of an attribute ends at whitespace, at an equals sign or at a slash, its value may be quoted or not,
and may be missing.  Character references are resolved in values, but not in names.

`StartTag.reread` is what becomes of a tag that is written and read again (`Template.read?_text`).
Values come back as they were, whatever they are.  A name comes back if it is plain: there is
nothing in it to escape, and nothing that ends a name (`Template.reread_eq_self_iff`). -/

namespace Markup.Html

/-- A start tag: its name, and its attributes with their values. -/
structure StartTag where
  name : String
  attributes : List (String × String)
deriving DecidableEq, Repr

namespace StartTag

/-! ### The syntax of attributes -/

/-- Whitespace between attributes. -/
def isSpace (c : Char) : Bool := ['\t', '\n', '\x0c', '\r', ' '].contains c

/-- A character that ends the name of an attribute. -/
def endsName (c : Char) : Bool := isSpace c || c == '=' || c == '/'

/-- Where the reading of attributes stands: before a name, in it or behind it, behind an equals
sign, or in a value, which ends at a quote of its kind, or at whitespace if it has none. -/
inductive State where
  | between
  | name (read : List Char)
  | named (name : List Char)
  | equals (name : List Char)
  | value (quote : Option Char) (name read : List Char)

/-- An attribute that has been read. -/
def entry (name value : List Char) : String × String :=
  (String.ofList name, unescape (String.ofList value))

/-- The attributes that follow, up to the end of the tag. -/
def attributesFrom : State → List Char → List (String × String)
  | .between, [] => []
  | .name n, [] | .named n, [] | .equals n, [] => [entry n []]
  | .value _ n v, [] => [entry n v]
  | .between, c :: cs =>
    if isSpace c || c == '/' then attributesFrom .between cs else attributesFrom (.name [c]) cs
  | .name n, c :: cs =>
    if isSpace c then attributesFrom (.named n) cs
    else if c = '=' then attributesFrom (.equals n) cs
    else if c = '/' then entry n [] :: attributesFrom .between cs
    else attributesFrom (.name (n ++ [c])) cs
  | .named n, c :: cs =>
    if isSpace c then attributesFrom (.named n) cs
    else if c = '=' then attributesFrom (.equals n) cs
    else if c = '/' then entry n [] :: attributesFrom .between cs
    else entry n [] :: attributesFrom (.name [c]) cs
  | .equals n, c :: cs =>
    if isSpace c then attributesFrom (.equals n) cs
    else if c = '"' ∨ c = '\'' then attributesFrom (.value (some c) n []) cs
    else attributesFrom (.value none n [c]) cs
  | .value quote n v, c :: cs =>
    if quote = some c ∨ quote = none ∧ isSpace c then
      entry n v :: attributesFrom .between cs
    else attributesFrom (.value quote n (v ++ [c])) cs

/-- Reads what stands between the brackets of a tag; a start tag begins with a letter. -/
def read? (inside : List Char) : Option StartTag :=
  if inside.head?.any Char.isAlpha then
    let inName := fun c => !(isSpace c || c == '/')
    some ⟨String.ofList (inside.takeWhile inName),
      attributesFrom .between (inside.dropWhile inName)⟩
  else none

/-! ### Names that are read as they are written -/

/-- The name of an attribute that has nothing in it to escape, and nothing that ends a name. -/
def PlainName (k : String) : Prop := Unmarked k ∧ Every (endsName · = false) k.toList

instance : DecidablePred PlainName := fun _ => inferInstanceAs (Decidable (_ ∧ _))

/-- A name that begins with a character that is read as it is written. -/
def Lettered (k : String) : Prop :=
  ∃ c ∈ k.toList.head?, (SafeChar c ∧ c ≠ '&') ∧ endsName c = false

instance : DecidablePred Lettered := fun k =>
  decidable_of_iff (k.toList.head?.any fun c => (SafeChar c ∧ c ≠ '&') ∧ endsName c = false) <| by
    simp [Lettered, Option.any_eq_true]

theorem plainName_append {k l : String} : PlainName (k ++ l) ↔ PlainName k ∧ PlainName l := by
  unfold PlainName Unmarked Every
  simp only [String.toList_append, List.forall_mem_append]
  exact and_and_and_comm

/-! ### Escaped names -/

theorem endsName_of_mem_upperHex (n : Nat) : Every (endsName · = false) (upperHex n) := by
  have hdigit : ∀ n : Fin 16, endsName (upperHexDigit n) = false := by decide
  fun_induction upperHex n with
  | case1 n h =>
      intro c hc
      rw [List.mem_singleton.mp hc]
      exact hdigit ⟨n, h⟩
  | case2 n h ih =>
      intro c hc
      rcases List.mem_append.mp hc with hc | hc
      · exact ih c hc
      · rw [List.mem_singleton.mp hc]
        exact hdigit ⟨n % 16, Nat.mod_lt n (by omega)⟩

/-- A character is written as it is, or as a reference, which has nothing in it that ends a name. -/
theorem escapeChar_cases (c : Char) : (SafeChar c ∧ c ≠ '&') ∧ escapeChar c = [c] ∨
    1 < (escapeChar c).length ∧ Every (endsName · = false) (escapeChar c) := by
  by_cases h : SafeChar c ∧ c ≠ '&'
  · exact .inl ⟨h, escapeChar_eq_self h.1 h.2⟩
  · refine .inr ?_
    unfold escapeChar
    split
    · exact ⟨by decide, by decide⟩
    split
    · exact ⟨by decide, by decide⟩
    split
    · exact ⟨by decide, by decide⟩
    split
    · exact ⟨by decide, by decide⟩
    next hamp hlt hgt hquote =>
    split
    · refine ⟨by simp, fun d hd => ?_⟩
      simp only [List.mem_append] at hd
      rcases hd with (hd | hd) | hd
      · exact (by decide : Every (endsName · = false) "&#x".toList) d hd
      · exact endsName_of_mem_upperHex _ d hd
      · exact (by decide : Every (endsName · = false) [';']) d hd
    · next hascii => exact (h ⟨⟨by omega, hlt, hgt, hquote⟩, hamp⟩).elim

theorem length_le_flatMap_escapeChar (cs : List Char) :
    cs.length ≤ (cs.flatMap escapeChar).length := by
  induction cs with
  | nil => exact Nat.le_refl _
  | cons c cs ih =>
      rw [List.flatMap_cons, List.length_append, List.length_cons]
      rcases escapeChar_cases c with ⟨-, hc⟩ | ⟨hc, -⟩
      · rw [hc, List.length_singleton]
        omega
      · omega

/-- A text that escaping leaves alone has nothing in it to escape. -/
theorem unmarked_of_flatMap_escapeChar {cs : List Char} (h : cs.flatMap escapeChar = cs) :
    Every (fun c => SafeChar c ∧ c ≠ '&') cs := by
  induction cs with
  | nil => exact List.forall_mem_nil _
  | cons c cs ih =>
      rw [List.flatMap_cons] at h
      rcases escapeChar_cases c with ⟨hc, hself⟩ | ⟨hlong, -⟩
      · rw [hself] at h
        exact List.forall_mem_cons.mpr ⟨hc, ih (List.cons.inj h).2⟩
      · have hlength := congrArg List.length h
        rw [List.length_append, List.length_cons] at hlength
        have hle := length_le_flatMap_escapeChar cs
        omega

theorem escape_eq_self_iff {s : String} : escape s = s ↔ Unmarked s := by
  refine ⟨fun h => unmarked_of_flatMap_escapeChar ?_, escape_eq_self⟩
  rw [escape] at h
  rw [← String.toList_ofList (l := s.toList.flatMap escapeChar), h]

/-- What ends an escaped name was in the name. -/
theorem mem_of_endsName {s : String} {d : Char} (hd : endsName d = true)
    (h : d ∈ (escape s).toList) : d ∈ s.toList := by
  rw [escape, String.toList_ofList] at h
  obtain ⟨c, hc, hmem⟩ := List.mem_flatMap.mp h
  rcases escapeChar_cases c with ⟨-, hself⟩ | ⟨-, hnone⟩
  · rw [hself] at hmem
    exact List.mem_singleton.mp hmem ▸ hc
  · rw [hnone d hmem] at hd
    cases hd

/-! ### Attributes that were written -/

theorem isSpace_of_endsName {c : Char} (h : endsName c = false) :
    isSpace c = false ∧ c ≠ '=' ∧ c ≠ '/' := by
  simpa [endsName, and_assoc] using h

theorem attributesFrom_name {cs : List Char} (h : Every (endsName · = false) cs)
    (n rest : List Char) :
    attributesFrom (.name n) (cs ++ rest) = attributesFrom (.name (n ++ cs)) rest := by
  induction cs generalizing n with
  | nil => rw [List.nil_append, List.append_nil]
  | cons c cs ih =>
      obtain ⟨hspace, hequals, hslash⟩ := isSpace_of_endsName (h c List.mem_cons_self)
      rw [List.cons_append, attributesFrom, if_neg (by simp [hspace]), if_neg hequals,
        if_neg hslash, ih fun d hd => h d (List.mem_cons_of_mem c hd), List.append_assoc,
        List.singleton_append]

theorem attributesFrom_value {cs : List Char} (h : Every (· ≠ '"') cs) (n v rest : List Char) :
    attributesFrom (.value (some '"') n v) (cs ++ '"' :: rest) =
      entry n (v ++ cs) :: attributesFrom .between rest := by
  induction cs generalizing v with
  | nil => simp [attributesFrom]
  | cons c cs ih =>
      have hc : '"' ≠ c := (h c List.mem_cons_self).symm
      rw [List.cons_append, attributesFrom, if_neg (by simp [hc]),
        ih fun d hd => h d (List.mem_cons_of_mem c hd), List.append_assoc, List.singleton_append]

/-- Behind the name of an attribute: only its value is open. -/
inductive State.Behind (n : List Char) : State → Prop
  | named : Behind n (.named n)
  | equals : Behind n (.equals n)
  | value (quote : Option Char) (v : List Char) : Behind n (.value quote n v)

/-- Whatever the value comes to be, the next attribute has that name. -/
theorem State.Behind.exists_attributesFrom {st : State} {n : List Char} (h : st.Behind n)
    (cs : List Char) :
    ∃ value more, attributesFrom st cs = (String.ofList n, value) :: more := by
  induction cs generalizing st with
  | nil => cases h <;> exact ⟨_, _, rfl⟩
  | cons c cs ih =>
      cases h with
      | named =>
          rw [attributesFrom]
          split
          · exact ih .named
          split
          · exact ih .equals
          split <;> exact ⟨_, _, rfl⟩
      | equals =>
          rw [attributesFrom]
          split
          · exact ih .equals
          split <;> exact ih (.value _ _)
      | value quote v =>
          rw [attributesFrom]
          split
          · exact ⟨_, _, rfl⟩
          · exact ih (.value quote _)

/-- A name is over where something ends it. -/
theorem exists_attributesFrom_name {d : Char} (hd : endsName d = true) (n cs : List Char) :
    ∃ value more, attributesFrom (.name n) (d :: cs) = (String.ofList n, value) :: more := by
  rw [attributesFrom]
  split
  · exact State.Behind.named.exists_attributesFrom cs
  split
  · exact State.Behind.equals.exists_attributesFrom cs
  split
  · exact ⟨_, _, rfl⟩
  · next hspace hequals hslash => simp [endsName, hspace, hequals, hslash] at hd

/-- A name with nothing in it that ends it, and its value, are read off whatever follows. -/
theorem attributesFrom_cons {k : List Char} (hne : k ≠ []) (hk : Every (endsName · = false) k)
    (v : String) (rest : List Char) :
    attributesFrom .between (' ' :: (k ++ '=' :: '"' :: ((escape v).toList ++ '"' :: rest))) =
      (String.ofList k, v) :: attributesFrom .between rest := by
  obtain ⟨c, cs, rfl⟩ := List.exists_cons_of_ne_nil hne
  obtain ⟨hspace, -, hslash⟩ := isSpace_of_endsName (hk c List.mem_cons_self)
  have hvalue : Every (· ≠ '"') (escape v).toList := fun d hd => (safe_escape v d hd).2.2.2
  rw [attributesFrom, if_pos (by decide), List.cons_append, attributesFrom,
    if_neg (by simp [hspace, hslash]),
    attributesFrom_name fun d hd => hk d (List.mem_cons_of_mem c hd), List.singleton_append,
    attributesFrom, if_neg (by decide), if_pos rfl, attributesFrom, if_neg (by decide),
    if_pos (.inl rfl), attributesFrom_value hvalue, entry, List.nil_append, String.ofList_toList,
    unescape_escape]

theorem Lettered.exists_escape {k : String} (h : Lettered k) :
    ∃ c cs, (escape k).toList = c :: cs ∧ endsName c = false := by
  obtain ⟨c, hhead, ⟨hsafe, hamp⟩, hc⟩ := h
  obtain ⟨cs, hk⟩ := List.head?_eq_some_iff.mp hhead
  refine ⟨c, cs.flatMap escapeChar, ?_, hc⟩
  rw [escape, String.toList_ofList, hk, List.flatMap_cons, escapeChar_eq_self hsafe hamp,
    List.singleton_append]

/-- Something that ends a name comes first, behind a part with no such thing. -/
theorem exists_first_end {cs : List Char} (h : ¬ Every (endsName · = false) cs) :
    ∃ front d tail, cs = front ++ d :: tail ∧ Every (endsName · = false) front ∧
      endsName d = true := by
  induction cs with
  | nil => exact (h (List.forall_mem_nil _)).elim
  | cons c cs ih =>
      cases hc : endsName c with
      | true => exact ⟨[], c, cs, rfl, List.forall_mem_nil _, hc⟩
      | false =>
          have hrest : ¬ Every (endsName · = false) cs := fun hrest =>
            h (List.forall_mem_cons.mpr ⟨hc, hrest⟩)
          obtain ⟨front, d, tail, rfl, hfront, hd⟩ := ih hrest
          exact ⟨c :: front, d, tail, rfl, List.forall_mem_cons.mpr ⟨hc, hfront⟩, hd⟩

/-- Where something ends a name before its end, an attribute of another name is read. -/
theorem exists_shorter_name {k : String} (h : Lettered k)
    (hends : ¬ Every (endsName · = false) (escape k).toList) (rest : List Char) :
    ∃ name value more, attributesFrom .between (' ' :: ((escape k).toList ++ rest)) =
      (name, value) :: more ∧ name ≠ k := by
  obtain ⟨c, cs, hk, hc⟩ := h.exists_escape
  obtain ⟨hspace, -, hslash⟩ := isSpace_of_endsName hc
  have hcs : ¬ Every (endsName · = false) cs := fun hcs =>
    hends (hk ▸ List.forall_mem_cons.mpr ⟨hc, hcs⟩)
  obtain ⟨front, d, tail, rfl, hfront, hd⟩ := exists_first_end hcs
  obtain ⟨value, more, hread⟩ := exists_attributesFrom_name hd (c :: front) (tail ++ rest)
  refine ⟨String.ofList (c :: front), value, more, ?_, ?_⟩
  · rw [attributesFrom, if_pos (by decide), hk, List.cons_append, attributesFrom,
      if_neg (by simp [hspace, hslash]), List.append_assoc, attributesFrom_name hfront,
      List.singleton_append, List.cons_append, hread]
  · -- what ends the name is in `k`, and not in what was read of it
    rintro rfl
    have hmem := mem_of_endsName hd (by rw [hk]; simp)
    rw [String.toList_ofList] at hmem
    have hnone : Every (endsName · = false) (c :: front) :=
      List.forall_mem_cons.mpr ⟨hc, hfront⟩
    rw [hnone d hmem] at hd
    cases hd

/-- **Attributes are read as they were meant exactly if their names are plain.** -/
theorem attributesFrom_eq_iff {attributes : List (String × String)}
    (h : ∀ p ∈ attributes, Lettered p.1) :
    attributesFrom .between (attributesText attributes).toList = attributes ↔
      ∀ p ∈ attributes, PlainName p.1 := by
  induction attributes with
  | nil => exact iff_of_true rfl (List.forall_mem_nil _)
  | cons p rest ih =>
      obtain ⟨k, v⟩ := p
      obtain ⟨hletter, hrest⟩ := List.forall_mem_cons.mp h
      have htext : (attributesText ((k, v) :: rest)).toList = ' ' :: ((escape k).toList ++
          '=' :: '"' :: ((escape v).toList ++ '"' :: (attributesText rest).toList)) := by
        rw [attributesText_cons]
        simp
      rw [List.forall_mem_cons, htext]
      by_cases hends : Every (endsName · = false) (escape k).toList
      · -- the escaped name is read, and is the name if there was nothing to escape
        obtain ⟨c, cs, hk, -⟩ := hletter.exists_escape
        have hplain : PlainName k ↔ escape k = k := by
          rw [PlainName, escape_eq_self_iff]
          refine and_iff_left_of_imp fun hunmarked => ?_
          rwa [escape_eq_self hunmarked] at hends
        rw [attributesFrom_cons (by rw [hk]; exact List.cons_ne_nil c cs) hends,
          String.ofList_toList, List.cons.injEq, ih hrest, Prod.mk.injEq, hplain]
        exact and_congr_left fun _ => and_iff_left rfl
      · obtain ⟨name, value, more, hread, hne⟩ := exists_shorter_name hletter hends
          ('=' :: '"' :: ((escape v).toList ++ '"' :: (attributesText rest).toList))
        rw [hread]
        refine iff_of_false (fun heq => hne ?_) fun hplain => hends ?_
        · exact (Prod.mk.inj (List.cons.inj heq).1).1
        · rw [escape_eq_self hplain.1.1]
          exact hplain.1.2

/-! ### Start tags that were written -/

/-- The tag as it is read after it has been written. -/
def reread (t : StartTag) : StartTag :=
  ⟨t.name, attributesFrom .between (attributesText t.attributes).toList⟩

/-- All attributes have plain names. -/
def Plain (t : StartTag) : Prop := ∀ p ∈ t.attributes, PlainName p.1

instance : DecidablePred Plain := fun t => inferInstanceAs (Decidable (∀ p ∈ t.attributes, _))

/-- The start tag of a tagged block. -/
def tagged (m : Metadata) : StartTag := ⟨"div", m.map fun (k, v) => ("data-" ++ k, v)⟩

theorem plain_tagged_iff (m : Metadata) : (tagged m).Plain ↔ ∀ p ∈ m, PlainName p.1 := by
  have hdata : PlainName "data-" := by decide
  simp only [tagged, Plain, List.forall_mem_map, plainName_append, hdata, true_and]

end StartTag

section template

open StartTag

variable {name : String} {attributes : List (String × String)}

/-- A character of an element's name, which is not over there. -/
theorem Template.name_chars (h : Template name attributes) :
    name.toList.head?.any Char.isAlpha = true ∧
      Every (fun c => (isSpace c || c == '/') = false) name.toList := by
  cases h with
  | bare h =>
      have : ∀ name ∈ bareNames, name.toList.head?.any Char.isAlpha = true ∧
        Every (fun c => (isSpace c || c == '/') = false) name.toList := by decide
      exact this name h
  | @classed name value h =>
      have : ∀ p ∈ classedNames, p.1.toList.head?.any Char.isAlpha = true ∧
        Every (fun c => (isSpace c || c == '/') = false) p.1.toList := by decide
      exact this (name, value) h
  | @heading level slug h =>
      obtain rfl | rfl | rfl | rfl | rfl | rfl :
          level = 1 ∨ level = 2 ∨ level = 3 ∨ level = 4 ∨ level = 5 ∨ level = 6 := by omega
      all_goals decide
  | _ => decide

theorem mem_cellPairs {alignment : Option Alignment} {rowSpan colSpan : Int}
    {p : String × String} (h : p ∈ cellPairs alignment rowSpan colSpan) :
    p.1 ∈ ["colspan", "rowspan", "style"] := by
  have hspan : ∀ {k : String} {n : Int}, p ∈ (if n = 1 then [] else [(k, toString n)]) →
      p.1 = k := by
    intro k n hp
    split at hp
    · cases hp
    · rw [List.mem_singleton.mp hp]
  unfold cellPairs at h
  rcases List.mem_append.mp h with h | h
  · rcases List.mem_append.mp h with h | h
    · simp [hspan h]
    · simp [hspan h]
  · obtain ⟨a, -, rfl⟩ := Option.map_eq_some_iff.mp (Option.mem_toList.mp h)
    simp

theorem plain_cell (alignment : Option Alignment) (rowSpan colSpan : Int) :
    StartTag.Plain ⟨"td", cellPairs alignment rowSpan colSpan⟩ := by
  have hnames : ∀ k ∈ ["colspan", "rowspan", "style"], PlainName k := by decide
  exact fun p hp => hnames p.1 (mem_cellPairs hp)

/-- All names of attributes are plain but those that the keys of a tagged block are part of. -/
theorem Template.plain_or_tagged (h : Template name attributes) :
    StartTag.Plain ⟨name, attributes⟩ ∨ ∃ m, ⟨name, attributes⟩ = StartTag.tagged m := by
  cases h with
  | tagged m => exact .inr ⟨m, rfl⟩
  | bare => exact .inl (List.forall_mem_nil _)
  | cell alignment rowSpan colSpan => exact .inl (plain_cell alignment rowSpan colSpan)
  | _ =>
      refine .inl ?_
      simp only [StartTag.Plain, List.forall_mem_cons]
      decide

/-- No attribute has a name that is over before it begins. -/
theorem Template.lettered (h : Template name attributes) : ∀ p ∈ attributes, Lettered p.1 := by
  cases h with
  | tagged m =>
      refine List.forall_mem_map.mpr fun p _ => ⟨'d', ?_, by decide⟩
      rw [String.toList_append]
      rfl
  | bare => exact List.forall_mem_nil _
  | cell =>
      have hcell : ∀ k ∈ ["colspan", "rowspan", "style"], Lettered k := by decide
      exact fun p hp => hcell p.1 (mem_cellPairs hp)
  | _ =>
      simp only [List.forall_mem_cons]
      decide

/-- A tag that was written is read with its name, and with the attributes that are found there. -/
theorem Template.read?_text (h : Template name attributes) :
    read? (name ++ attributesText attributes).toList = some (reread ⟨name, attributes⟩) := by
  obtain ⟨hletter, hname⟩ := h.name_chars
  have hin : ∀ c ∈ name.toList, (!(isSpace c || c == '/')) = true := fun c hc => by
    rw [hname c hc]
    rfl
  have hstop : ∀ c ∈ (attributesText attributes).toList.head?,
      (!(isSpace c || c == '/')) = false := by
    cases attributes with
    | nil => exact fun c hc => by cases hc
    | cons p rest =>
        intro c hc
        have hfirst : (attributesText (p :: rest)).toList.head? = some ' ' := by
          rw [attributesText_cons]
          simp
        rw [hfirst] at hc
        obtain rfl := Option.some.inj hc
        decide
  have hhead : (name ++ attributesText attributes).toList.head?.any Char.isAlpha = true := by
    cases hchars : name.toList with
    | nil =>
        rw [hchars] at hletter
        cases hletter
    | cons c cs =>
        rw [hchars] at hletter
        rw [String.toList_append, hchars]
        exact hletter
  rw [read?, if_pos hhead, String.toList_append]
  dsimp only
  rw [Text.takeWhile_append_of_stop hin hstop, Text.dropWhile_append_of_stop hin hstop,
    String.ofList_toList, reread]

theorem Template.reread_eq_self_iff (h : Template name attributes) :
    reread ⟨name, attributes⟩ = ⟨name, attributes⟩ ↔ StartTag.Plain ⟨name, attributes⟩ := by
  rw [reread, StartTag.mk.injEq]
  exact (and_iff_right rfl).trans (attributesFrom_eq_iff h.lettered)

theorem read?_stop (name : String) : read? ("/" ++ name).toList = none := by
  rw [String.toList_append]
  rfl

end template

end Markup.Html
