import Markup.Proofs.Html.Unescape

/-! # Escaped text in the grammar of references

A reference to a character is one of four names or a code point in upper-case hexadecimal digits,
between an ampersand and a semicolon (`Reference`).  A text with references spells another text
where every reference stands for its character, and every other character, none of them an
ampersand, for itself (`Spells`).  No reference is the beginning of another one and there is no
ampersand inside of it, so a text spells one text at most, which is the one that `unescape` reads
(`Spells.unescapeFrom_eq`), and every ampersand in it begins a reference (`Spells.refers`).

An escaped text spells the text it was made from (`spells_escape`), also where that looked like a
reference already (`escape_faithful`). -/

namespace Markup.Html

/-! ### References -/

/-- An upper-case hexadecimal digit. -/
def IsUpperHex (c : Char) : Prop := ('0' ≤ c ∧ c ≤ '9') ∨ ('A' ≤ c ∧ c ≤ 'F')

instance : DecidablePred IsUpperHex := fun _ => inferInstanceAs (Decidable (_ ∨ _))

/-- The references to a character. -/
inductive Reference : Char → List Char → Prop
  | amp : Reference '&' "&amp;".toList
  | lt : Reference '<' "&lt;".toList
  | gt : Reference '>' "&gt;".toList
  | quot : Reference '"' "&quot;".toList
  | code {c : Char} {digits : List Char} (hne : digits ≠ []) (hdigits : Every IsUpperHex digits)
      (hcode : ofUpperHex digits = c.toNat) : Reference c ("&#x".toList ++ digits ++ [';'])

/-- The text that a text with references stands for. -/
inductive Spells : List Char → List Char → Prop
  | nil : Spells [] []
  | plain {c : Char} {cs text : List Char} (h : c ≠ '&') (hrest : Spells cs text) :
      Spells (c :: cs) (c :: text)
  | reference {c : Char} {ref cs text : List Char} (h : Reference c ref)
      (hrest : Spells cs text) : Spells (ref ++ cs) (c :: text)

/-- A character that does not delimit a reference. -/
def Inner (c : Char) : Prop := c ≠ '&' ∧ c ≠ ';'

instance : DecidablePred Inner := fun _ => inferInstanceAs (Decidable (_ ∧ _))

theorem IsUpperHex.inner {c : Char} (h : IsUpperHex c) : Inner c := by
  refine ⟨?_, ?_⟩
  · rintro rfl
    exact absurd h (by decide)
  · rintro rfl
    exact absurd h (by decide)

/-- A reference ends at its first semicolon, has no further ampersand, and is read as the character
it refers to. -/
theorem Reference.exists_name {c : Char} {ref : List Char} (h : Reference c ref) :
    ∃ name, ref = '&' :: name ++ [';'] ∧ Every Inner name ∧ referent name = [c] := by
  cases h with
  | amp => exact ⟨"amp".toList, rfl, by decide, rfl⟩
  | lt => exact ⟨"lt".toList, rfl, by decide, rfl⟩
  | gt => exact ⟨"gt".toList, rfl, by decide, rfl⟩
  | quot => exact ⟨"quot".toList, rfl, by decide, rfl⟩
  | @code _ digits _ hdigits hcode =>
      refine ⟨'#' :: 'x' :: digits, rfl, ?_, ?_⟩
      · intro d hd
        rcases List.mem_append.mp (show d ∈ ['#', 'x'] ++ digits from hd) with hd | hd
        · exact (by decide : Every Inner ['#', 'x']) d hd
        · exact (hdigits d hd).inner
      · simp [referent, hcode]

/-- An ampersand in a reference is its first character. -/
theorem Reference.before_eq_nil {c : Char} {before after : List Char}
    (h : Reference c (before ++ '&' :: after)) : before = [] := by
  obtain ⟨name, heq, hinner, -⟩ := h.exists_name
  cases before with
  | nil => rfl
  | cons b before =>
      have htail : before ++ '&' :: after = name ++ [';'] := (List.cons.inj heq).2
      have hmem : '&' ∈ name ++ [';'] := by
        rw [← htail]
        exact List.mem_append_right _ List.mem_cons_self
      rcases List.mem_append.mp hmem with hmem | hmem
      · exact absurd rfl (hinner _ hmem).1
      · exact absurd hmem (by decide)

/-! ### What is spelled -/

/-- What a text spells is what is read when its references are replaced. -/
theorem Spells.unescapeFrom_eq {cs text : List Char} (h : Spells cs text) :
    unescapeFrom none cs = text := by
  induction h with
  | nil => rfl
  | plain h _ ih => rw [unescapeFrom, if_neg h, ih]
  | @reference c ref cs text h _ ih =>
      obtain ⟨name, rfl, hname, hreferent⟩ := h.exists_name
      have hread := unescapeFrom_reference (fun d hd => (hname d hd).2) cs
      rw [hreferent, ih] at hread
      simpa using hread

/-- Every ampersand in a text that spells something begins a reference. -/
theorem Spells.refers {cs text : List Char} (h : Spells cs text) :
    ∀ before after, cs = before ++ '&' :: after →
      ∃ c ref rest, Reference c ref ∧ '&' :: after = ref ++ rest := by
  induction h with
  | nil => simp
  | plain h _ ih =>
      rintro (_ | ⟨b, before⟩) after heq
      · exact absurd (List.cons.inj heq).1 h
      · exact ih before after (List.cons.inj heq).2
  | @reference c ref cs text h _ ih =>
      intro before after heq
      rcases List.append_eq_append_iff.mp heq with ⟨middle, -, hcs⟩ | ⟨middle, href, hrest⟩
      · exact ih middle after hcs
      cases middle with
      | nil => exact ih [] after hrest.symm
      | cons d middle =>
          obtain ⟨rfl, hafter⟩ := List.cons.inj hrest
          rw [href] at h
          obtain rfl := h.before_eq_nil
          exact ⟨c, _, cs, h, congrArg ('&' :: ·) hafter⟩

/-! ### Escaped text -/

theorem isUpperHex_of_mem_upperHex (n : Nat) : Every IsUpperHex (upperHex n) := by
  have hdigit : ∀ d : Fin 16, IsUpperHex (upperHexDigit d) := by decide
  exact every_upperHex (fun d hd => hdigit ⟨d, hd⟩) n

theorem upperHex_ne_nil (n : Nat) : upperHex n ≠ [] := by
  unfold upperHex
  split <;> simp

/-- A character is written as itself or by a reference to it. -/
theorem escapeChar_cases (c : Char) :
    (c ≠ '&' ∧ escapeChar c = [c]) ∨ Reference c (escapeChar c) := by
  unfold escapeChar
  split
  · next h => exact .inr (h ▸ .amp)
  split
  · next h => exact .inr (h ▸ .lt)
  split
  · next h => exact .inr (h ▸ .gt)
  split
  · next h => exact .inr (h ▸ .quot)
  split
  · exact .inr (.code (upperHex_ne_nil _) (isUpperHex_of_mem_upperHex _) (ofUpperHex_upperHex _))
  · next hamp _ _ _ _ => exact .inl ⟨hamp, rfl⟩

theorem spells_flatMap_escapeChar (cs : List Char) : Spells (cs.flatMap escapeChar) cs := by
  induction cs with
  | nil => exact .nil
  | cons c cs ih =>
      rw [List.flatMap_cons]
      rcases escapeChar_cases c with ⟨hne, hself⟩ | href
      · rw [hself]
        exact .plain hne ih
      · exact .reference href ih

/-- An escaped text spells the text it was made from. -/
theorem spells_escape (s : String) : Spells (escape s).toList s.toList := by
  rw [escape, String.toList_ofList]
  exact spells_flatMap_escapeChar s.toList

/-- **Escaping is safe and can be undone.**  An escaped text is ASCII without brackets and double
quotes, every ampersand in it begins a reference, and what it spells is the text it was made from
and nothing else, so that no other text has the same escaped form.  A concatenation is escaped part
by part. -/
theorem escape_faithful (s : String) :
    Safe (escape s) ∧
      (∀ before after, (escape s).toList = before ++ '&' :: after →
        ∃ c ref rest, Reference c ref ∧ '&' :: after = ref ++ rest) ∧
      (∀ text, Spells (escape s).toList text ↔ text = s.toList) ∧
      (∀ t, escape t = escape s → t = s) ∧
      ∀ t, escape (s ++ t) = escape s ++ escape t := by
  have hspells := spells_escape s
  refine ⟨safe_escape s, hspells.refers, fun text => ⟨fun h => ?_, fun h => h ▸ hspells⟩,
    fun t h => escape_injective h, escape_append s⟩
  rw [← h.unescapeFrom_eq, hspells.unescapeFrom_eq]

/-- A text that looks like a reference already, and a character outside ASCII behind it. -/
theorem escape_faithful_lookalike :
    (escape "&lt;é").toList = "&amp;lt;".toList ++ '&' :: "#xE9;".toList ∧
      (∃ c ref rest, Reference c ref ∧ '&' :: "#xE9;".toList = ref ++ rest) ∧
      (∀ text, Spells "&amp;lt;&#xE9;".toList text ↔ text = "&lt;é".toList) ∧
      escape ("&lt;" ++ "é") = escape "&lt;" ++ escape "é" := by
  have hescape : escape "&lt;é" = "&amp;lt;&#xE9;" := by
    simp [escape, escapeChar, upperHex, upperHexDigit]
  obtain ⟨-, hrefers, hspells, -, -⟩ := escape_faithful "&lt;é"
  obtain ⟨-, -, -, -, happend⟩ := escape_faithful "&lt;"
  rw [hescape] at hrefers hspells
  refine ⟨by rw [hescape]; rfl, ?_, hspells, happend "é"⟩
  exact hrefers "&amp;lt;".toList "#xE9;".toList rfl

end Markup.Html
