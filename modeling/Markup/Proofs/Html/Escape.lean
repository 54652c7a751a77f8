import Markup.Html.Render

/-! # Escaped text is safe

An escaped text is ASCII and has no angle bracket and no double quote, whatever the text was
(`safe_escape`), so it can stand between tags and inside a quoted attribute.  A text of safe
characters without an ampersand stays as it is (`escape_eq_self`); numbers are of that form. -/

namespace Markup.Html

/-- All characters of a text are of a kind. -/
def Every (p : Char → Prop) (cs : List Char) : Prop := ∀ c ∈ cs, p c

-- the instance looks at the characters of the text, not at all characters there are
instance (p : Char → Prop) [DecidablePred p] : DecidablePred (Every p) := List.decidableBAll p

/-- A character that cannot be taken for a part of a tag, nor end a quoted attribute. -/
def SafeChar (c : Char) : Prop := c.toNat < 128 ∧ c ≠ '<' ∧ c ≠ '>' ∧ c ≠ '"'

instance : DecidablePred SafeChar := fun _ => inferInstanceAs (Decidable (_ ∧ _))

/-- A text of safe characters. -/
def Safe (s : String) : Prop := Every SafeChar s.toList

instance : DecidablePred Safe := fun s => inferInstanceAs (Decidable (Every SafeChar s.toList))

/-! ### Escaped text -/

theorem safeChar_upperHexDigit {n : Nat} (h : n < 16) : SafeChar (upperHexDigit n) := by
  have : ∀ n : Fin 16, SafeChar (upperHexDigit n) := by decide
  exact this ⟨n, h⟩

/-- What holds of every hexadecimal digit holds of the digits of every number. -/
theorem every_upperHex {p : Char → Prop} (h : ∀ d < 16, p (upperHexDigit d)) (n : Nat) :
    Every p (upperHex n) := by
  fun_induction upperHex n with
  | case1 n hlt =>
      intro c hc
      rw [List.mem_singleton.mp hc]
      exact h n hlt
  | case2 n hge ih =>
      intro c hc
      rcases List.mem_append.mp hc with hc | hc
      · exact ih c hc
      · rw [List.mem_singleton.mp hc]
        exact h (n % 16) (Nat.mod_lt n (by omega))

theorem safeChar_of_mem_upperHex (n : Nat) : Every SafeChar (upperHex n) :=
  every_upperHex (fun _ => safeChar_upperHexDigit) n

theorem safeChar_of_mem_escapeChar (d : Char) : Every SafeChar (escapeChar d) := by
  unfold escapeChar
  split
  · decide
  split
  · decide
  split
  · decide
  split
  · decide
  next hlt hgt hquote =>
  split
  · intro c hc
    simp only [List.mem_append] at hc
    rcases hc with (hc | hc) | hc
    · exact (by decide : Every SafeChar "&#x".toList) c hc
    · exact safeChar_of_mem_upperHex _ c hc
    · exact (by decide : Every SafeChar [';']) c hc
  · next hascii =>
    intro c hc
    rw [List.mem_singleton.mp hc]
    exact ⟨by omega, hlt, hgt, hquote⟩

/-- An escaped text is safe, whatever the text was. -/
theorem safe_escape (s : String) : Safe (escape s) := by
  intro c hc
  rw [escape, String.toList_ofList] at hc
  obtain ⟨d, -, hd⟩ := List.mem_flatMap.mp hc
  exact safeChar_of_mem_escapeChar d c hd

/-! ### Text that needs no escaping -/

/-- A text that escaping does not change: safe, and without an ampersand. -/
def Unmarked (s : String) : Prop := Every (fun c => SafeChar c ∧ c ≠ '&') s.toList

instance : DecidablePred Unmarked := fun s =>
  inferInstanceAs (Decidable (Every (fun c => SafeChar c ∧ c ≠ '&') s.toList))

theorem Unmarked.safe {s : String} (h : Unmarked s) : Safe s := fun c hc => (h c hc).1

theorem escapeChar_eq_self {c : Char} (h : SafeChar c) (hamp : c ≠ '&') : escapeChar c = [c] := by
  obtain ⟨hascii, h1, h2, h3⟩ := h
  unfold escapeChar
  rw [if_neg hamp, if_neg h1, if_neg h2, if_neg h3, if_neg (by omega)]

theorem flatMap_escapeChar_eq_self (cs : List Char) (h : Every (fun c => SafeChar c ∧ c ≠ '&') cs) :
    cs.flatMap escapeChar = cs := by
  induction cs with
  | nil => rfl
  | cons c cs ih =>
      have hc := h c List.mem_cons_self
      rw [List.flatMap_cons, escapeChar_eq_self hc.1 hc.2,
        ih fun d hd => h d (List.mem_cons_of_mem c hd)]
      rfl

theorem escape_eq_self {s : String} (h : Unmarked s) : escape s = s := by
  rw [escape, flatMap_escapeChar_eq_self s.toList h, String.ofList_toList]

/-! ### Numbers -/

theorem unmarked_toString_nat (n : Nat) : Unmarked (toString n) := by
  intro c hc
  change c ∈ n.repr.toList at hc
  rw [Nat.toList_repr] at hc
  have hdigit := Nat.isDigit_of_mem_toDigits (by omega) (by omega) hc
  obtain ⟨hlow, hhigh⟩ : 48 ≤ c.toNat ∧ c.toNat ≤ 57 := Char.isDigit_iff_toNat.mp hdigit
  have hne : ∀ d : Char, ¬ (48 ≤ d.toNat ∧ d.toNat ≤ 57) → c ≠ d := by
    rintro d hd rfl
    exact hd ⟨hlow, hhigh⟩
  exact ⟨⟨by omega, hne _ (by decide), hne _ (by decide), hne _ (by decide)⟩, hne _ (by decide)⟩

theorem unmarked_toString_int (n : Int) : Unmarked (toString n) := by
  cases n with
  | ofNat n => exact unmarked_toString_nat n
  | negSucc n =>
      intro c hc
      change c ∈ ("-" ++ toString (n + 1)).toList at hc
      rw [String.toList_append] at hc
      rcases List.mem_append.mp hc with hc | hc
      · exact (by decide : Unmarked "-") c hc
      · exact unmarked_toString_nat (n + 1) c hc

end Markup.Html
