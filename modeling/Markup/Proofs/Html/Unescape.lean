import Markup.Proofs.Html.Escape

/-! # Escaped text can be read back

`unescape` replaces the character references of a text by what they stand for: the four names that
are written, and code points in hexadecimal digits.  Reading an escaped text back gives the text
(`unescape_escape`), so that different texts stay different when they are escaped
(`escape_injective`). -/

namespace Markup.Html

/-! ### Reading references -/

/-- The value of a hexadecimal digit in upper case. -/
def upperHexValue (c : Char) : Nat := if c.toNat < 58 then c.toNat - 48 else c.toNat - 55

/-- The number that hexadecimal digits in upper case stand for. -/
def ofUpperHex (digits : List Char) : Nat := digits.foldl (fun n c => 16 * n + upperHexValue c) 0

/-- What a reference stands for, by what is between its ampersand and its semicolon; an unknown one
stands for itself. -/
def referent (name : List Char) : List Char :=
  if name = "amp".toList then ['&']
  else if name = "lt".toList then ['<']
  else if name = "gt".toList then ['>']
  else if name = "quot".toList then ['"']
  else match name with
    | '#' :: 'x' :: digits => [Char.ofNat (ofUpperHex digits)]
    | _ => '&' :: name ++ [';']

/-- Reads references; `name` is what has been read of one. -/
def unescapeFrom : Option (List Char) → List Char → List Char
  | none, [] => []
  | some name, [] => '&' :: name
  | none, c :: cs => if c = '&' then unescapeFrom (some []) cs else c :: unescapeFrom none cs
  | some name, c :: cs =>
    if c = ';' then referent name ++ unescapeFrom none cs else unescapeFrom (some (name ++ [c])) cs

/-- A text with its references replaced by what they stand for. -/
def unescape (s : String) : String := String.ofList (unescapeFrom none s.toList)

/-! ### References that were written -/

theorem upperHexDigit_spec {n : Nat} (h : n < 16) :
    upperHexValue (upperHexDigit n) = n ∧ upperHexDigit n ≠ ';' := by
  have : ∀ n : Fin 16, upperHexValue (upperHexDigit n) = n ∧ upperHexDigit n ≠ ';' := by decide
  exact this ⟨n, h⟩

theorem ofUpperHex_upperHex (n : Nat) : ofUpperHex (upperHex n) = n := by
  fun_induction upperHex n with
  | case1 n h =>
      change 16 * 0 + upperHexValue (upperHexDigit n) = n
      rw [(upperHexDigit_spec h).1]
      omega
  | case2 n h ih =>
      rw [ofUpperHex] at ih
      rw [ofUpperHex, List.foldl_append, ih]
      change 16 * (n / 16) + upperHexValue (upperHexDigit (n % 16)) = n
      rw [(upperHexDigit_spec (Nat.mod_lt n (by omega))).1]
      omega

theorem ne_semicolon_of_mem_upperHex (n : Nat) : Every (· ≠ ';') (upperHex n) :=
  every_upperHex (fun _ h => (upperHexDigit_spec h).2) n

theorem unescapeFrom_name {cs : List Char} (h : Every (· ≠ ';') cs) (name rest : List Char) :
    unescapeFrom (some name) (cs ++ ';' :: rest) =
      referent (name ++ cs) ++ unescapeFrom none rest := by
  induction cs generalizing name with
  | nil => simp [unescapeFrom]
  | cons c cs ih =>
      rw [List.cons_append, unescapeFrom, if_neg (h c List.mem_cons_self),
        ih fun d hd => h d (List.mem_cons_of_mem c hd)]
      simp

/-- A reference is read whole, whatever follows it. -/
theorem unescapeFrom_reference {name : List Char} (h : Every (· ≠ ';') name) (rest : List Char) :
    unescapeFrom none ('&' :: name ++ ';' :: rest) = referent name ++ unescapeFrom none rest := by
  rw [List.cons_append, unescapeFrom, if_pos rfl, unescapeFrom_name h]
  rfl

/-- An escaped character is read back, whatever follows it. -/
theorem unescapeFrom_escapeChar (c : Char) (rest : List Char) :
    unescapeFrom none (escapeChar c ++ rest) = c :: unescapeFrom none rest := by
  unfold escapeChar
  split
  · next h =>
    have hname : Every (· ≠ ';') "amp".toList := by decide
    rw [h]
    exact unescapeFrom_reference hname rest
  split
  · next h =>
    have hname : Every (· ≠ ';') "lt".toList := by decide
    rw [h]
    exact unescapeFrom_reference hname rest
  split
  · next h =>
    have hname : Every (· ≠ ';') "gt".toList := by decide
    rw [h]
    exact unescapeFrom_reference hname rest
  split
  · next h =>
    have hname : Every (· ≠ ';') "quot".toList := by decide
    rw [h]
    exact unescapeFrom_reference hname rest
  split
  · have hname : Every (· ≠ ';') ('#' :: 'x' :: upperHex c.toNat) := by
      intro d hd
      change d ∈ ['#', 'x'] ++ upperHex c.toNat at hd
      rcases List.mem_append.mp hd with hd | hd
      · exact (by decide : Every (· ≠ ';') ['#', 'x']) d hd
      · exact ne_semicolon_of_mem_upperHex _ d hd
    have hread := unescapeFrom_reference hname rest
    have hreferent : referent ('#' :: 'x' :: upperHex c.toNat) = [c] := by
      simp [referent, ofUpperHex_upperHex]
    rw [hreferent] at hread
    simpa using hread
  · next hamp _ _ _ _ =>
    rw [List.singleton_append, unescapeFrom, if_neg hamp]

/-- **Escaping can be undone.** -/
theorem unescape_escape (s : String) : unescape (escape s) = s := by
  have hread : ∀ cs : List Char, unescapeFrom none (cs.flatMap escapeChar) = cs := by
    intro cs
    induction cs with
    | nil => rfl
    | cons c cs ih => rw [List.flatMap_cons, unescapeFrom_escapeChar, ih]
  rw [unescape, escape, String.toList_ofList, hread, String.ofList_toList]

theorem escape_injective : Function.Injective escape :=
  Function.LeftInverse.injective unescape_escape

end Markup.Html
