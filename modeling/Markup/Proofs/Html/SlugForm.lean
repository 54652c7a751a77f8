import Mathlib.Data.List.TakeWhile
import Markup.Html.Render
import Markup.Proofs.Html.Escape
import Markup.Proofs.Unicode.Lowercase

/-! # Slugs are normal forms

A slug is not empty, has no whitespace and no control, format, private or unassigned character,
and is in lower case (`IsSlug`).  Each of the three is something that making a slug brings about
for any text (`isSlug_slugify`), and that leaves it nothing to do: the texts that are their own
slugs are exactly these (`slugify_eq_self_iff`).  So the slug of a slug is the slug
(`slugify_normalizes`). -/

namespace Markup.Html

open Unicode

/-! ### The characters of a slug -/

/-- A character of a slug is a hyphen or one of those that it is made from. -/
theorem of_mem_slugChars {hyphen : Bool} {cs : List Char} {c : Char}
    (h : c ∈ slugChars hyphen cs) : c = '-' ∨ c ∈ cs ∧ breaksSlug c = false := by
  induction cs generalizing hyphen with
  | nil => cases h
  | cons d rest ih =>
      have hlater : ∀ {hyphen}, c ∈ slugChars hyphen rest →
          c = '-' ∨ c ∈ d :: rest ∧ breaksSlug c = false :=
        fun h => (ih h).imp_right fun ⟨hmem, hkept⟩ => ⟨List.mem_cons_of_mem d hmem, hkept⟩
      rw [slugChars] at h
      split at h
      · split at h
        · exact hlater h
        · exact (List.mem_cons.mp h).elim .inl hlater
      · next hkept =>
        rcases List.mem_cons.mp h with rfl | h
        · exact .inr ⟨List.mem_cons_self, Bool.eq_false_iff.mpr hkept⟩
        · exact hlater h

/-- Characters that may stand in a slug are left as they are, hyphens after hyphens too. -/
theorem slugChars_of_unbroken (hyphen : Bool) {cs : List Char}
    (h : Every (breaksSlug · = false) cs) : slugChars hyphen cs = cs := by
  induction cs generalizing hyphen with
  | nil => rfl
  | cons c rest ih =>
      rw [slugChars, h c List.mem_cons_self, if_neg Bool.false_ne_true,
        ih (c == '-') fun d hd => h d (List.mem_cons_of_mem c hd)]

theorem trim_eq_self {p : Char → Bool} {cs : List Char} (h : Every (p · = false) cs) :
    Text.trim p cs = cs := by
  have hdrop : ∀ {ds : List Char}, Every (p · = false) ds → ds.dropWhile p = ds := by
    intro ds hds
    refine List.dropWhile_eq_self_iff.mpr fun hlength => ?_
    rw [hds _ (List.getElem_mem hlength)]
    exact Bool.false_ne_true
  have hreverse : Every (p · = false) cs.reverse := fun c hc => h c (List.mem_reverse.mp hc)
  rw [Text.trim, hdrop h, Text.trimEnd, hdrop hreverse, List.reverse_reverse]

/-! ### Texts that are their own slugs -/

/-- What every slug is: a text in lower case, not empty, without whitespace and without characters
of general category `C`. -/
structure IsSlug (s : String) : Prop where
  ne_empty : s ≠ ""
  unbroken : Every (fun c => isWhitespace c = false ∧ isOther c = false) s.toList
  lower : toLower s.toList = s.toList

theorem breaksSlug_eq_false_iff {c : Char} :
    breaksSlug c = false ↔ isWhitespace c = false ∧ isOther c = false := Bool.or_eq_false_iff

/-- The slug of any text is one. -/
theorem isSlug_slugify (text : String) : IsSlug (slugify text) := by
  -- the slug as characters that do not break it and are small
  have hchars : ∃ cs, slugify text = String.ofList cs ∧ cs ≠ [] ∧
      Every (fun c => breaksSlug c = false ∧ IsLower c) cs := by
    rw [slugify]
    split
    · exact ⟨"section".toList, rfl, by decide, by decide +kernel⟩
    · next hne =>
      refine ⟨_, rfl, by simpa using hne, fun c hc => ?_⟩
      rcases of_mem_slugChars hc with rfl | ⟨hmem, hkept⟩
      · decide +kernel
      · exact ⟨hkept, isLower_of_mem_lowerFrom [] _ c hmem⟩
  obtain ⟨cs, heq, hne, hcs⟩ := hchars
  rw [heq]
  refine ⟨fun hempty => hne ?_, ?_, ?_⟩
  · rw [← String.toList_ofList (l := cs), hempty]
    rfl
  · intro c hc
    rw [String.toList_ofList] at hc
    exact breaksSlug_eq_false_iff.mp (hcs c hc).1
  · rw [String.toList_ofList]
    exact toLower_eq_self_iff.mpr fun c hc => (hcs c hc).2

theorem IsSlug.slugify_eq {s : String} (h : IsSlug s) : slugify s = s := by
  have hspace : Every (isWhitespace · = false) s.toList := fun c hc => (h.unbroken c hc).1
  have hbreaks : Every (breaksSlug · = false) s.toList :=
    fun c hc => breaksSlug_eq_false_iff.mpr (h.unbroken c hc)
  have hne : s.toList.isEmpty = false := by
    simpa [List.isEmpty_eq_false_iff] using h.ne_empty
  rw [slugify, trim_eq_self hspace, h.lower, slugChars_of_unbroken false hbreaks, hne,
    if_neg Bool.false_ne_true, String.ofList_toList]

/-- The texts that are their own slugs. -/
theorem slugify_eq_self_iff {s : String} : slugify s = s ↔ IsSlug s :=
  ⟨fun h => h ▸ isSlug_slugify s, IsSlug.slugify_eq⟩

/-- **Slugs are normal forms.**  The slug of a text is not empty, has no whitespace and no control,
format, private or unassigned character, and is its own slug; and a text is its own slug only if it
is of this kind and in lower case. -/
theorem slugify_normalizes (text : String) :
    slugify text ≠ "" ∧
      Every (fun c => isWhitespace c = false ∧ isOther c = false) (slugify text).toList ∧
      slugify (slugify text) = slugify text ∧
      (slugify text = text ↔ IsSlug text) := by
  have hslug := isSlug_slugify text
  exact ⟨hslug.ne_empty, hslug.unbroken, hslug.slugify_eq, slugify_eq_self_iff⟩

/-- A final sigma, a hyphen before space, and control characters at the end. -/
example : slugify "ΟΔΟΣ -\t A\x07\x00 " = "οδος--a-" := by decide +kernel

end Markup.Html
