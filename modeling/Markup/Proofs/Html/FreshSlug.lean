import Mathlib.Data.List.Nodup
import Mathlib.Data.List.Perm.Subperm
import Markup.Html.Render

/-! # No slug is taken twice

A slug that is taken gets a number.  `SuffixSearch` is the search for it with no bound: from two on,
until a numbered slug is free.  Numbered slugs are different for different numbers
(`numbered_inj`), so among one more of them than there are slugs taken one is free, and the search
comes to its end whatever is taken (`freshSlug_search`).

`slugsFor` are the slugs that headings take one after another.  They are pairwise different and
none of them was taken before (`nodup_slugsFor`), also where the text of a heading looks like a
numbered slug. -/

namespace Markup.Html

/-! ### Numbered slugs -/

theorem toString_nat_injective : Function.Injective (toString : Nat → String) := by
  intro n k h
  have hdigits := congrArg (fun s => Nat.ofDigitChars 10 s.toList 0) h
  simpa [Nat.toString_eq_ofList_toDigits] using hdigits

theorem hyphen_notMem_toString (n : Nat) : '-' ∉ (toString n).toList := by
  rw [Nat.toString_eq_ofList_toDigits, String.toList_ofList]
  intro hmem
  exact absurd (Nat.isDigit_of_mem_toDigits (by omega) (by omega) hmem) (by decide)

/-- The number of a numbered slug is what follows its last hyphen. -/
theorem numbered_inj {slug slug' : String} {n k : Nat} :
    numbered slug n = numbered slug' k ↔ slug = slug' ∧ n = k := by
  refine ⟨fun h => ?_, fun ⟨hslug, hn⟩ => by rw [hslug, hn]⟩
  have hchars : ∀ (slug : String) (n : Nat), (numbered slug n).toList.reverse =
      (toString n).toList.reverse ++ '-' :: slug.toList.reverse := by
    intro slug n
    simp [numbered]
  have hread : ∀ (slug : String) (n : Nat),
      (numbered slug n).toList.reverse.takeWhile (· != '-') = (toString n).toList.reverse := by
    intro slug n
    rw [hchars, List.takeWhile_append_of_pos]
    · simp
    · intro c hc
      have hne : c ≠ '-' := fun e => hyphen_notMem_toString n (e ▸ List.mem_reverse.mp hc)
      simpa using hne
  have hnumber : (toString n).toList.reverse = (toString k).toList.reverse := by
    rw [← hread slug, h, hread]
  have hn : n = k :=
    toString_nat_injective (String.toList_inj.mp (List.reverse_injective hnumber))
  subst hn
  have hslug := hchars slug n
  rw [h, hchars] at hslug
  have hrest := (List.cons.inj (List.append_cancel_left hslug)).2
  exact ⟨(String.toList_inj.mp (List.reverse_injective hrest)).symm, rfl⟩

/-! ### The search -/

/-- The search for a number, from `n` on, ends with a number whose slug is free. -/
inductive SuffixSearch (taken : List String) (slug : String) : Nat → Nat → Prop
  | found {n : Nat} (h : numbered slug n ∉ taken) : SuffixSearch taken slug n n
  | next {n m : Nat} (h : numbered slug n ∈ taken) (hrest : SuffixSearch taken slug (n + 1) m) :
      SuffixSearch taken slug n m

theorem SuffixSearch.free {taken : List String} {slug : String} {n m : Nat}
    (h : SuffixSearch taken slug n m) : n ≤ m ∧ numbered slug m ∉ taken := by
  induction h with
  | found h => exact ⟨Nat.le_refl _, h⟩
  | next _ _ ih => exact ⟨Nat.le_of_succ_le ih.1, ih.2⟩

theorem suffixSearch_of_taken {taken : List String} {slug : String} {n : Nat} (m : Nat)
    (h : ∀ i < m, numbered slug (i + n) ∈ taken) (hfree : numbered slug (m + n) ∉ taken) :
    SuffixSearch taken slug n (m + n) := by
  induction m generalizing n with
  | zero =>
      rw [Nat.zero_add] at hfree ⊢
      exact .found hfree
  | succ m ih =>
      have hnext : ∀ i, i + 1 + n = i + (n + 1) := by omega
      rw [hnext] at hfree ⊢
      refine .next (by simpa using h 0 (Nat.succ_pos m)) (ih (fun i hi => ?_) hfree)
      rw [← hnext]
      exact h (i + 1) (Nat.succ_lt_succ hi)

/-- Not all of the numbered slugs that are tried can be taken. -/
theorem exists_free (taken : List String) (slug : String) :
    ∃ i ∈ List.range (taken.length + 1), numbered slug (i + 2) ∉ taken := by
  by_contra hall
  simp only [not_exists, not_and, not_not] at hall
  have hnodup : ((List.range (taken.length + 1)).map fun i => numbered slug (i + 2)).Nodup := by
    refine List.Nodup.map (fun i j h => ?_) List.nodup_range
    exact Nat.add_right_cancel (numbered_inj.mp h).2
  have hsub : ((List.range (taken.length + 1)).map fun i => numbered slug (i + 2)) ⊆ taken := by
    intro s hs
    obtain ⟨i, hi, rfl⟩ := List.mem_map.mp hs
    exact hall i hi
  have hlength := (List.subperm_of_subset hnodup hsub).length_le
  rw [List.length_map, List.length_range] at hlength
  omega

/-- **The search ends**, whatever slugs are taken, and `freshSlug` gives what it finds. -/
theorem freshSlug_search (taken : List String) (slug : String) :
    ∃ n, SuffixSearch taken slug 2 n ∧
      freshSlug taken slug = if slug ∈ taken then numbered slug n else slug := by
  cases hfind : (List.range (taken.length + 1)).find?
      fun n => !taken.contains (numbered slug (n + 2)) with
  | none =>
      obtain ⟨i, hi, hfree⟩ := exists_free taken slug
      exact absurd (List.find?_eq_none.mp hfind i hi) (by simpa using hfree)
  | some m =>
      obtain ⟨hfree, -, htaken⟩ := List.find?_range_eq_some.mp hfind
      refine ⟨m + 2, suffixSearch_of_taken m (by simpa using htaken) (by simpa using hfree), ?_⟩
      rw [freshSlug, hfind]
      simp only [List.contains_iff_mem, Option.getD_some]

theorem freshSlug_notMem (taken : List String) (slug : String) : freshSlug taken slug ∉ taken := by
  obtain ⟨n, hsearch, heq⟩ := freshSlug_search taken slug
  rw [heq]
  split
  · exact hsearch.free.2
  · assumption

/-- A fresh slug is the slug itself, or the slug with a number from two on. -/
theorem freshSlug_form (taken : List String) (slug : String) :
    freshSlug taken slug = slug ∨ ∃ n, 2 ≤ n ∧ freshSlug taken slug = numbered slug n := by
  obtain ⟨n, hsearch, heq⟩ := freshSlug_search taken slug
  split at heq
  · exact .inr ⟨n, hsearch.free.1, heq⟩
  · exact .inl heq

/-! ### One heading after another -/

/-- The slugs that headings of these texts take one after another. -/
def slugsFor (taken : List String) : List String → List String
  | [] => []
  | text :: rest =>
    freshSlug taken (slugify text) ::
      slugsFor (taken ++ [freshSlug taken (slugify text)]) rest

theorem slugsFor_append (taken texts texts' : List String) :
    slugsFor taken (texts ++ texts') =
      slugsFor taken texts ++ slugsFor (taken ++ slugsFor taken texts) texts' := by
  induction texts generalizing taken with
  | nil => simp [slugsFor]
  | cons text texts ih => simp [slugsFor, ih]

theorem length_slugsFor (taken texts : List String) :
    (slugsFor taken texts).length = texts.length := by
  induction texts generalizing taken with
  | nil => rfl
  | cons text texts ih => rw [slugsFor, List.length_cons, ih, List.length_cons]

/-- The slugs are pairwise different, and none of them was taken before. -/
theorem nodup_slugsFor (taken texts : List String) :
    (slugsFor taken texts).Nodup ∧ ∀ slug ∈ slugsFor taken texts, slug ∉ taken := by
  induction texts generalizing taken with
  | nil => exact ⟨List.nodup_nil, fun _ h => by cases h⟩
  | cons text texts ih =>
      obtain ⟨hnodup, hnew⟩ := ih (taken ++ [freshSlug taken (slugify text)])
      refine ⟨List.nodup_cons.mpr ⟨fun hmem => ?_, hnodup⟩, fun slug hslug => ?_⟩
      · exact hnew _ hmem (List.mem_append_right _ List.mem_cons_self)
      · rcases List.mem_cons.mp hslug with rfl | hslug
        · exact freshSlug_notMem taken _
        · exact fun hmem => hnew slug hslug (List.mem_append_left _ hmem)

/-- Every slug is the slug of one of the texts, perhaps with a number. -/
theorem slugsFor_form {taken texts : List String} {slug : String}
    (h : slug ∈ slugsFor taken texts) :
    ∃ text ∈ texts, slug = slugify text ∨ ∃ n, 2 ≤ n ∧ slug = numbered (slugify text) n := by
  induction texts generalizing taken with
  | nil => cases h
  | cons text texts ih =>
      rcases List.mem_cons.mp h with rfl | h
      · exact ⟨text, List.mem_cons_self, freshSlug_form taken (slugify text)⟩
      · obtain ⟨other, hmem, hform⟩ := ih h
        exact ⟨other, List.mem_cons_of_mem _ hmem, hform⟩

end Markup.Html
