import Markup.Unicode.Lowercase

/-! # Lower case is final

The small counterpart of a character is no capital itself.  For the runs of the table this is a
matter of their ends: the small letters of a run are a run again (`LowerRun.small`), and two runs
have no character in common if one ends before the other starts, or if they alternate
(`LowerRun.apart`).  So the table is compared run by run (`small_avoids_lowerRuns`), and not
character by character.

A text is in lower case exactly if `toLower` leaves it alone, and that is told from each of its
characters without what stands around it (`toLower_eq_self_iff`): only a capital sigma depends on
its neighbours, and both of its small forms stay.  Whatever the mapping writes is in lower case
(`isLower_of_mem_lowerFrom`). -/

namespace Markup.Unicode

/-! ### Runs -/

namespace LowerRun

variable {r s : LowerRun} {n : Nat}

theorem covers_iff :
    r.covers n = true ↔ r.first ≤ n ∧ n ≤ r.last ∧ (n - r.first) % r.step = 0 := by
  simp [covers, and_assoc]

/-- The small letters of a run. -/
def small (r : LowerRun) : LowerRun where
  first := (r.first + r.shift).toNat
  last := (r.last + r.shift).toNat
  step := r.step
  shift := 0

theorem covers_small (hpos : 0 < r.small.first) (h : r.covers n = true) :
    r.small.covers (n + r.shift).toNat = true := by
  obtain ⟨hfirst, hlast, hstep⟩ := covers_iff.mp h
  dsimp only [small] at hpos ⊢
  have hdistance :
      ((n : Int) + r.shift).toNat - ((r.first : Int) + r.shift).toNat = n - r.first := by
    omega
  refine covers_iff.mpr ⟨?_, ?_, ?_⟩
  · dsimp only
    omega
  · dsimp only
    omega
  · rw [hdistance, hstep]

/-- All characters of the run are even, or all are odd. -/
def keepsParity (r : LowerRun) : Bool := Nat.beq r.step 2 || Nat.beq r.first r.last

theorem mod_two_of_covers (hparity : r.keepsParity = true) (h : r.covers n = true) :
    n % 2 = r.first % 2 := by
  obtain ⟨hfirst, hlast, hstep⟩ := covers_iff.mp h
  rw [keepsParity, Bool.or_eq_true] at hparity
  rcases hparity with htwo | halone
  · rw [Nat.eq_of_beq_eq_true htwo] at hstep
    omega
  · have heq := Nat.eq_of_beq_eq_true halone
    omega

/-- Two runs that lie one behind the other or alternate. -/
def apart (r s : LowerRun) : Bool :=
  Nat.blt s.last r.first || Nat.blt r.last s.first ||
    (r.keepsParity && s.keepsParity && Nat.beq ((r.first + s.first) % 2) 1)

theorem not_covers_of_apart (h : r.apart s = true) (hr : r.covers n = true) :
    ¬ s.covers n = true := by
  intro hs
  obtain ⟨hrfirst, hrlast, -⟩ := covers_iff.mp hr
  obtain ⟨hsfirst, hslast, -⟩ := covers_iff.mp hs
  simp only [apart, Bool.or_eq_true, Bool.and_eq_true, Nat.blt_eq] at h
  rcases h with (hbehind | hbefore) | ⟨⟨hparity, hparity'⟩, hsum⟩
  · omega
  · omega
  · have hn := mod_two_of_covers hparity hr
    have hn' := mod_two_of_covers hparity' hs
    have hodd := Nat.eq_of_beq_eq_true hsum
    omega

/-- No character of the run is in one of the others, which are in ascending order: as in
`lowerShift`, those that start behind the run need not be looked at. -/
def avoids (r : LowerRun) : List LowerRun → Bool
  | [] => true
  | s :: rest => Nat.blt r.last s.first || (r.apart s && r.avoids rest)

theorem lowerShift_of_avoids {runs : List LowerRun} (h : r.avoids runs = true)
    (hcovers : r.covers n = true) : lowerShift runs n = 0 := by
  induction runs with
  | nil => rfl
  | cons s rest ih =>
      rw [lowerShift]
      split
      · rfl
      next hreached =>
      rw [avoids, Bool.or_eq_true, Bool.and_eq_true, Nat.blt_eq] at h
      rcases h with hbefore | ⟨hapart, hrest⟩
      · obtain ⟨-, hlast, -⟩ := covers_iff.mp hcovers
        omega
      · rw [if_neg (not_covers_of_apart hapart hcovers)]
        exact ih hrest

end LowerRun

/-- A character changes by the distance of a run that it is in, or not at all. -/
theorem lowerShift_cases (runs : List LowerRun) (n : Nat) :
    lowerShift runs n = 0 ∨ ∃ r ∈ runs, r.covers n = true ∧ lowerShift runs n = r.shift := by
  induction runs with
  | nil => exact .inl rfl
  | cons r rest ih =>
      rw [lowerShift]
      split
      · exact .inl rfl
      split
      · next hcovers => exact .inr ⟨r, List.mem_cons_self, hcovers, rfl⟩
      · refine ih.imp_right fun ⟨s, hs, hcovers, hshift⟩ => ?_
        exact ⟨s, List.mem_cons_of_mem r hs, hcovers, hshift⟩

/-- The dotted capital I, whose lower case is not one character, as a run. -/
def dottedCapital : LowerRun := { first := 0x130, last := 0x130, step := 1, shift := 0 }

/-- **No small letter of a run is a capital.** -/
theorem small_avoids_lowerRuns : ∀ r ∈ lowerRuns,
    0 < r.small.first ∧ r.small.avoids lowerRuns = true ∧ r.small.apart dottedCapital = true := by
  have hcheck : (lowerRuns.all fun r => Nat.blt 0 r.small.first &&
      (r.small.avoids lowerRuns && r.small.apart dottedCapital)) = true := by decide +kernel
  intro r hr
  have h := List.all_eq_true.mp hcheck r hr
  simpa only [Bool.and_eq_true, Nat.blt_eq] using h

/-! ### Characters -/

/-- A character that stays as it is in lower case, wherever it stands. -/
def IsLower (c : Char) : Prop := lowerShift lowerRuns c.toNat = 0 ∧ c.toNat ≠ 0x130

instance : DecidablePred IsLower := fun _ => inferInstanceAs (Decidable (_ ∧ _))

theorem IsLower.ne_sigma {c : Char} (h : IsLower c) : c.toNat ≠ 0x3A3 := by
  intro heq
  have hshift : lowerShift lowerRuns 0x3A3 = 32 := by decide +kernel
  rw [IsLower, heq, hshift] at h
  exact absurd h.1 (by decide)

theorem IsLower.lowerChar_eq {c : Char} (h : IsLower c) : lowerChar c = c := by
  rw [lowerChar, h.1, Int.add_zero, Int.toNat_natCast, Char.ofNat_toNat]

theorem isLower_ofNat {n : Nat} (hshift : lowerShift lowerRuns n = 0) (hdotted : n ≠ 0x130) :
    IsLower (Char.ofNat n) := by
  by_cases hvalid : n.isValidChar
  · have heq : Char.ofNat n = Char.ofNatAux n hvalid := dif_pos hvalid
    rw [heq]
    exact ⟨hshift, hdotted⟩
  · have heq : Char.ofNat n = '\x00' := dif_neg hvalid
    rw [heq]
    decide

/-- The small counterpart of a character is small. -/
theorem isLower_lowerChar {c : Char} (hdotted : c.toNat ≠ 0x130) : IsLower (lowerChar c) := by
  rcases lowerShift_cases lowerRuns c.toNat with hnone | ⟨r, hr, hcovers, hshift⟩
  · have hsmall : IsLower c := ⟨hnone, hdotted⟩
    rw [hsmall.lowerChar_eq]
    exact hsmall
  · obtain ⟨hpos, havoids, hapart⟩ := small_avoids_lowerRuns r hr
    have hsmall := LowerRun.covers_small hpos hcovers
    rw [lowerChar, hshift]
    refine isLower_ofNat (LowerRun.lowerShift_of_avoids havoids hsmall) fun heq => ?_
    rw [heq] at hsmall
    exact LowerRun.not_covers_of_apart hapart hsmall rfl

/-! ### Texts -/

/-- What a character becomes is small, whatever stands around it. -/
theorem isLower_of_mem_lowerFrom (before cs : List Char) :
    ∀ c ∈ lowerFrom before cs, IsLower c := by
  induction cs generalizing before with
  | nil => simp [lowerFrom]
  | cons d rest ih =>
      intro c hc
      rw [lowerFrom] at hc
      rcases List.mem_append.mp hc with hhere | hrest
      · split at hhere
        · have hsigmas : IsLower (Char.ofNat 0x3C2) ∧ IsLower (Char.ofNat 0x3C3) := by
            decide +kernel
          rw [List.mem_singleton.mp hhere]
          split
          · exact hsigmas.1
          · exact hsigmas.2
        split at hhere
        · have hdotted : IsLower 'i' ∧ IsLower (Char.ofNat 0x307) := by decide +kernel
          rcases List.mem_cons.mp hhere with rfl | hhere
          · exact hdotted.1
          · rw [List.mem_singleton.mp hhere]
            exact hdotted.2
        · next hdotted =>
          rw [List.mem_singleton.mp hhere]
          exact isLower_lowerChar hdotted
      · exact ih (d :: before) c hrest

theorem lowerFrom_of_isLower (before : List Char) {cs : List Char} (h : ∀ c ∈ cs, IsLower c) :
    lowerFrom before cs = cs := by
  induction cs generalizing before with
  | nil => rfl
  | cons c rest ih =>
      have hc := h c List.mem_cons_self
      rw [lowerFrom, if_neg hc.ne_sigma, if_neg hc.2, hc.lowerChar_eq,
        ih (c :: before) fun d hd => h d (List.mem_cons_of_mem c hd)]
      rfl

/-- **A text is in lower case exactly if each of its characters is small.** -/
theorem toLower_eq_self_iff {cs : List Char} : toLower cs = cs ↔ ∀ c ∈ cs, IsLower c := by
  refine ⟨fun h c hc => ?_, lowerFrom_of_isLower []⟩
  rw [← h] at hc
  exact isLower_of_mem_lowerFrom [] cs c hc

end Markup.Unicode
