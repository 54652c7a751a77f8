import Markup.Cli.Run
import Mathlib.Algebra.Order.Ring.Int
import Mathlib.Tactic.Lift

/-! # Files that can and cannot be used

What a file holds (`Disk.Holds`), and what the reasons are that it cannot be read, looked at or
written: only a path with a NUL in it fails for a reason that counts as no ordinary one
(`Disk.readFile_error`, `Disk.status_error`, `Disk.writeFile_error`).  What is told of the time of a
file lies within the second of its last change (`statTime_bounds`). -/

namespace Markup.Cli

/-- The path has a character in it that no path of the system can have. -/
def Path.HasNul (p : Path) : Prop := Char.ofNat 0 ∈ p.text.toList

namespace Disk

variable {d : Disk} {p : Path}

/-- The file is UTF-8 and reads as this text. -/
def Holds (d : Disk) (p : Path) (text : String) : Prop :=
  ∃ bytes, d.readFile p = .ok bytes ∧ Text.decode? bytes = some text

/-- The file can be read but is not UTF-8. -/
def Undecodable (d : Disk) (p : Path) : Prop :=
  ∃ bytes, d.readFile p = .ok bytes ∧ Text.decode? bytes = none

theorem readFile_cases (d : Disk) (p : Path) :
    (∃ e, d.readFile p = .error e) ∨ d.Undecodable p ∨ ∃ text, d.Holds p text := by
  cases hread : d.readFile p with
  | error e => exact .inl ⟨e, rfl⟩
  | ok bytes =>
      cases hdecode : Text.decode? bytes with
      | none => exact .inr (.inl ⟨bytes, hread, hdecode⟩)
      | some text => exact .inr (.inr ⟨text, bytes, hread, hdecode⟩)

theorem Holds.unique {text text' : String} (h : d.Holds p text) (h' : d.Holds p text') :
    text = text' := by
  obtain ⟨bytes, hread, hdecode⟩ := h
  obtain ⟨bytes', hread', hdecode'⟩ := h'
  rw [hread] at hread'
  cases hread'
  rw [hdecode] at hdecode'
  exact Option.some.inj hdecode'

theorem Holds.not_undecodable {text : String} (h : d.Holds p text) : ¬ d.Undecodable p := by
  rintro ⟨bytes', hread', hdecode'⟩
  obtain ⟨bytes, hread, hdecode⟩ := h
  rw [hread] at hread'
  cases hread'
  rw [hdecode] at hdecode'
  cases hdecode'

theorem walk_error : ∀ {names : List String} {here : Location} {cause : FileCause},
    d.walk here names = .error cause → cause ≠ .nulInPath
  | name :: rest, here, cause, h => by
      unfold walk at h
      split at h
      · cases h
        exact FileCause.noConfusion
      · cases h
        exact FileCause.noConfusion
      · split at h
        · cases h
          exact FileCause.noConfusion
        · exact walk_error h

theorem locate_of_hasNul (h : p.HasNul) : d.locate p = .error .nulInPath := by
  unfold locate
  rw [if_pos (List.contains_iff_mem.mpr h)]

theorem locate_ok {here : Location} (h : d.locate p = .ok here) : ¬ p.HasNul := by
  intro hnul
  rw [locate_of_hasNul hnul] at h
  cases h

/-- Only such a path is not even looked for. -/
theorem locate_error {cause : FileCause} (h : d.locate p = .error cause) :
    cause = .nulInPath ↔ p.HasNul := by
  unfold locate at h
  split at h
  · next hnul =>
    cases h
    exact iff_of_true rfl (List.contains_iff_mem.mp hnul)
  · next hnul =>
    have hfree : ¬ p.HasNul := fun hmem => hnul (List.contains_iff_mem.mpr hmem)
    refine iff_of_false ?_ hfree
    split at h
    · cases h
      exact FileCause.noConfusion
    · exact walk_error h

theorem at?_error {e : FileError} (h : d.at? p = .error e) : e.isOrdinary = true ↔ ¬ p.HasNul := by
  unfold at? at h
  cases hlocate : d.locate p with
  | error cause =>
      rw [hlocate] at h
      cases h
      rw [← locate_error hlocate]
      simp [FileError.isOrdinary]
  | ok here =>
      rw [hlocate] at h
      dsimp only at h
      split at h
      · cases h
      · cases h
        exact iff_of_true rfl (locate_ok hlocate)

theorem at?_ok {stored : Stored} (h : d.at? p = .ok stored) : ¬ p.HasNul := by
  intro hnul
  unfold at? at h
  rw [locate_of_hasNul hnul] at h
  cases h

theorem status_error {e : FileError} (h : d.status p = .error e) :
    e.isOrdinary = true ↔ ¬ p.HasNul := by
  unfold status at h
  cases hat : d.at? p with
  | error e' =>
      rw [hat] at h
      cases h
      exact at?_error hat
  | ok stored =>
      rw [hat] at h
      cases h

theorem readFile_error {e : FileError} (h : d.readFile p = .error e) :
    e.isOrdinary = true ↔ ¬ p.HasNul := by
  unfold readFile at h
  split at h
  · next e' hat =>
    cases h
    exact at?_error hat
  · cases h
  · next hat =>
    cases h
    exact iff_of_true rfl (at?_ok hat)

theorem readFile_ok {bytes : ByteArray} (h : d.readFile p = .ok bytes) : ¬ p.HasNul := by
  unfold readFile at h
  split at h
  · cases h
  · next hat => exact at?_ok hat
  · cases h

theorem writeFile_error {text : String} {e : FileError} (h : d.writeFile p text = .error e) :
    e.isOrdinary = true ↔ ¬ p.HasNul := by
  unfold writeFile at h
  split at h
  · next cause hlocate =>
    cases h
    rw [← locate_error hlocate]
    simp [FileError.isOrdinary]
  · next here hlocate =>
    split at h
    · cases h
      exact iff_of_true rfl (locate_ok hlocate)
    · cases h

theorem writeFile_ok {text : String} {d' : Disk} (h : d.writeFile p text = .ok d') :
    ¬ p.HasNul := by
  intro hnul
  unfold writeFile at h
  rw [locate_of_hasNul hnul] at h
  cases h

theorem status_ok {st : Status} (h : d.status p = .ok st) : ¬ p.HasNul := by
  unfold status at h
  cases hat : d.at? p with
  | error e =>
      rw [hat] at h
      cases h
  | ok stored => exact at?_ok hat

/-- What can be read is a file, and a file can be read. -/
theorem readFile_of_status {st : Status} (h : d.status p = .ok st) :
    (∃ bytes, d.readFile p = .ok bytes) ↔ st.isFile = true := by
  unfold status at h
  cases hat : d.at? p with
  | error e =>
      rw [hat] at h
      cases h
  | ok stored =>
      rw [hat] at h
      cases h
      unfold readFile
      rw [hat]
      obtain ⟨node, modified⟩ := stored
      cases node with
      | file bytes => exact iff_of_true ⟨bytes, rfl⟩ rfl
      | directory =>
          refine iff_of_false ?_ Bool.false_ne_true
          rintro ⟨bytes, hread⟩
          cases hread

theorem readFile_of_status_error {e : FileError} (h : d.status p = .error e) :
    d.readFile p = .error e := by
  unfold status at h
  cases hat : d.at? p with
  | error e' =>
      rw [hat] at h
      cases h
      unfold readFile
      rw [hat]
  | ok stored =>
      rw [hat] at h
      cases h

end Disk

/-! ### Times -/

section times

variable {n m : Nat}

/-- Rounding does not go past a number that needs no more digits. -/
theorem roundNat_le (h : n ≤ m) (hm : Nat.pow 2 (n.log2 + 1 - 53) ∣ m) : roundNat n ≤ m := by
  unfold roundNat
  generalize Nat.pow 2 (n.log2 + 1 - 53) = step at *
  obtain ⟨k, rfl⟩ := hm
  dsimp only
  split
  · exact (Nat.div_mul_le_self n step).trans h
  · next hup =>
    have hne : n ≠ step * k := by
      intro hsame
      have hleft : n % step = 0 := hsame ▸ Nat.mul_mod_right step k
      have hstep : 0 < step := Nat.pos_of_ne_zero fun hzero => by simp_all
      omega
    have hkept : n / step < k := Nat.div_lt_of_lt_mul (lt_of_le_of_ne h hne)
    exact (Nat.mul_le_mul_right step hkept).trans (Nat.mul_comm k step).le

theorem le_roundNat (h : m ≤ n) (hm : Nat.pow 2 (n.log2 + 1 - 53) ∣ m) : m ≤ roundNat n := by
  unfold roundNat
  have hstep : 0 < Nat.pow 2 (n.log2 + 1 - 53) := Nat.two_pow_pos _
  generalize Nat.pow 2 (n.log2 + 1 - 53) = step at *
  obtain ⟨k, rfl⟩ := hm
  have hkept : step * k ≤ n / step * step := by
    rw [Nat.mul_comm step k] at h ⊢
    exact Nat.mul_le_mul_right step ((Nat.le_div_iff_mul_le hstep).mpr h)
  dsimp only
  split
  · exact hkept
  · exact hkept.trans (Nat.mul_le_mul_right step (Nat.le_succ _))

/-- A number of seconds needs no more digits, for the next few hundred million years. -/
theorem dvd_seconds (h : n < 2 ^ 135) (k : Nat) :
    Nat.pow 2 (n.log2 + 1 - 53) ∣ k * 2 ^ 82 := by
  have hlog : n.log2 + 1 - 53 ≤ 82 := by
    by_cases hn : n = 0
    · subst hn
      decide
    · have := (Nat.log2_lt hn).mpr h
      omega
  exact Nat.dvd_mul_left_of_dvd (Nat.pow_dvd_pow 2 hlog) k

/-- Rounding stays between two whole seconds. -/
theorem roundInt_seconds {k n : Int} (hk : 0 ≤ k) (hsmall : k + 1 < 2 ^ 53)
    (hlow : k * stepsOfSecond ≤ n) (hhigh : n ≤ (k + 1) * stepsOfSecond) :
    k * stepsOfSecond ≤ roundInt n ∧ roundInt n ≤ (k + 1) * stepsOfSecond := by
  unfold stepsOfSecond at *
  lift k to Nat using hk
  lift n to Nat using by omega
  have hn : n < 2 ^ 135 := by omega
  have hround : roundInt n = roundNat n := if_neg (Int.natCast_nonneg n).not_gt
  have hlow' := le_roundNat (m := k * 2 ^ 82) (by omega) (dvd_seconds hn k)
  have hhigh' := roundNat_le (m := (k + 1) * 2 ^ 82) (by omega) (dvd_seconds hn (k + 1))
  omega

theorem roundInt_eq_self {n : Int} (h : 0 ≤ n) (hsmall : n < 2 ^ 53) : roundInt n = n := by
  lift n to Nat using h
  have hlog : Nat.pow 2 (n.log2 + 1 - 53) = 1 := by
    by_cases hn : n = 0
    · subst hn
      decide
    · have : n.log2 < 53 := (Nat.log2_lt hn).mpr (by omega)
      rw [show n.log2 + 1 - 53 = 0 by omega]
  have hone : Nat.pow 2 (n.log2 + 1 - 53) ∣ n := by
    rw [hlog]
    exact Nat.one_dvd n
  have hround : roundInt n = roundNat n := if_neg (Int.natCast_nonneg n).not_gt
  rw [hround, le_antisymm (roundNat_le le_rfl hone) (le_roundNat le_rfl hone)]

/-- A time is told as one within its second. -/
theorem statTime_bounds {t : Int} (h : 0 ≤ t) (hsmall : t / 1000000000 + 1 < 2 ^ 53) :
    t / 1000000000 * stepsOfSecond ≤ statTime t ∧
      statTime t ≤ (t / 1000000000 + 1) * stepsOfSecond := by
  have hleft := roundInt_seconds (k := 0) (n := t % 1000000000 * nanosecond) le_rfl (by decide)
    (by unfold nanosecond; omega) (by unfold nanosecond stepsOfSecond; omega)
  unfold statTime
  dsimp only
  rw [roundInt_eq_self (n := t / 1000000000) (by omega) (by omega)]
  exact roundInt_seconds (by omega) hsmall (by omega) (by rw [Int.add_mul]; omega)

/-- Times that are two seconds apart are told apart. -/
theorem statTime_lt {t t' : Int} (h : 0 ≤ t) (hlater : t + 2000000000 ≤ t')
    (hsmall : t' / 1000000000 + 1 < 2 ^ 53) : statTime t < statTime t' := by
  have hlow := (statTime_bounds h (by omega)).2
  have hhigh := (statTime_bounds (by omega) hsmall).1
  unfold stepsOfSecond at *
  omega

end times
end Markup.Cli
