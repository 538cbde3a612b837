import FastcgiContainer.FileBuffer

/-! Which windows a mapping can be asked for. `checkWindow` rounds a request up to whole pages;
at the top of the 64-bit range that leaves no window at all. -/

namespace FastcgiContainer

open Word (Bytes)

def toWord (setting : Int) : Nat := (setting % 2 ^ 64).toNat

/-- What `at`, `atSegment`, `find` and `segment` divide by. -/
def FileBuffer.divisors (buffer : FileBuffer) : List Nat := [buffer.file.window, buffer.window]

namespace MMapFile

structure Usable (pageSize request window : Nat) : Prop where
  positive : 0 < window
  aligned : pageSize ∣ window
  enough : request ≠ 0 → request ≤ window

def wholePages (pageSize request : Nat) : Nat :=
  pageSize * (if request - request / pageSize * pageSize ≠ 0 then request / pageSize + 1 else request / pageSize)

theorem wholePages_le (pageSize request : Nat) (page : 0 < pageSize) :
    request ≤ wholePages pageSize request ∧ wholePages pageSize request < request + pageSize := by
  have split := Nat.div_add_mod request pageSize
  have rest := Nat.mod_lt request page
  have product := Nat.mul_comm pageSize (request / pageSize)
  unfold wholePages
  split
  · rw [Nat.mul_succ]
    omega
  · omega

theorem wholePages_lt_iff (pageSize request : Nat) (page : 0 < pageSize) :
    wholePages pageSize request < Word.base ↔ request ≤ (Word.base - 1) / pageSize * pageSize := by
  obtain ⟨lower, upper⟩ := wholePages_le pageSize request page
  obtain ⟨count, whole⟩ : pageSize ∣ wholePages pageSize request := Nat.dvd_mul_right _ _
  have positive : 0 < Word.base := by decide
  have most := Nat.div_mul_le_self (Word.base - 1) pageSize
  rw [whole] at lower upper ⊢
  constructor
  · intro fits
    have counted : count ≤ (Word.base - 1) / pageSize := by
      rw [Nat.le_div_iff_mul_le page, Nat.mul_comm]
      omega
    have product := Nat.mul_le_mul_left pageSize counted
    rw [Nat.mul_comm pageSize (_ / _)] at product
    omega
  · intro within
    have less : pageSize * count < pageSize * ((Word.base - 1) / pageSize + 1) := by
      rw [Nat.mul_succ, Nat.mul_comm pageSize (_ / _)]
      omega
    have counted := Nat.lt_of_mul_lt_mul_left less
    have product := Nat.mul_le_mul_left pageSize (Nat.le_of_lt_succ counted)
    rw [Nat.mul_comm pageSize (_ / _)] at product
    omega

theorem checkWindow_nonzero (pageSize request : Nat) (nonzero : request ≠ 0) :
    checkWindow pageSize request = .ok (wholePages pageSize request % Word.base) := by
  simp only [checkWindow, nonzero, if_false, wholePages]

theorem checkWindow_lt (pageSize request window : Nat) (rounded : checkWindow pageSize request = .ok window) :
    window < Word.base := by
  have wide : 2 ^ 31 < Word.base := by decide
  by_cases zero : request = 0
  · subst zero
    simp only [checkWindow, if_true] at rounded
    split at rounded
    · cases rounded
      omega
    · cases rounded
  · rw [checkWindow_nonzero pageSize request zero] at rounded
    cases rounded
    exact Nat.mod_lt _ (by decide)

def Granted (pageSize request : Nat) : Prop :=
  if request = 0 then 10 * pageSize < 2 ^ 31 else request ≤ (Word.base - 1) / pageSize * pageSize

instance (pageSize request : Nat) : Decidable (Granted pageSize request) := by
  unfold Granted
  infer_instance

theorem usable_iff (pageSize request : Nat) (page : 0 < pageSize) (word : request < Word.base) :
    (∃ window, checkWindow pageSize request = .ok window ∧ Usable pageSize request window) ↔
      Granted pageSize request := by
  unfold Granted
  split
  · next zero =>
      subst zero
      simp only [checkWindow, if_true]
      split
      · next fits =>
          refine iff_of_true ⟨10 * pageSize, rfl, ⟨by omega, Nat.dvd_mul_left _ _, by simp⟩⟩ fits
      · next overflow =>
          refine iff_of_false ?_ overflow
          rintro ⟨window, wrong, _⟩
          cases wrong
  · next nonzero =>
      obtain ⟨lower, upper⟩ := wholePages_le pageSize request page
      rw [checkWindow_nonzero pageSize request nonzero, ← wholePages_lt_iff pageSize request page]
      constructor
      · rintro ⟨window, same, usable⟩
        cases same
        by_contra beyond
        -- what is left after the sum wrapped is less than a page
        have wrapped : wholePages pageSize request % Word.base ≤ wholePages pageSize request - Word.base := by
          rw [Nat.mod_eq_sub_mod (Nat.le_of_not_lt beyond)]
          exact Nat.mod_le _ _
        have least := Nat.le_of_dvd usable.positive usable.aligned
        omega
      · intro fits
        rw [Nat.mod_eq_of_lt fits]
        exact ⟨_, rfl, ⟨by omega, Nat.dvd_mul_right _ _, fun _ => lower⟩⟩

end MMapFile

/-- A request leaves a window of whole pages, at least as large as the request, and a buffer
that never divides by zero, exactly if it can be rounded up to a word. -/
theorem FileBuffer.window_usable_iff (pageSize request : Nat) (page : 0 < pageSize)
    (word : request < Word.base) :
    (∃ window, MMapFile.checkWindow pageSize request = .ok window ∧ MMapFile.Usable pageSize request window ∧
      ∀ content filename wide, content.length < Word.base →
        ∃ buffer, create content filename request pageSize wide = .ok buffer ∧ buffer.Inv ∧
          ∀ divisor ∈ buffer.divisors, divisor = window) ↔
      MMapFile.Granted pageSize request := by
  rw [← MMapFile.usable_iff pageSize request page word]
  constructor
  · rintro ⟨window, rounded, usable, _⟩
    exact ⟨window, rounded, usable⟩
  · rintro ⟨window, rounded, usable⟩
    refine ⟨window, rounded, usable, ?_⟩
    intro content filename wide fits
    have bound := MMapFile.checkWindow_lt pageSize request window rounded
    obtain ⟨file, made, invariant, _, kept⟩ := MMapFile.create_rounded content request window pageSize fits page
      rounded usable.positive usable.aligned bound
    refine ⟨⟨file, filename, file.window, wide⟩, ?_, ⟨invariant, rfl⟩, ?_⟩
    · simp only [create, made, ok_bind]
    · simp [divisors, kept]

theorem FileBuffer.window_usable_iff_million :
    ∃ window, MMapFile.checkWindow 4096 1000000 = .ok window ∧ MMapFile.Usable 4096 1000000 window ∧
      ∀ content filename wide, content.length < Word.base →
        ∃ buffer, create content filename 1000000 4096 wide = .ok buffer ∧ buffer.Inv ∧
          ∀ divisor ∈ buffer.divisors, divisor = window :=
  (window_usable_iff 4096 1000000 (by decide) (by decide)).mpr (by decide +kernel)

theorem FileBuffer.window_empty :
    toWord (-1) = 2 ^ 64 - 1 ∧ MMapFile.checkWindow 4096 (toWord (-1)) = .ok 0 ∧
      ¬MMapFile.Usable 4096 (toWord (-1)) 0 := by
  refine ⟨by decide +kernel, by decide +kernel, ?_⟩
  intro usable
  exact absurd usable.positive (by decide)

end FastcgiContainer
