import Mathlib.Init

/-! Two runs of one computation in different environments, compared step by step. -/

namespace FastcgiContainer.TwoRuns

variable {Env Error α β : Type}

/-- Both runs return one value, of which a condition holds. -/
def Agree (first second : Env) (run : Env → Except Error α) (post : α → Prop) : Prop :=
  ∃ value, run first = .ok value ∧ run second = .ok value ∧ post value

variable {first second : Env} {run : Env → Except Error α} {post : α → Prop}

theorem Agree.pure {value : α} (holds : post value) :
    Agree first second (fun _ : Env => (.ok value : Except Error α)) post :=
  ⟨value, rfl, rfl, holds⟩

theorem Agree.bind {next : Env → α → Except Error β} {final : β → Prop} (agree : Agree first second run post)
    (later : ∀ value, post value → Agree first second (fun env => next env value) final) :
    Agree first second (fun env => run env >>= next env) final := by
  obtain ⟨value, here, there, holds⟩ := agree
  obtain ⟨result, done, again, ends⟩ := later value holds
  refine ⟨result, ?_, ?_, ends⟩
  · simp only [here]
    exact done
  · simp only [there]
    exact again

theorem Agree.mono {weaker : α → Prop} (agree : Agree first second run post)
    (implies : ∀ value, post value → weaker value) : Agree first second run weaker := by
  obtain ⟨value, here, there, holds⟩ := agree
  exact ⟨value, here, there, implies value holds⟩

theorem Agree.known (agree : Agree first second run post) :
    Agree first second run (fun value => post value ∧ run first = .ok value) := by
  obtain ⟨value, here, there, holds⟩ := agree
  exact ⟨value, here, there, holds, here⟩

theorem Agree.branch {test : Prop} [Decidable test] {other : Env → Except Error α}
    (yes : test → Agree first second run post) (no : ¬test → Agree first second other post) :
    Agree first second (fun env => if test then run env else other env) post := by
  by_cases holds : test
  · simpa only [if_pos holds] using yes holds
  · simpa only [if_neg holds] using no holds

end FastcgiContainer.TwoRuns
