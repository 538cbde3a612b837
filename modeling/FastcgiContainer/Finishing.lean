import Mathlib.Init

/-! A postcondition for computations that may fail: a failure is an answer as well,
as long as it is none of those that stand for a computation that got stuck. -/

namespace FastcgiContainer

def Finishes {Error α : Type} (stuck : Error → Prop) (post : α → Prop) : Except Error α → Prop
  | .error failure => ¬ stuck failure
  | .ok value => post value

namespace Finishes

variable {Error α β : Type} {stuck : Error → Prop} {post : α → Prop} {run : Except Error α}

theorem mono {weaker : α → Prop} (finishes : Finishes stuck post run)
    (implies : ∀ value, post value → weaker value) : Finishes stuck weaker run := by
  cases run with
  | error failure => exact finishes
  | ok value => exact implies value finishes

theorem bind {next : α → Except Error β} {final : β → Prop} (finishes : Finishes stuck post run)
    (later : ∀ value, post value → Finishes stuck final (next value)) :
    Finishes stuck final (run >>= next) := by
  cases run with
  | error failure => exact finishes
  | ok value => exact later value finishes

theorem branch {test : Prop} [Decidable test] {other : Except Error α}
    (yes : test → Finishes stuck post run) (no : ¬test → Finishes stuck post other) :
    Finishes stuck post (if test then run else other) := by
  by_cases holds : test
  · simpa only [if_pos holds] using yes holds
  · simpa only [if_neg holds] using no holds

theorem ne_error (finishes : Finishes stuck post run) {failure : Error} (bad : stuck failure) :
    run ≠ .error failure := by
  rintro rfl
  exact finishes bad

end Finishes

end FastcgiContainer
