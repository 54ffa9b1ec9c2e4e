/-!
Results as options: which value is there when the fault is forgotten. What a sequence of steps results
in came through all of them.
-/

namespace Except

variable {ε α β : Type}

theorem toOption_eq_some_iff {result : Except ε α} {value : α} :
    result.toOption = some value ↔ result = .ok value := by
  cases result with
  | ok found => simp [Except.toOption]
  | error fault => simp [Except.toOption]

theorem bind_eq_ok_iff {first : Except ε α} {next : α → Except ε β} {result : β} :
    (first >>= next) = .ok result ↔ ∃ value, first = .ok value ∧ next value = .ok result := by
  cases first with
  | ok value => simp [bind, Except.bind]
  | error fault => simp [bind, Except.bind]

end Except
