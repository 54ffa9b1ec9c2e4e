/-!
Splitting at a separator. Every separator ends an item, so that `n` separators make `n + 1` items,
some of which may be empty.
-/

namespace Herald.Text

def split {α : Type} [DecidableEq α] (separator : α) : List α → List (List α)
  | [] => [[]]
  | item :: rest =>
    if item = separator then [] :: split separator rest
    else
      match split separator rest with
      | [] => [[item]]
      | first :: others => (item :: first) :: others

def splitOnce {α : Type} [DecidableEq α] (separator : α) : List α → List α × Option (List α)
  | [] => ([], none)
  | item :: rest =>
    if item = separator then ([], some rest)
    else
      let (before, after) := splitOnce separator rest
      (item :: before, after)

def join {α : Type} (separator : α) : List (List α) → List α
  | [] => []
  | [item] => item
  | item :: rest => item ++ separator :: join separator rest

theorem split_ne_nil {α : Type} [DecidableEq α] (separator : α) (items : List α) :
    split separator items ≠ [] := by
  cases items with
  | nil => simp [split]
  | cons item rest =>
    unfold split
    split
    · simp
    · split <;> simp

theorem join_split {α : Type} [DecidableEq α] (separator : α) (items : List α) :
    join separator (split separator items) = items := by
  induction items with
  | nil => rfl
  | cons item rest hypothesis =>
    unfold split
    have present := split_ne_nil separator rest
    cases shape : split separator rest with
    | nil => exact absurd shape present
    | cons first others =>
      rw [shape] at hypothesis
      by_cases same : item = separator
      · rw [if_pos same]
        simp [join, same, hypothesis]
      · rw [if_neg same]
        cases others with
        | nil => simpa [join] using hypothesis
        | cons second more => simpa [join] using hypothesis

end Herald.Text
