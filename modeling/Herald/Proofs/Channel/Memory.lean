import Herald.Proofs.Channel.Operations

/-!
What topics remember. A publish goes behind the remembered ones, and the oldest of these is let go once
there are as many as the limit. From the start on this keeps the latest publishes, however many there
are and whoever subscribes in between.
-/

namespace Herald.Channel

variable {α : Type} {limit : Nat}

theorem remembering_of_lt {items : List α} (hlength : items.length < limit) (item : α) :
    remembering limit items item = items ++ [item] := by
  rw [remembering, if_pos (Nat.zero_lt_of_lt hlength), if_neg (Nat.ne_of_lt hlength)]

theorem remembering_of_full {items : List α} (hlimit : 0 < limit) (hlength : items.length = limit)
    (item : α) : remembering limit items item = items.drop 1 ++ [item] := by
  rw [remembering, if_pos hlimit, if_pos hlength]

/--
The limit is looked at only for whether it is reached. It is never passed, so that this leaves the
latest items.
-/
theorem remembering_latest (limit : Nat) (items : List α) (item : α) :
    remembering limit (latest limit items) item = latest limit (items ++ [item]) := by
  have hkept := length_latest limit items
  obtain rfl | hlimit := Nat.eq_zero_or_pos limit
  · simp [remembering, latest]
  obtain hroom | hfull := Nat.lt_or_ge items.length limit
  · have hall : latest limit items = items := by
      rw [latest, Nat.sub_eq_zero_of_le (Nat.le_of_lt hroom), List.drop_zero]
    rw [hall, remembering_of_lt hroom, latest, List.length_append, List.length_singleton,
      Nat.sub_eq_zero_of_le hroom, List.drop_zero]
  · rw [Nat.min_eq_right hfull] at hkept
    have hplaces : items.length - limit + 1 = (items ++ [item]).length - limit := by
      rw [List.length_append, List.length_singleton]
      omega
    rw [remembering_of_full hlimit hkept, latest, List.drop_drop, latest, ← hplaces,
      List.drop_append_of_le_length (by omega)]

namespace Operation

def publish? : Operation → Option (String × Event)
  | .publish topic event => some (topic, event)
  | _ => none

/-- What is published, and where to. -/
def publishes (operations : List Operation) : List (String × Event) :=
  operations.filterMap publish?

end Operation

namespace Topics

variable {topics : Topics} {published : List (String × Event)}

theorem historyLimit_step (topics : Topics) (operation : Operation) :
    (topics.step operation).1.historyLimit = topics.historyLimit := by
  cases operation with
  | subscribe topic => rfl
  | abort key => rfl
  | publish topic event => rfl
  | turn key => rfl

/-- An operation adds to the latest publishes what it publishes. -/
theorem history_step (hhistory : topics.history = latest topics.historyLimit published)
    (operation : Operation) :
    (topics.step operation).1.history =
      latest topics.historyLimit (published ++ Operation.publishes [operation]) := by
  have hquiet : topics.history = latest topics.historyLimit (published ++ []) := by
    rw [List.append_nil, hhistory]
  cases operation with
  | subscribe topic => exact hquiet
  | abort key => exact hquiet
  | turn key => exact hquiet
  | publish topic event =>
      change remembering topics.historyLimit topics.history (topic, event) = _
      rw [hhistory, remembering_latest]
      rfl

theorem history_after (hhistory : topics.history = latest topics.historyLimit published)
    (operations : List Operation) :
    (topics.after operations).history =
      latest topics.historyLimit (published ++ Operation.publishes operations) := by
  induction operations generalizing topics published with
  | nil => rw [after_nil, hhistory, Operation.publishes, List.filterMap_nil, List.append_nil]
  | cons operation rest ih =>
      have hstep := history_step hhistory operation
      rw [← historyLimit_step topics operation] at hstep
      rw [after_cons, ih hstep, historyLimit_step, List.append_assoc, Operation.publishes,
        Operation.publishes, Operation.publishes, ← List.filterMap_append, List.singleton_append]

/-- What topics remember of their operations is the end of what these published. -/
theorem history_after_start (limit : Nat) (operations : List Operation) :
    ((withHistoryLimit limit).after operations).history =
      latest limit (Operation.publishes operations) := by
  have hstart : (withHistoryLimit limit).history = latest limit [] := List.drop_nil.symm
  exact history_after hstart operations

/--
Topics remember the latest publishes in the order in which they were made, as many as the limit allows,
and of one topic those among them that were published to it. Subscriptions have no part in it, neither
by being there nor by what they have not received yet: other operations with the same publishes leave
the same to be remembered.
-/
theorem latest_publishes_are_remembered (limit : Nat) (operations : List Operation) :
    let topics := (withHistoryLimit limit).after operations
    let publishes := Operation.publishes operations
    (∃ remembered, remembered <:+ publishes ∧
      remembered.length = min limit publishes.length ∧
      topics.published = remembered.map (·.2) ∧
      ∀ topic, topics.publishedTo topic =
        (remembered.filter fun publish => publish.1 = topic).map (·.2)) ∧
    topics.history.length ≤ limit ∧
    ∀ others, Operation.publishes others = publishes →
      ((withHistoryLimit limit).after others).published = topics.published ∧
      ∀ topic, ((withHistoryLimit limit).after others).publishedTo topic =
        topics.publishedTo topic := by
  intro topics publishes
  have hhistory : topics.history = latest limit publishes := history_after_start limit operations
  refine ⟨⟨topics.history, ?_, ?_, rfl, fun _ => rfl⟩, ?_, fun others hothers => ?_⟩
  · rw [hhistory]
    exact List.drop_suffix ..
  · rw [hhistory, length_latest, Nat.min_comm]
  · rw [hhistory, length_latest]
    exact Nat.min_le_right ..
  · have hsame : ((withHistoryLimit limit).after others).history = topics.history := by
      rw [hhistory, history_after_start, hothers]
    refine ⟨?_, fun topic => ?_⟩
    · rw [published, published, hsame]
    · rw [publishedTo, publishedTo, hsame]

end Topics

end Herald.Channel
