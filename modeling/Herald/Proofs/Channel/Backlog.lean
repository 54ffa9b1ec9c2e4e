import Herald.Channel.Topics
import Herald.Proofs.Event.RoundTrip

/-!
What waits for a subscription: the latest of the payloads it was offered, from which its handler gets
the events that were published.
-/

namespace Herald

namespace Event

theorem toOption_decode_encode (event : Event) : (decode event.encode).toOption = some event := by
  have hread := whole_of_reads (reads_event 126 event)
  rw [decode, show Json.nestingLimit = 126 + 1 from rfl, hread]
  rfl

end Event

namespace Channel

theorem Topics.received_map_encode (events : List Event) :
    received (events.map Event.encode) = events := by
  rw [received, List.filterMap_map]
  simp only [Function.comp_def, Event.toOption_decode_encode, List.filterMap_some]

/-! The latest of some items. -/

variable {α β : Type}

theorem latest_map (limit : Nat) (items : List α) (write : α → β) :
    latest limit (items.map write) = (latest limit items).map write := by
  rw [latest, latest, List.length_map, List.map_drop]

theorem latest_sublist (limit : Nat) (items : List α) : (latest limit items).Sublist items :=
  List.drop_sublist ..

theorem length_latest (limit : Nat) (items : List α) :
    (latest limit items).length = min items.length limit := by
  rw [latest, List.length_drop]
  omega

/-- Leaving out the oldest items early or late comes to the same. -/
theorem latest_latest_append (limit : Nat) (items later : List α) :
    latest limit (latest limit items ++ later) = latest limit (items ++ later) := by
  have hitems : items.length - limit ≤ items.length := Nat.sub_le ..
  have hkept : latest limit items ++ later = (items ++ later).drop (items.length - limit) := by
    rw [latest, List.drop_append_of_le_length hitems]
  rw [hkept, latest, latest, List.drop_drop, List.length_drop, List.length_append]
  congr 1
  omega

/-! Offers to a subscription. -/

namespace Subscription

@[simp] theorem key_offer (topic payload : String) (subscription : Subscription) :
    (subscription.offer topic payload).key = subscription.key := by
  unfold offer
  split
  · rfl
  · rfl

@[simp] theorem topic_offer (topic payload : String) (subscription : Subscription) :
    (subscription.offer topic payload).topic = subscription.topic := by
  unfold offer
  split
  · rfl
  · rfl

theorem offer_of_topic (subscription : Subscription) (payload : String) :
    subscription.offer subscription.topic payload =
      { subscription with waiting := latest capacity (subscription.waiting ++ [payload]) } :=
  if_pos rfl

theorem offer_of_ne {subscription : Subscription} {topic : String}
    (htopic : subscription.topic ≠ topic) (payload : String) :
    subscription.offer topic payload = subscription :=
  if_neg htopic

end Subscription

end Channel

end Herald
