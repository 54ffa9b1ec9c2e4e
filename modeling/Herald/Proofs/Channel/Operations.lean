import Herald.Channel.Fault
import Herald.Proofs.Channel.Backlog

/-!
What is done with topics, one operation after another, and what each operation does to one of the
subscriptions. Subscriptions have the numbers in which they were made as their keys.
-/

namespace Herald.Channel

inductive Operation
  | subscribe (topic : String)
  | abort (key : Nat)
  | publish (topic : String) (event : Event)
  /-- Lets a subscription run until it is idle. -/
  | turn (key : Nat)

inductive Reply
  | subscribed (key : Nat)
  | aborted
  | published (result : Except Fault Unit)
  /-- The events that the handler of a subscription is called with. -/
  | received (events : List Event)

def Reply.events : Reply → List Event
  | .received events => events
  | _ => []

namespace Operation

def isSubscribe : Operation → Bool
  | .subscribe _ => true
  | _ => false

def isAbort (key : Nat) : Operation → Bool
  | .abort other => other = key
  | _ => false

def isTurn (key : Nat) : Operation → Bool
  | .turn other => other = key
  | _ => false

def event? (topic : String) : Operation → Option Event
  | .publish other event => if other = topic then some event else none
  | _ => none

/-- How many subscriptions are made, which is the key of the next one. -/
def subscribed (operations : List Operation) : Nat := operations.countP isSubscribe

def eventsTo (topic : String) (operations : List Operation) : List Event :=
  operations.filterMap (event? topic)

/-- The operation as it is when there is one subscription alone, which has the key zero then. -/
def alone? (key : Nat) : Operation → Option Operation
  | .subscribe _ => none
  | .abort other => if other = key then some (.abort 0) else none
  | .publish topic event => some (.publish topic event)
  | .turn other => if other = key then some (.turn 0) else none

end Operation

namespace Subscription

theorem key_emptied (key : Nat) (subscription : Subscription) :
    (if subscription.key = key then { subscription with waiting := [] } else subscription).key =
      subscription.key := by
  split
  · rfl
  · rfl

end Subscription

namespace Topics

def step (topics : Topics) : Operation → Topics × Reply
  | .subscribe topic =>
    let (topics, key) := topics.subscribe topic
    (topics, .subscribed key)
  | .abort key => (topics.abort key, .aborted)
  | .publish topic event => (topics.publish topic event, .published (.ok ()))
  | .turn key =>
    let (topics, events) := topics.drain key
    (topics, .received events)

def after (topics : Topics) (operations : List Operation) : Topics :=
  operations.foldl (fun topics operation => (topics.step operation).1) topics

def replies : Topics → List Operation → List Reply
  | _, [] => []
  | topics, operation :: rest =>
    (topics.step operation).2 :: (topics.step operation).1.replies rest

/-- All events that the handler of a subscription is called with. -/
def receivedBy (key : Nat) : Topics → List Operation → List Event
  | _, [] => []
  | topics, operation :: rest =>
    (if operation.isTurn key then (topics.step operation).2.events else [])
      ++ receivedBy key (topics.step operation).1 rest

def subscription? (topics : Topics) (key : Nat) : Option Subscription :=
  topics.subscriptions.find? (·.key = key)

/-- Keys are those of subscriptions that were made. -/
def Numbered (topics : Topics) : Prop :=
  ∀ subscription ∈ topics.subscriptions, subscription.key < topics.made

variable {topics : Topics} {key : Nat} {operation : Operation}

@[simp] theorem after_nil (topics : Topics) : topics.after [] = topics := rfl

@[simp] theorem after_cons (topics : Topics) (operation : Operation) (rest : List Operation) :
    topics.after (operation :: rest) = (topics.step operation).1.after rest := rfl

@[simp] theorem after_append (topics : Topics) (before since : List Operation) :
    topics.after (before ++ since) = (topics.after before).after since :=
  List.foldl_append

/-! The number of subscriptions. -/

theorem made_step (topics : Topics) (operation : Operation) :
    (topics.step operation).1.made = topics.made + Operation.subscribed [operation] := by
  cases operation with
  | subscribe topic => rfl
  | abort key => rfl
  | publish topic event => rfl
  | turn key => rfl

theorem made_after (topics : Topics) (operations : List Operation) :
    (topics.after operations).made = topics.made + Operation.subscribed operations := by
  induction operations generalizing topics with
  | nil => rfl
  | cons operation rest ih =>
      rw [after_cons, ih, made_step, Nat.add_assoc, Operation.subscribed, Operation.subscribed,
        ← List.countP_append]
      rfl

theorem numbered_withHistoryLimit (limit : Nat) : (withHistoryLimit limit).Numbered := nofun

theorem Numbered.step (hnumbered : topics.Numbered) (operation : Operation) :
    (topics.step operation).1.Numbered := by
  cases operation with
  | subscribe topic =>
      intro subscription hmem
      rcases List.mem_append.mp hmem with hearlier | hnew
      · exact Nat.lt_succ_of_lt (hnumbered subscription hearlier)
      · rw [List.mem_singleton.mp hnew]
        exact Nat.lt_succ_self _
  | abort key => exact fun subscription hmem => hnumbered subscription (List.mem_filter.mp hmem).1
  | publish topic event =>
      intro subscription hmem
      obtain ⟨earlier, hearlier, rfl⟩ := List.mem_map.mp hmem
      exact (Subscription.key_offer ..).symm ▸ hnumbered earlier hearlier
  | turn key =>
      intro subscription hmem
      obtain ⟨earlier, hearlier, rfl⟩ := List.mem_map.mp hmem
      exact (Subscription.key_emptied ..).symm ▸ hnumbered earlier hearlier

theorem Numbered.after (hnumbered : topics.Numbered) (operations : List Operation) :
    (topics.after operations).Numbered := by
  induction operations generalizing topics with
  | nil => exact hnumbered
  | cons operation rest ih => exact ih (hnumbered.step operation)

/-! One subscription. -/

theorem reply_turn (topics : Topics) (key : Nat) :
    (topics.step (.turn key)).2 =
      .received (received (((topics.subscription? key).map Subscription.waiting).getD [])) := by
  unfold step drain
  cases hfound : topics.subscription? key with
  | none =>
      unfold subscription? at hfound
      simp [hfound, received]
  | some subscription =>
      unfold subscription? at hfound
      simp [hfound]

/-- What an operation does to the subscription with a key. -/
def effect (key : Nat) (subscription : Subscription) : Operation → Option Subscription
  | .subscribe _ => some subscription
  | .abort other => if other = key then none else some subscription
  | .publish topic event => some (subscription.offer topic event.encode)
  | .turn other => some (if other = key then { subscription with waiting := [] } else subscription)

theorem key_of_subscription? {subscription : Subscription}
    (hfound : topics.subscription? key = some subscription) : subscription.key = key := by
  have hkey := List.find?_some hfound
  exact of_decide_eq_true hkey

theorem subscription?_of_made_le (hnumbered : topics.Numbered) (hkey : topics.made ≤ key) :
    topics.subscription? key = none := by
  apply List.find?_eq_none.mpr
  intro subscription hmem hfound
  have hlt := hnumbered subscription hmem
  have heq : subscription.key = key := of_decide_eq_true hfound
  omega

/-- The new subscription has a key that no other one has. -/
theorem subscription?_subscribe (hnumbered : topics.Numbered) (topic : String) :
    (topics.step (.subscribe topic)).1.subscription? topics.made =
      some ⟨topics.made, topic, []⟩ := by
  have hnone := subscription?_of_made_le hnumbered (Nat.le_refl topics.made)
  unfold subscription? at hnone ⊢
  simp only [step, subscribe, List.find?_append, hnone]
  simp

/-- A change of subscriptions that keeps their keys is a change of the one with a key. -/
theorem find?_map_of_key {change : Subscription → Subscription}
    (hkey : ∀ subscription, (change subscription).key = subscription.key)
    (subscriptions : List Subscription) :
    (subscriptions.map change).find? (·.key = key) =
      (subscriptions.find? (·.key = key)).map change := by
  rw [List.find?_map]
  congr 2
  funext subscription
  exact congrArg (fun other => decide (other = key)) (hkey subscription)

/-- Operations act on a subscription by itself, whatever the others are. -/
theorem subscription?_step (hkey : key < topics.made) (operation : Operation) :
    (topics.step operation).1.subscription? key =
      (topics.subscription? key).bind fun subscription => effect key subscription operation := by
  cases operation with
  | subscribe topic =>
      have hnew : topics.made ≠ key := Nat.ne_of_gt hkey
      simp [step, subscribe, subscription?, effect, List.find?_append, hnew]
  | abort other =>
      by_cases hother : other = key
      · simp [step, abort, subscription?, effect, List.find?_filter, hother]
      · have hsame : ∀ subscription : Subscription,
            (subscription.key ≠ other ∧ subscription.key = key) ↔ subscription.key = key := by
          intro subscription
          constructor
          · exact And.right
          · rintro rfl
            exact ⟨Ne.symm hother, rfl⟩
        simp [step, abort, subscription?, effect, List.find?_filter, hother, hsame]
  | publish topic event =>
      refine (find?_map_of_key (Subscription.key_offer topic event.encode) _).trans ?_
      exact Option.map_eq_bind
  | turn other =>
      refine (find?_map_of_key (Subscription.key_emptied other) _).trans ?_
      change (topics.subscription? key).map _ = _
      cases hfound : topics.subscription? key with
      | none => rfl
      | some subscription =>
          rw [Option.map_some, Option.bind_some, effect, key_of_subscription? hfound]
          simp only [eq_comm]

end Topics

end Herald.Channel
