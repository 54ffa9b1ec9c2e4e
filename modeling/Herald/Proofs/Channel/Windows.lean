import Herald.Proofs.Channel.Rings
import Mathlib.Data.List.DropRight
import Mathlib.Data.List.Induction

/-!
What subscribers see. Whenever a subscription has its turn, its handler is called with the latest of the
events that were published to its topic since it was made or had its last turn.
-/

namespace Herald.Channel

namespace Operation

variable {topic : String} {operation : Operation}

@[simp] theorem eventsTo_nil (topic : String) : eventsTo topic [] = [] := rfl

@[simp] theorem eventsTo_append (topic : String) (before since : List Operation) :
    eventsTo topic (before ++ since) = eventsTo topic before ++ eventsTo topic since :=
  List.filterMap_append

theorem eventsTo_cons (topic : String) (operation : Operation) (rest : List Operation) :
    eventsTo topic (operation :: rest) = (operation.event? topic).toList ++ eventsTo topic rest := by
  cases hevent : operation.event? topic with
  | none => simp [eventsTo, hevent]
  | some event => simp [eventsTo, hevent]

end Operation

namespace Topics

open Operation (subscribed eventsTo eventsTo_cons)

variable {topics : Topics} {key : Nat} {topic : String} {subscription : Subscription}

/-! What waits for a subscription. -/

/-- What waits for a subscription that has not been aborted, after some operations. -/
theorem subscription?_after (hkey : key < topics.made)
    (hmade : topics.subscription? key = some ⟨key, topic, []⟩) (since : List Operation) :
    (topics.after since).subscription? key =
      if since.any (Operation.isAbort key) then none
      else some ⟨key, topic, latest Subscription.capacity
        ((eventsTo topic (since.rtakeWhile (!·.isTurn key))).map Event.encode)⟩ := by
  induction since using List.reverseRecOn with
  | nil =>
      rw [after_nil, hmade]
      simp [latest]
  | append_singleton since operation ih =>
      have hlater : key < (topics.after since).made :=
        (topics.made_after since).symm ▸ Nat.lt_add_right _ hkey
      rw [after_append, after_cons, after_nil, subscription?_step hlater, ih, List.any_append,
        List.rtakeWhile_concat]
      cases haborted : since.any (Operation.isAbort key) with
      | true => simp
      | false =>
          generalize since.rtakeWhile (!·.isTurn key) = window
          cases operation with
          | subscribe other =>
              simp [effect, Operation.isAbort, Operation.isTurn, eventsTo_cons, Operation.event?]
          | abort other =>
              simp [effect, Operation.isAbort, Operation.isTurn, eventsTo_cons, Operation.event?]
          | publish other event =>
              by_cases hother : other = topic
              · subst hother
                simp [effect, Operation.isAbort, Operation.isTurn, eventsTo_cons, Operation.event?,
                  Subscription.offer, latest_latest_append]
              · simp [effect, Operation.isAbort, Operation.isTurn, eventsTo_cons, Operation.event?,
                  Subscription.offer, hother, Ne.symm hother]
          | turn other =>
              by_cases hother : other = key
              · simp [effect, Operation.isAbort, Operation.isTurn, latest, hother]
              · simp [effect, Operation.isAbort, Operation.isTurn, eventsTo_cons, Operation.event?,
                  hother]

/-! All that a subscription receives. -/

theorem receivedBy_append (key : Nat) (topics : Topics) (before since : List Operation) :
    receivedBy key topics (before ++ since) =
      receivedBy key topics before ++ receivedBy key (topics.after before) since := by
  induction before generalizing topics with
  | nil => rfl
  | cons operation rest ih => simp only [List.cons_append, receivedBy, ih, List.append_assoc, after_cons]

theorem events_turn (topics : Topics) (key : Nat) :
    (topics.step (.turn key)).2.events =
      received (((topics.subscription? key).map Subscription.waiting).getD []) :=
  congrArg Reply.events (topics.reply_turn key)

/-- An operation that is no turn of a subscription gives it nothing. -/
theorem receivedBy_cons_of_none (hnone : topics.subscription? key = none) (operation : Operation)
    (rest : List Operation) :
    receivedBy key topics (operation :: rest) = receivedBy key (topics.step operation).1 rest := by
  cases operation with
  | turn other =>
      by_cases hother : other = key
      · subst hother
        rw [receivedBy, events_turn, hnone]
        simp [received]
      · simp [receivedBy, Operation.isTurn, hother]
  | _ => simp [receivedBy, Operation.isTurn]

/-- A subscription that was aborted receives nothing any more. -/
theorem receivedBy_of_aborted (hkey : key < topics.made) (hnone : topics.subscription? key = none)
    (since : List Operation) : receivedBy key topics since = [] := by
  induction since generalizing topics with
  | nil => rfl
  | cons operation rest ih =>
      rw [receivedBy_cons_of_none hnone]
      apply ih
      · exact (topics.made_step operation).symm ▸ Nat.lt_add_right _ hkey
      · rw [subscription?_step hkey, hnone, Option.bind_none]

/-- A subscription receives nothing before it is made. -/
theorem receivedBy_of_unmade {before : List Operation} (hnumbered : topics.Numbered)
    (hkey : topics.made + subscribed before ≤ key) : receivedBy key topics before = [] := by
  induction before generalizing topics with
  | nil => rfl
  | cons operation rest ih =>
      have hcount : subscribed ([operation] ++ rest) = subscribed [operation] + subscribed rest :=
        List.countP_append
      rw [List.singleton_append] at hcount
      have hnone := subscription?_of_made_le hnumbered (Nat.le_trans (Nat.le_add_right ..) hkey)
      rw [receivedBy_cons_of_none hnone]
      apply ih (hnumbered.step operation)
      rw [made_step]
      omega

theorem received_append (earlier later : List String) :
    received (earlier ++ later) = received earlier ++ received later :=
  List.filterMap_append

theorem received_offer_sublist (subscription : Subscription) (topic : String) (event : Event) :
    (received (subscription.offer topic event.encode).waiting).Sublist
      (received subscription.waiting ++
        ((Operation.publish topic event).event? subscription.topic).toList) := by
  by_cases htopic : subscription.topic = topic
  · subst htopic
    have hevent : received [event.encode] = [event] := received_map_encode [event]
    rw [Subscription.offer_of_topic, Operation.event?, if_pos rfl, Option.toList_some, ← hevent,
      ← received_append]
    dsimp only
    exact (latest_sublist ..).filterMap _
  · rw [Subscription.offer_of_ne htopic]
    exact List.sublist_append_left ..

/-- What waits for a subscription, and what is published before it is aborted, reaches it at most
once and in order. -/
theorem receivedBy_sublist (hkey : key < topics.made)
    (hfound : topics.subscription? key = some subscription) (since : List Operation) :
    (receivedBy key topics since).Sublist (received subscription.waiting ++
      eventsTo subscription.topic (since.takeWhile (!·.isAbort key))) := by
  induction since generalizing topics subscription with
  | nil => exact List.nil_sublist _
  | cons operation rest ih =>
      have hlater : key < (topics.step operation).1.made :=
        (topics.made_step operation).symm ▸ Nat.lt_add_right _ hkey
      have hstep := subscription?_step hkey operation
      rw [hfound, Option.bind_some] at hstep
      cases operation with
      | subscribe other => exact ih hlater hstep
      | abort other =>
          by_cases hother : other = key
          · rw [effect, if_pos hother] at hstep
            have hnothing := receivedBy_of_aborted hlater hstep rest
            simp [receivedBy, Operation.isTurn, hnothing]
          · rw [effect, if_neg hother] at hstep
            simpa [receivedBy, Operation.isTurn, Operation.isAbort, hother, eventsTo_cons,
              Operation.event?] using ih hlater hstep
      | publish other event =>
          have hwaiting := received_offer_sublist subscription other event
          have hrest := ih hlater hstep
          rw [Subscription.topic_offer] at hrest
          simp only [receivedBy, Operation.isTurn, Operation.isAbort, Bool.false_eq_true, if_false,
            List.nil_append, Bool.not_false, List.takeWhile_cons_of_pos, eventsTo_cons,
            ← List.append_assoc]
          exact hrest.trans (hwaiting.append_right _)
      | turn other =>
          by_cases hother : other = key
          · subst hother
            have hrest := ih hlater hstep
            simp only [if_pos, received, List.filterMap_nil, List.nil_append] at hrest
            simp only [receivedBy, Operation.isTurn, Operation.isAbort, decide_true, if_true,
              events_turn, hfound, Option.map_some, Option.getD_some, Bool.not_false,
              List.takeWhile_cons_of_pos, eventsTo_cons, Operation.event?, Option.toList_none,
              List.nil_append]
            exact hrest.append_left _
          · rw [effect, if_neg hother] at hstep
            simpa [receivedBy, Operation.isTurn, Operation.isAbort, hother, eventsTo_cons,
              Operation.event?] using ih hlater hstep

/-! A subscription by itself. -/

/-- The subscription as it is when there is no other one. -/
def first (subscription : Subscription) : Subscription := { subscription with key := 0 }

/-- An operation either leaves a subscription alone, or does to it what its lonely form does to the
subscription as the only one. -/
theorem alone?_cases (key : Nat) (operation : Operation) :
    (operation.alone? key = none ∧ operation.isTurn key = false ∧
        ∀ subscription, effect key subscription operation = some subscription) ∨
      ∃ lonely, operation.alone? key = some lonely ∧ lonely.isTurn 0 = operation.isTurn key ∧
        ∀ subscription,
          effect 0 (first subscription) lonely = (effect key subscription operation).map first := by
  cases operation with
  | subscribe topic => exact .inl ⟨rfl, rfl, fun _ => rfl⟩
  | abort other =>
      by_cases hother : other = key
      · refine .inr ⟨.abort 0, if_pos hother, rfl, fun subscription => ?_⟩
        simp [effect, hother]
      · exact .inl ⟨if_neg hother, rfl, fun _ => if_neg hother⟩
  | publish topic event =>
      refine .inr ⟨.publish topic event, rfl, rfl, fun subscription => ?_⟩
      by_cases htopic : subscription.topic = topic
      · simp [effect, first, Subscription.offer, htopic]
      · simp [effect, first, Subscription.offer, htopic]
  | turn other =>
      by_cases hother : other = key
      · refine .inr ⟨.turn 0, if_pos hother, (decide_eq_true hother).symm, fun subscription => ?_⟩
        simp [effect, first, hother]
      · refine .inl ⟨if_neg hother, decide_eq_false hother, fun subscription => ?_⟩
        rw [effect, if_neg hother]

theorem events_of_isTurn {operation : Operation} (hturn : operation.isTurn key = true)
    (topics : Topics) :
    (topics.step operation).2.events =
      received (((topics.subscription? key).map Subscription.waiting).getD []) := by
  cases operation with
  | turn other =>
      have hother : other = key := of_decide_eq_true hturn
      rw [hother, events_turn]
  | _ => nomatch hturn

/-- What is done with other subscriptions makes no difference to what a subscription receives. -/
theorem receivedBy_alone {lone : Topics} (hkey : key < topics.made) (hlone : 0 < lone.made)
    (hsame : lone.subscription? 0 = (topics.subscription? key).map first) (since : List Operation) :
    receivedBy key topics since = receivedBy 0 lone (since.filterMap (Operation.alone? key)) := by
  induction since generalizing topics lone with
  | nil => rfl
  | cons operation rest ih =>
      have hlater : key < (topics.step operation).1.made :=
        (topics.made_step operation).symm ▸ Nat.lt_add_right _ hkey
      have hstep := subscription?_step hkey operation
      obtain ⟨halone, hquiet, heffect⟩ | ⟨lonely, halone, hturn, heffect⟩ :=
        alone?_cases key operation
      · rw [List.filterMap_cons_none halone, receivedBy, hquiet]
        apply ih hlater hlone
        simpa [hstep, heffect] using hsame
      · have hlonely : 0 < (lone.step lonely).1.made :=
          (lone.made_step lonely).symm ▸ Nat.lt_add_right _ hlone
        rw [List.filterMap_cons_some halone, receivedBy, receivedBy, hturn]
        congr 1
        · split
          case isTrue hown =>
            rw [events_of_isTurn hown, events_of_isTurn (hturn.trans hown), hsame, Option.map_map]
            rfl
          case isFalse => rfl
        · apply ih hlater hlonely
          rw [subscription?_step hlone, hsame, hstep]
          cases topics.subscription? key with
          | none => rfl
          | some subscription => exact heffect subscription

/-! Runs from the start. -/

variable {limit : Nat}

theorem made_after_start (limit : Nat) (operations : List Operation) :
    ((withHistoryLimit limit).after operations).made = subscribed operations :=
  (made_after ..).trans (Nat.zero_add _)

/-- The subscription that is made after some operations. -/
theorem subscription?_made (limit : Nat) (before : List Operation) (topic : String) :
    ((withHistoryLimit limit).after (before ++ [.subscribe topic])).subscription?
        (subscribed before) = some ⟨subscribed before, topic, []⟩ := by
  have hnumbered := (numbered_withHistoryLimit limit).after before
  have hmade := subscription?_subscribe hnumbered topic
  rw [made_after_start] at hmade
  simpa using hmade

theorem lt_made_after_subscribe (limit : Nat) (before : List Operation) (topic : String) :
    subscribed before < ((withHistoryLimit limit).after (before ++ [.subscribe topic])).made := by
  rw [made_after_start, subscribed, subscribed, List.countP_append]
  exact Nat.lt_succ_self _

theorem receivedBy_since (limit : Nat) (before : List Operation) (topic : String)
    (since : List Operation) :
    receivedBy (subscribed before) (withHistoryLimit limit) (before ++ .subscribe topic :: since) =
      receivedBy (subscribed before)
        ((withHistoryLimit limit).after (before ++ [.subscribe topic])) since := by
  have hnothing := receivedBy_of_unmade (numbered_withHistoryLimit limit)
    (Nat.le_of_eq (Nat.zero_add (subscribed before)))
  rw [receivedBy_append, hnothing, after_append]
  rfl

/--
Publishing always succeeds. A subscription that has its turn receives the latest 1024 of the events
that were published to its topic since it was made or last had a turn, and nothing once it is aborted.
In all it receives events that were published to its topic while it was there, each at most once and
in order, and the same ones whatever is done with other subscriptions. All this is the same when the
subscriptions of a topic share one ring.
-/
theorem subscribers_receive (limit : Nat) :
    let start := withHistoryLimit limit
    (∀ operations topic event,
      ((start.after operations).step (.publish topic event)).2 = .published (.ok ())) ∧
    (∀ operations topic,
      ((start.after operations).step (.subscribe topic)).2 = .subscribed (subscribed operations)) ∧
    (∀ operations later,
      ((start.after operations).step (.turn (subscribed operations + later))).2 = .received []) ∧
    (∀ before topic since,
      let key := subscribed before
      let operations := before ++ .subscribe topic :: since
      ((start.after operations).step (.turn key)).2 =
          .received (if since.any (Operation.isAbort key) then []
            else latest 1024 (eventsTo topic (since.rtakeWhile (!·.isTurn key)))) ∧
        (receivedBy key start operations).Sublist
          (eventsTo topic (since.takeWhile (!·.isAbort key))) ∧
        receivedBy key start operations =
          receivedBy 0 start (.subscribe topic :: since.filterMap (Operation.alone? key))) ∧
    ∀ operations, start.replies operations = Rings.empty.replies operations := by
  intro start
  refine ⟨fun _ _ _ => rfl, ?_, ?_, ?_, ?_⟩
  · intro operations topic
    exact congrArg Reply.subscribed (made_after_start limit operations)
  · intro operations later
    have hnumbered := (numbered_withHistoryLimit limit).after operations
    have hunmade : (start.after operations).made ≤ subscribed operations + later :=
      (made_after_start limit operations).symm ▸ Nat.le_add_right ..
    rw [reply_turn, subscription?_of_made_le hnumbered hunmade]
    rfl
  · intro before topic since key operations
    have hmade := subscription?_made limit before topic
    have hkey := lt_made_after_subscribe limit before topic
    have hsplit : start.after operations =
        (start.after (before ++ [.subscribe topic])).after since := by
      rw [← after_append, List.append_assoc]
      rfl
    refine ⟨?_, ?_, ?_⟩
    · rw [reply_turn, hsplit, subscription?_after hkey hmade]
      split
      · rfl
      · rw [Option.map_some, Option.getD_some, latest_map, received_map_encode]
        rfl
    · rw [receivedBy_since]
      exact receivedBy_sublist hkey hmade since
    · rw [receivedBy_since]
      exact receivedBy_alone hkey Nat.zero_lt_one (hmade ▸ rfl) since
  · exact fun operations => ((Rings.showAs_empty limit).replies operations).symm

end Topics

end Herald.Channel
