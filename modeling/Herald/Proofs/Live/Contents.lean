import Herald.Proofs.Live.MomentSteps
import Mathlib.Data.List.Induction
import Mathlib.Data.List.TakeWhile

/-!
The contents of a subscription over a whole run: the greeting, then every message for the user while
the subscription was the user's connection, up to the first one without room, and the farewell if a
later subscription replaced it in time.
-/

namespace Herald.Live

variable {ledger : Ledger} {subscription : Subscription} {operation : Operation}
  {moments : List Moment} {moment : Moment}

/-! One more moment. -/

namespace Subscription

/-- Nothing that was meant for the subscription was lost or has ended it so far. -/
def IsOpen (subscription : Subscription) (moments : List Moment) : Prop :=
  (∀ moment ∈ moments, (moment.message? subscription).isSome = true →
      moment.isFull subscription = false) ∧
    moments.any (Moment.supersedes subscription) = false

theorem pushed_append (hopen : ∀ moment ∈ moments, (moment.message? subscription).isSome = true →
      moment.isFull subscription = false) (moment : Moment) :
    subscription.pushed (moments ++ [moment]) =
      subscription.pushed moments ++
        if moment.isFull subscription then [] else (moment.message? subscription).toList := by
  have hroom : ∀ moment ∈ moments.filter fun moment => (moment.message? subscription).isSome,
      (!moment.isFull subscription) = true := by
    intro moment hmoment
    obtain ⟨hmem, hsome⟩ := List.mem_filter.mp hmoment
    rw [hopen moment hmem hsome]
    rfl
  rw [pushed, pushed, List.filter_append, List.takeWhile_append_of_pos hroom,
    List.takeWhile_eq_self_iff.mpr hroom, List.filterMap_append]
  congr 1
  cases hmessage : moment.message? subscription with
  | none => simp [hmessage]
  | some message =>
      cases hfull : moment.isFull subscription with
      | true => simp [hmessage, hfull]
      | false => simp [hmessage, hfull]

theorem pushed_append_of_none (hmessage : moment.message? subscription = none) :
    subscription.pushed (moments ++ [moment]) = subscription.pushed moments := by
  have hnone : [moment].filter (fun moment => (moment.message? subscription).isSome) = [] :=
    List.filter_cons_of_neg (by rw [hmessage]; exact Bool.false_ne_true)
  rw [pushed, List.filter_append, hnone, List.append_nil, pushed]

theorem contents_append_of_open (hopen : subscription.IsOpen moments) (moment : Moment) :
    subscription.contents (moments ++ [moment]) =
      subscription.contents moments ++ moment.told subscription := by
  rw [contents, contents, farewell, farewell, hopen.2, pushed_append hopen.1, List.any_append,
    hopen.2]
  simp only [Bool.false_or, List.any_cons, List.any_nil, Bool.or_false, Bool.false_eq_true,
    if_false, List.append_nil, List.cons_append, List.append_assoc]
  rfl

theorem contents_append_of_not_registered (moments : List Moment)
    (hregistered : moment.isRegistered subscription = false) :
    subscription.contents (moments ++ [moment]) = subscription.contents moments ∧
      moment.told subscription = [] := by
  have hmessage : moment.message? subscription = none := by
    rw [Moment.message?, hregistered]
    exact if_neg Bool.false_ne_true
  have hsupersedes : moment.supersedes subscription = false := by
    rw [Moment.supersedes, hregistered, Bool.false_and, Bool.false_and]
  constructor
  · rw [contents, contents, farewell, farewell, pushed_append_of_none hmessage, List.any_append,
      List.any_cons, hsupersedes, List.any_nil, Bool.or_false, Bool.or_false]
  · rw [Moment.told, hmessage, hsupersedes, Option.toList_none, ite_self]
    rfl

end Subscription

/-! What every operation preserves. -/

/-- What has been read of a subscription and what waits on it make up its contents. -/
structure Ledger.Follows (ledger : Ledger) (moments : List Moment) (subscription : Subscription) :
    Prop where
  contents : ∃ queue, ledger.manager.registry.queue? subscription.queue = some queue ∧
    subscription.read moments ++ queue.waiting = subscription.contents moments
  isOpen : ledger.manager.registry.IsConnection subscription.user subscription.id →
    subscription.IsOpen moments

theorem Subscription.read_append (subscription : Subscription) (moments : List Moment)
    (moment : Moment) :
    subscription.read (moments ++ [moment]) =
      subscription.read moments ++ moment.taken subscription := by
  rw [read, List.flatMap_append, List.flatMap_singleton, read]

namespace Ledger

theorem Follows.step (hfollows : ledger.Follows moments subscription)
    (hacts : ledger.Acts operation subscription (ledger.step operation).manager.registry) :
    (ledger.step operation).Follows (moments ++ [⟨ledger, operation⟩]) subscription where
  contents := by
    obtain ⟨queue, hqueue, hcontents⟩ := hfollows.contents
    obtain ⟨queue', hafter, hwaiting⟩ := hacts.contents queue hqueue
    refine ⟨queue', hafter, ?_⟩
    have hread : subscription.read (moments ++ [⟨ledger, operation⟩]) ++ queue'.waiting =
        subscription.contents moments ++ Moment.told subscription ⟨ledger, operation⟩ := by
      rw [Subscription.read_append, List.append_assoc, Moment.taken, hwaiting, ← hcontents,
        List.append_assoc]
    rw [hread]
    by_cases hregistered :
        ledger.manager.registry.IsConnection subscription.user subscription.id
    · exact (Subscription.contents_append_of_open (hfollows.isOpen hregistered) _).symm
    · have hnone : Moment.isRegistered subscription ⟨ledger, operation⟩ = false :=
        decide_eq_false hregistered
      obtain ⟨hsame, htold⟩ := Subscription.contents_append_of_not_registered moments hnone
      rw [hsame, htold, List.append_nil]
  isOpen := by
    intro hafter
    obtain ⟨hregistered, hroom, hsubscribes⟩ := hacts.registered hafter
    obtain ⟨hopen, hnone⟩ := hfollows.isOpen hregistered
    constructor
    · intro moment hmoment hsome
      rcases List.mem_append.mp hmoment with hearlier | hlast
      · exact hopen moment hearlier hsome
      · rw [List.mem_singleton.mp hlast] at hsome ⊢
        exact hroom hsome
    · rw [List.any_append, hnone, List.any_cons, Moment.supersedes, hsubscribes, Bool.and_false,
        Bool.false_and]
      rfl

/-! Subscriptions come one by one and stay. -/

theorem subscriptions_map {change : Holding → Holding} (manager : Manager)
    (hchange : ∀ holding, (change holding).subscription = holding.subscription) :
    subscriptions ⟨manager, ledger.holdings.map change⟩ = ledger.subscriptions := by
  rw [subscriptions, List.map_map]
  exact List.map_congr_left fun holding _ => hchange holding

theorem subscriptions_drop (ledger : Ledger) (holding : Holding) :
    (ledger.drop holding).subscriptions = ledger.subscriptions := by
  rw [Ledger.drop]
  split
  · rfl
  · exact subscriptions_map _ (Holding.subscription_dropping _)

theorem subscriptions_settle (ledger : Ledger) (holding : Holding) (isEnded : Bool) :
    (ledger.settle holding isEnded).subscriptions = ledger.subscriptions := by
  rw [Ledger.settle]
  split
  · exact subscriptions_drop ledger holding
  · rfl

theorem subscriptions_subscribe (hinv : ledger.Inv) (user : Identifier) :
    (ledger.step (.subscribe user)).subscriptions =
      ledger.manager.nextSubscription user :: ledger.subscriptions := by
  rw [Ledger.step, subscribe_eq hinv, subscriptions, List.map_cons]
  congr 1
  exact subscriptions_map ledger.manager (Holding.subscription_noting _ _)

theorem subscriptions_step (ledger : Ledger) (operation : Operation) :
    (ledger.step operation).subscriptions = ledger.subscriptions ∨
      ∃ user, operation = .subscribe user := by
  cases operation with
  | subscribe user => exact .inr ⟨user, rfl⟩
  | receive id =>
      refine .inl (found_of (·.subscriptions = ledger.subscriptions) rfl fun holding _ _ => ?_)
      rw [receive_eq_settle]
      exact subscriptions_settle ..
  | intoStream id =>
      refine .inl (subscriptions_map ledger.manager fun holding => ?_)
      rw [Holding.streaming]
      split
      · rfl
      · rfl
  | read id =>
      refine .inl (found_of (·.subscriptions = ledger.subscriptions) rfl fun holding _ _ => ?_)
      rw [read_eq_settle]
      split
      · exact subscriptions_settle ..
      · rfl
  | drop id =>
      refine .inl (found_of (·.subscriptions = ledger.subscriptions) rfl fun holding _ _ => ?_)
      exact subscriptions_drop ledger holding
  | send user message => exact .inl (subscriptions_map _ (Holding.subscription_noting _ _))
  | broadcast message => exact .inl (subscriptions_map _ (Holding.subscription_noting _ _))
  | handle event => exact .inl (subscriptions_map _ (Holding.subscription_noting _ _))
  | sweep => exact .inl (subscriptions_map _ (Holding.subscription_noting _ _))

end Ledger

/-! Before a subscription is there, nothing is meant for it. -/

/-- Whether a moment is before a subscription is there. -/
structure Moment.Precedes (moment : Moment) (subscription : Subscription) : Prop where
  inv : moment.ledger.Inv
  isNew : ∀ known ∈ moment.ledger.subscriptions, known.id ≠ subscription.id

namespace Moment.Precedes

theorem isRegistered_eq (hprecedes : moment.Precedes subscription) :
    moment.isRegistered subscription = false := by
  apply decide_eq_false
  intro hid
  obtain ⟨connection, hconnection, hid⟩ := Registry.isConnection_iff.mp hid
  obtain ⟨held, _, _, hheld, _, rfl⟩ := hprecedes.inv.exists_holding hconnection
  exact hprecedes.isNew _ (List.mem_map_of_mem hheld) hid

theorem find?_eq (hprecedes : moment.Precedes subscription) :
    moment.ledger.find? subscription.id = none := by
  rw [Ledger.find?, List.find?_eq_none]
  intro holding hholding hid
  exact hprecedes.isNew _ (List.mem_map_of_mem hholding) (of_decide_eq_true hid)

theorem taken_eq (hprecedes : moment.Precedes subscription) : moment.taken subscription = [] := by
  have hnone := hprecedes.find?_eq
  obtain ⟨ledger, operation⟩ := moment
  cases operation with
  | receive id =>
      simp only [Moment.taken, Ledger.taken, hnone, Option.map_none, Option.getD_none, ite_self]
  | read id =>
      simp only [Moment.taken, Ledger.taken, hnone, Option.map_none, Option.getD_none, ite_self]
  | _ => rfl

end Moment.Precedes

namespace Subscription

theorem read_of_precedes (hnew : ∀ moment ∈ moments, moment.Precedes subscription) :
    subscription.read moments = [] :=
  List.flatMap_eq_nil_iff.mpr fun moment hmoment => (hnew moment hmoment).taken_eq

theorem contents_of_precedes (hnew : ∀ moment ∈ moments, moment.Precedes subscription) :
    subscription.contents moments = [.connected subscription.id.text] ∧
      subscription.IsOpen moments := by
  induction moments using List.reverseRecOn with
  | nil => exact ⟨rfl, fun _ hmem => absurd hmem List.not_mem_nil, rfl⟩
  | append_singleton moments moment ih =>
      obtain ⟨hcontents, hroom, hnone⟩ := ih fun earlier hearlier =>
        hnew earlier (List.mem_append_left _ hearlier)
      have hregistered := (hnew moment (List.mem_append_right _ List.mem_cons_self)).isRegistered_eq
      refine ⟨(contents_append_of_not_registered _ hregistered).1.trans hcontents, ?_, ?_⟩
      · intro other hother hsome
        rcases List.mem_append.mp hother with hearlier | hlast
        · exact hroom other hearlier hsome
        · rw [List.mem_singleton.mp hlast, Moment.message?, hregistered] at hsome
          exact absurd hsome Bool.false_ne_true
      · rw [List.any_append, hnone, List.any_cons, Moment.supersedes, hregistered]
        rfl

end Subscription

end Herald.Live
