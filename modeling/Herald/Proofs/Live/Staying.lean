import Herald.Proofs.Live.MomentSteps
import Herald.Proofs.Live.SingleSession

/-!
Subscriptions that stay registered. Only a push that finds the queue of a subscription full costs it its
entry, besides its own end and a later subscription of its user: readers that come and go do not, and
neither do the subscriptions of others.
-/

namespace Herald.Live.Ledger

variable {ledger : Ledger} {subscription : Subscription} {holding : Holding} {user : Identifier}
  {operation : Operation}

/-! Pushing. -/

theorem Inv.isConnection_push (hinv : ledger.Inv) (hmem : subscription ∈ ledger.subscriptions)
    (hpush : operation.isPush = true)
    (hregistered : ledger.manager.registry.IsConnection subscription.user subscription.id)
    (hroom : (Moment.message? subscription ⟨ledger, operation⟩).isSome = true →
      Moment.isFull subscription ⟨ledger, operation⟩ = false) :
    (ledger.step operation).manager.registry.IsConnection subscription.user subscription.id := by
  obtain ⟨keys, message, hpushes⟩ := hinv.exists_pushes hpush
  obtain ⟨connection, hconnection, hid⟩ := Registry.isConnection_iff.mp hregistered
  refine Registry.isConnection_iff.mpr ⟨connection, ?_, hid⟩
  have hqueue := hinv.queue_of_connection? hmem hregistered hconnection
  rw [hpushes.pushed.connection, hconnection, Option.filter_some, if_pos]
  by_cases hkey : subscription.queue ∈ keys
  · have hfull : ledger.manager.registry.isFull subscription.queue = false := by
      apply hroom
      rw [hpushes.message? subscription hmem, if_pos hkey]
      rfl
    rw [Registry.keeps_of_mem (hqueue ▸ hkey), hqueue, hinv.hasRoom_eq hmem hregistered, hfull]
    rfl
  · exact Registry.keeps_of_not_mem (hqueue ▸ hkey)

/-! Reading. -/

/-- A stream that ends is no connection any more. -/
theorem connection?_settle {isEnded : Bool}
    (hended : isEnded = true → ¬ledger.manager.registry.IsConnection holding.subscription.user
      holding.subscription.id) :
    (ledger.settle holding isEnded).manager.registry.connection? user =
      ledger.manager.registry.connection? user := by
  rw [Ledger.settle]
  split
  case isFalse => rfl
  case isTrue hboth =>
    have hgone := hended (Bool.and_eq_true_iff.mp hboth).1
    rw [Ledger.drop]
    split
    · rfl
    · refine (Registry.connection?_unregister ..).trans (if_neg ?_)
      exact fun hid => hgone hid.2

theorem Inv.connection?_receive (hinv : ledger.Inv) (hholding : holding ∈ ledger.holdings)
    (user : Identifier) :
    (ledger.receive holding).manager.registry.connection? user =
      ledger.manager.registry.connection? user := by
  obtain ⟨queue, hqueue, _⟩ := hinv.queue holding hholding
  have hsame : ∀ user, (ledger.manager.receive holding.subscription).1.registry.connection? user =
      ledger.manager.registry.connection? user := by
    intro user
    rcases ledger.manager.receive_eq holding.subscription with hsame | htaken
    · rw [hsame]
    · rw [htaken]
      rfl
  rw [receive_eq_settle]
  refine (connection?_settle ?_).trans (hsame user)
  intro hended hid
  have hgone := ((hinv.receive_eq_ended_iff hholding hqueue).mp (of_decide_eq_true hended)).1
  apply hgone
  rwa [Registry.IsConnection, hsame] at hid

theorem Inv.connection?_read (hinv : ledger.Inv) (hholding : holding ∈ ledger.holdings)
    (user : Identifier) :
    (ledger.read holding).manager.registry.connection? user =
      ledger.manager.registry.connection? user := by
  obtain ⟨queue, hqueue, _⟩ := hinv.queue holding hholding
  rw [read_eq_settle]
  split
  case isFalse => rfl
  case isTrue =>
    rw [Manager.receiveAll_of_queue? hqueue]
    refine connection?_settle fun hended => ?_
    exact (hinv.isEnded_iff hholding).mp hended

/-! Dropping. -/

theorem isConnection_drop_of_ne {id : ConnectionId} (hid : holding.subscription.id ≠ id)
    (hregistered : ledger.manager.registry.IsConnection user id) :
    (ledger.drop holding).manager.registry.IsConnection user id := by
  rw [Ledger.drop]
  split
  case isTrue => exact hregistered
  case isFalse =>
    have hkept : ¬(user = holding.subscription.user ∧
        (ledger.manager.registry.changeQueue holding.subscription.queue
          Queue.dropReceiver).IsConnection holding.subscription.user holding.subscription.id) := by
      rintro ⟨rfl, hdropped⟩
      have hboth : some holding.subscription.id = some id := hdropped.symm.trans hregistered
      exact hid (Option.some.inj hboth)
    refine (congrArg (Option.map Connection.id) ?_).trans hregistered
    exact (Registry.connection?_unregister ..).trans (if_neg hkept)

/-! Any operation. -/

/-- A registered subscription that is neither dropped nor replaced stays registered, unless it is pushed
on while it is full. -/
theorem Inv.isConnection_step (hinv : ledger.Inv) (hmem : subscription ∈ ledger.subscriptions)
    (operation : Operation) (hdrop : ¬Moment.Drops subscription ⟨ledger, operation⟩)
    (hsubscribes : operation.subscribes subscription.user = false)
    (hregistered : ledger.manager.registry.IsConnection subscription.user subscription.id)
    (hroom : (Moment.message? subscription ⟨ledger, operation⟩).isSome = true →
      Moment.isFull subscription ⟨ledger, operation⟩ = false) :
    (ledger.step operation).manager.registry.IsConnection subscription.user subscription.id := by
  have hfound {id : ConnectionId} {act : Holding → Ledger} := @found_of ledger
    (·.manager.registry.IsConnection subscription.user subscription.id) hregistered id act
  cases operation with
  | subscribe user =>
      have huser : subscription.user ≠ user := fun heq => of_decide_eq_false hsubscribes heq.symm
      rw [Ledger.step, subscribe_eq hinv]
      refine (congrArg (Option.map Connection.id) ?_).trans hregistered
      exact (Manager.connection?_subscribed ..).trans (if_neg huser)
  | receive id =>
      refine hfound fun holding hholding _ => ?_
      rwa [Registry.IsConnection, hinv.connection?_receive hholding]
  | intoStream id => exact hregistered
  | read id =>
      refine hfound fun holding hholding _ => ?_
      rwa [Registry.IsConnection, hinv.connection?_read hholding]
  | drop id =>
      refine hfound fun holding _ hid => ?_
      apply isConnection_drop_of_ne _ hregistered
      intro hsame
      exact hdrop ⟨congrArg Operation.drop (hid.symm.trans hsame), hmem⟩
  | send | broadcast | handle | sweep => exact hinv.isConnection_push hmem rfl hregistered hroom

end Herald.Live.Ledger
