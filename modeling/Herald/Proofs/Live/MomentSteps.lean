import Herald.Proofs.Live.Moments

/-!
What a subscription carries from its first message to its last. Each operation only takes messages
from the front of a subscription's queue or adds the one that is meant for it at the end; both are
followed over a whole run.
-/

namespace Herald.Live

variable {ledger : Ledger} {subscription : Subscription} {user : Identifier}
  {operation : Operation} {moments : List Moment} {message : Message} {keys : List QueueKey}

/-- What an operation does to a subscription, as far as its reader can tell. -/
structure Ledger.Acts (ledger : Ledger) (operation : Operation) (subscription : Subscription)
    (after : Registry) : Prop where
  contents : ∀ queue, ledger.manager.registry.queue? subscription.queue = some queue →
    ∃ queue', after.queue? subscription.queue = some queue' ∧
      ledger.taken subscription.id operation ++ queue'.waiting =
        queue.waiting ++ Moment.told subscription ⟨ledger, operation⟩
  registered : after.IsConnection subscription.user subscription.id →
    ledger.manager.registry.IsConnection subscription.user subscription.id ∧
      ((Moment.message? subscription ⟨ledger, operation⟩).isSome = true →
        Moment.isFull subscription ⟨ledger, operation⟩ = false) ∧
      operation.subscribes subscription.user = false

/-! Pushing. -/

theorem Moment.isRegistered_of_message? {moment : Moment}
    (hmessage : moment.message? subscription = some message) :
    moment.isRegistered subscription = true := by
  by_contra hregistered
  rw [Moment.message?, if_neg hregistered] at hmessage
  nomatch hmessage

theorem Moment.message?_of_registered (operation : Operation)
    (hregistered : ledger.manager.registry.IsConnection subscription.user subscription.id) :
    Moment.message? subscription ⟨ledger, operation⟩ = operation.message? subscription.user :=
  if_pos (decide_eq_true hregistered)

theorem Moment.told_of_not_subscribes (moment : Moment)
    (hsubscribes : moment.operation.subscribes subscription.user = false) :
    moment.told subscription =
      if moment.isFull subscription then [] else (moment.message? subscription).toList := by
  rw [Moment.told, Moment.supersedes, hsubscribes, Bool.and_false, Bool.false_and,
    if_neg Bool.false_ne_true, List.append_nil]

namespace Ledger

theorem Inv.queue_of_connection? (hinv : ledger.Inv) (hmem : subscription ∈ ledger.subscriptions)
    (hregistered : ledger.manager.registry.IsConnection subscription.user subscription.id)
    {connection : Connection}
    (hconnection : ledger.manager.registry.connection? subscription.user = some connection) :
    connection.queue = subscription.queue := by
  obtain ⟨other, hother, hqueue⟩ := (hinv.connection?_queue_iff hmem).mpr ⟨rfl, hregistered⟩
  rw [hconnection] at hother
  rwa [Option.some.inj hother]

/-- An operation pushes a message on queues, which are those of the subscriptions it has a message for. -/
structure Pushes (ledger : Ledger) (operation : Operation) (keys : List QueueKey) (message : Message)
    (after : Registry) : Prop where
  pushed : Registry.Pushed keys message ledger.manager.registry after
  message? : ∀ subscription ∈ ledger.subscriptions,
    Moment.message? subscription ⟨ledger, operation⟩ =
      if subscription.queue ∈ keys then some message else none

theorem Inv.pushes_send (hinv : ledger.Inv) (user : Identifier) (message : Message)
    (hoperation : ∀ subscriber, operation.message? subscriber =
      if user = subscriber then some message else none) :
    ledger.Pushes operation (ledger.manager.registry.keyOf user) message
      (ledger.manager.registry.send user message).1 where
  pushed := Registry.send_pushed hinv.separate user message
  message? := by
    intro subscription hmem
    rw [Moment.message?, Moment.isRegistered, hoperation]
    simp only [decide_eq_true_eq, hinv.mem_keyOf_iff hmem]
    by_cases huser : user = subscription.user
    · simp only [huser, if_true, true_and]
    · simp only [huser, if_false, false_and, ite_self]

theorem Inv.pushes_broadcast (hinv : ledger.Inv) (message : Message)
    (hoperation : ∀ subscriber, operation.message? subscriber = some message) :
    ledger.Pushes operation ledger.manager.registry.allKeys message
      (ledger.manager.registry.broadcast message).1 where
  pushed := Registry.broadcast_pushed hinv.users hinv.separate message
  message? := by
    intro subscription hmem
    rw [Moment.message?, Moment.isRegistered, hoperation]
    simp only [decide_eq_true_eq, hinv.mem_allKeys_iff hmem]

theorem Inv.pushes_handle (hinv : ledger.Inv) (event : Event) :
    ∃ keys message, ledger.Pushes (.handle event) keys message
      (ledger.manager.handle event).registry := by
  rw [Manager.handle]
  cases hrecipient : event.recipient with
  | user user =>
      refine ⟨_, _, hinv.pushes_send user (.notification event) ?_⟩
      intro subscriber
      simp only [Operation.message?, hrecipient]
  | everyone =>
      refine ⟨_, _, hinv.pushes_broadcast (.notification event) ?_⟩
      intro subscriber
      simp only [Operation.message?, hrecipient]

theorem Inv.exists_pushes (hinv : ledger.Inv) (hpush : operation.isPush = true) :
    ∃ keys message, ledger.Pushes operation keys message
      (ledger.step operation).manager.registry := by
  cases operation with
  | send user message => exact ⟨_, _, hinv.pushes_send user message fun _ => rfl⟩
  | broadcast message => exact ⟨_, _, hinv.pushes_broadcast message fun _ => rfl⟩
  | handle event => exact hinv.pushes_handle event
  | sweep => exact ⟨_, _, hinv.pushes_broadcast .heartbeat fun _ => rfl⟩
  | _ => nomatch hpush

theorem Inv.acts_of_pushes (hinv : ledger.Inv) (hmem : subscription ∈ ledger.subscriptions)
    {after : Registry} (hpushes : ledger.Pushes operation keys message after)
    (htaken : ledger.taken subscription.id operation = [])
    (hsubscribes : operation.subscribes subscription.user = false) :
    ledger.Acts operation subscription after where
  contents := by
    intro queue hqueue
    obtain ⟨hpushed, hmessage⟩ := hpushes
    have hmessage := hmessage subscription hmem
    have htold := Moment.told_of_not_subscribes ⟨ledger, operation⟩ hsubscribes
    rw [htaken, htold, hpushed.queue, hqueue, hmessage]
    simp only [List.nil_append]
    by_cases hkey : subscription.queue ∈ keys
    · rw [if_pos hkey] at hmessage
      have hregistered := of_decide_eq_true (Moment.isRegistered_of_message? hmessage)
      have hroom := hinv.hasRoom_eq hmem hregistered
      rw [Registry.hasRoom_of_queue? hqueue] at hroom
      simp only [if_pos hkey, Option.map_some, Option.toList_some]
      refine ⟨_, rfl, ?_⟩
      rw [Queue.waiting_push, hroom, Moment.isFull]
      cases ledger.manager.registry.isFull subscription.queue with
      | true => rfl
      | false => rfl
    · simp only [if_neg hkey, Option.toList_none, ite_self, List.append_nil]
      exact ⟨queue, rfl, rfl⟩
  registered := by
    intro hafter
    obtain ⟨hpushed, hmessage⟩ := hpushes
    have hmessage := hmessage subscription hmem
    obtain ⟨connection, hconnection, hid⟩ := Registry.isConnection_iff.mp hafter
    rw [hpushed.connection, Option.filter_eq_some_iff] at hconnection
    obtain ⟨hconnection, hkeeps⟩ := hconnection
    have hregistered : ledger.manager.registry.IsConnection subscription.user subscription.id :=
      Registry.isConnection_iff.mpr ⟨connection, hconnection, hid⟩
    refine ⟨hregistered, ?_, hsubscribes⟩
    intro hsome
    have hkey : subscription.queue ∈ keys := by
      by_contra hkey
      rw [hmessage, if_neg hkey] at hsome
      nomatch hsome
    have hqueue := hinv.queue_of_connection? hmem hregistered hconnection
    rw [Registry.keeps_of_mem (hqueue ▸ hkey), hqueue, hinv.hasRoom_eq hmem hregistered,
      Bool.not_eq_true'] at hkeeps
    exact hkeeps

theorem Inv.acts_push (hinv : ledger.Inv) (hmem : subscription ∈ ledger.subscriptions)
    (hpush : operation.isPush = true) :
    ledger.Acts operation subscription (ledger.step operation).manager.registry := by
  obtain ⟨keys, message, hpushes⟩ := hinv.exists_pushes hpush
  cases operation with
  | send | broadcast | handle | sweep => exact hinv.acts_of_pushes hmem hpushes rfl rfl
  | _ => nomatch hpush

/-! Operations that push nothing. -/

theorem told_of_quiet (hmessage : operation.message? subscription.user = none)
    (hsubscribes : operation.subscribes subscription.user = false) :
    Moment.told subscription ⟨ledger, operation⟩ = [] := by
  rw [Moment.told_of_not_subscribes ⟨ledger, operation⟩ hsubscribes, Moment.message?,
    hmessage, ite_self, Option.toList_none, ite_self]

theorem acts_of_quiet {after : Registry}
    (hmessage : operation.message? subscription.user = none)
    (hsubscribes : operation.subscribes subscription.user = false)
    (hcontents : ∀ queue, ledger.manager.registry.queue? subscription.queue = some queue →
      ∃ queue', after.queue? subscription.queue = some queue' ∧
        ledger.taken subscription.id operation ++ queue'.waiting = queue.waiting)
    (hregistered : after.IsConnection subscription.user subscription.id →
      ledger.manager.registry.IsConnection subscription.user subscription.id) :
    ledger.Acts operation subscription after where
  contents := by
    rw [told_of_quiet hmessage hsubscribes]
    simp only [List.append_nil]
    exact hcontents
  registered := by
    intro hafter
    refine ⟨hregistered hafter, ?_, hsubscribes⟩
    intro hsome
    rw [Moment.message?, hmessage, ite_self] at hsome
    nomatch hsome

/-! Subscribing. -/

theorem Inv.id_le_issued (hinv : ledger.Inv) (hmem : subscription ∈ ledger.subscriptions) :
    subscription.id.number ≤ ledger.manager.registry.issued := by
  obtain ⟨holding, hholding, rfl⟩ := exists_holding_of_mem hmem
  rw [hinv.numbered holding hholding, hinv.issued]
  exact hinv.lt_length hholding

theorem supersedes_subscribe (ledger : Ledger) (subscription : Subscription) (user : Identifier) :
    Moment.supersedes subscription ⟨ledger, .subscribe user⟩ =
      (decide (user = subscription.user ∧
          ledger.manager.registry.IsConnection subscription.user subscription.id) &&
        !ledger.manager.registry.isFull subscription.queue) := by
  rw [Moment.supersedes, Moment.isRegistered, Operation.subscribes, Moment.isFull,
    Bool.and_comm (decide _), Bool.decide_and]

theorem Inv.acts_subscribe (hinv : ledger.Inv) (hmem : subscription ∈ ledger.subscriptions)
    (user : Identifier) :
    ledger.Acts (.subscribe user) subscription (ledger.manager.subscribed user).registry where
  contents := by
    intro queue hqueue
    have hlt : subscription.queue < ledger.manager.registry.queues.length :=
      (List.getElem?_eq_some_iff.mp hqueue).1
    have hmessage : Moment.message? subscription ⟨ledger, .subscribe user⟩ = none := ite_self _
    rw [Manager.queue?_subscribed_of_lt hlt, hqueue, Moment.told, hmessage, Option.toList_none,
      ite_self, supersedes_subscribe]
    simp only [taken, List.nil_append, hinv.mem_keyOf_iff hmem]
    by_cases hboth : user = subscription.user ∧
        ledger.manager.registry.IsConnection subscription.user subscription.id
    · have hroom := hinv.hasRoom_eq hmem hboth.2
      rw [Registry.hasRoom_of_queue? hqueue] at hroom
      rw [if_pos hboth, decide_eq_true hboth, Bool.true_and, ← hroom, Option.map_some]
      exact ⟨_, rfl, Queue.waiting_push ..⟩
    · rw [if_neg hboth, decide_eq_false hboth, Bool.false_and, if_neg Bool.false_ne_true,
        List.append_nil]
      exact ⟨queue, rfl, rfl⟩
  registered := by
    intro hafter
    obtain ⟨connection, hconnection, hid⟩ := Registry.isConnection_iff.mp hafter
    rw [Manager.connection?_subscribed] at hconnection
    by_cases huser : subscription.user = user
    · rw [if_pos huser] at hconnection
      obtain rfl := Option.some.inj hconnection
      have hle := hinv.id_le_issued hmem
      rw [← hid] at hle
      exact absurd hle (Nat.not_succ_le_self _)
    · rw [if_neg huser] at hconnection
      have hmessage : Moment.message? subscription ⟨ledger, .subscribe user⟩ = none := ite_self _
      refine ⟨Registry.isConnection_iff.mpr ⟨connection, hconnection, hid⟩, ?_, ?_⟩
      · intro hsome
        rw [hmessage] at hsome
        nomatch hsome
      · exact decide_eq_false fun heq => huser heq.symm

/-! Dropping. -/

theorem isConnection_of_drop {holding : Holding} {id : ConnectionId}
    (hafter : (ledger.drop holding).manager.registry.IsConnection user id) :
    ledger.manager.registry.IsConnection user id := by
  rw [Ledger.drop] at hafter
  split at hafter
  case isTrue => exact hafter
  case isFalse =>
    obtain ⟨connection, hconnection, hid⟩ := Registry.isConnection_iff.mp hafter
    refine Registry.isConnection_iff.mpr ⟨connection, ?_, hid⟩
    have hunregister := (Registry.connection?_unregister ..).symm.trans hconnection
    split at hunregister
    case isTrue => cases hunregister
    case isFalse => exact hunregister

theorem queue?_drop (ledger : Ledger) (holding : Holding) (key : QueueKey) :
    (ledger.drop holding).manager.registry.queue? key =
      if holding.isDropped = false ∧ holding.subscription.queue = key then
        (ledger.manager.registry.queue? key).map Queue.dropReceiver
      else ledger.manager.registry.queue? key := by
  rw [Ledger.drop]
  cases holding.isDropped with
  | true => rfl
  | false =>
      refine (Registry.queue?_unregister ..).trans ?_
      simp only [true_and]
      exact Registry.queue?_changeQueue ..

theorem isConnection_of_settle {holding : Holding} {isEnded : Bool} {id : ConnectionId}
    (hafter : (ledger.settle holding isEnded).manager.registry.IsConnection user id) :
    ledger.manager.registry.IsConnection user id := by
  rw [Ledger.settle] at hafter
  split at hafter
  · exact isConnection_of_drop hafter
  · exact hafter

theorem queue?_settle_of_ne {holding : Holding} {key : QueueKey}
    (hkey : holding.subscription.queue ≠ key) (isEnded : Bool) :
    (ledger.settle holding isEnded).manager.registry.queue? key =
      ledger.manager.registry.queue? key := by
  rw [Ledger.settle]
  split
  · rw [queue?_drop, if_neg fun hboth => hkey hboth.2]
  · rfl

/-- Ending a stream loses nothing, as all that was queued has been read by then. -/
theorem waiting_settle (ledger : Ledger) {holding : Holding} {queue : Queue}
    (hqueue : ledger.manager.registry.queue? holding.subscription.queue = some queue)
    (hwaiting : queue.waiting = []) (isEnded : Bool) :
    ∃ queue', (ledger.settle holding isEnded).manager.registry.queue?
        holding.subscription.queue = some queue' ∧ queue'.waiting = [] := by
  rw [Ledger.settle]
  split
  · rw [queue?_drop, hqueue]
    split
    · exact ⟨_, rfl, rfl⟩
    · exact ⟨queue, rfl, hwaiting⟩
  · exact ⟨queue, hqueue, hwaiting⟩

/-! Reading. -/

theorem waiting_receive {holding : Holding} {queue : Queue}
    (hqueue : ledger.manager.registry.queue? holding.subscription.queue = some queue) :
    ∃ queue', (ledger.receive holding).manager.registry.queue? holding.subscription.queue =
        some queue' ∧
      (ledger.manager.receive holding.subscription).2.messages ++ queue'.waiting =
        queue.waiting := by
  rw [Ledger.receive]
  cases hwaiting : queue.waiting with
  | nil =>
      rw [Manager.receive_of_nil hqueue hwaiting]
      obtain ⟨queue', hafter, hnone⟩ := waiting_settle _ hqueue hwaiting
        (decide ((if ledger.manager.registry.isEnded holding.subscription.queue then
          Manager.Reading.ended else .pending) = .ended))
      refine ⟨queue', hafter, ?_⟩
      rw [hnone, List.append_nil]
      split
      · rfl
      · rfl
  | cons message rest =>
      rw [Manager.receive_of_cons hqueue hwaiting]
      refine ⟨_, Registry.queue?_withWaiting_self hqueue List.tail, ?_⟩
      rw [hwaiting]
      rfl

theorem waiting_read {holding : Holding} {queue : Queue}
    (hqueue : ledger.manager.registry.queue? holding.subscription.queue = some queue) :
    ∃ queue', (ledger.read holding).manager.registry.queue? holding.subscription.queue =
        some queue' ∧
      (if holding.isStream then (ledger.manager.receiveAll holding.subscription).2.1 else []) ++
        queue'.waiting = queue.waiting := by
  rw [Ledger.read]
  cases holding.isStream with
  | false => exact ⟨queue, hqueue, rfl⟩
  | true =>
      simp only [if_true]
      rw [Manager.receiveAll_of_queue? hqueue]
      obtain ⟨queue', hafter, hnone⟩ := waiting_settle
        { ledger with
          manager := { ledger.manager with
            registry := ledger.manager.registry.withWaiting holding.subscription.queue
              fun _ => [] } }
        (Registry.queue?_withWaiting_self hqueue fun _ => []) rfl
        (ledger.manager.registry.isEnded holding.subscription.queue)
      refine ⟨queue', hafter, ?_⟩
      rw [hnone, List.append_nil]

/-! Operations on the subscription with an id. -/

theorem Inv.acts_found (hinv : ledger.Inv) (hmem : subscription ∈ ledger.subscriptions)
    {id : ConnectionId} {act : Holding → Ledger}
    (hmessage : operation.message? subscription.user = none)
    (hsubscribes : operation.subscribes subscription.user = false)
    (hown : id = subscription.id → ∀ holding, ledger.find? id = some holding →
      holding.subscription = subscription → ∀ queue,
      ledger.manager.registry.queue? subscription.queue = some queue → ∃ queue',
        (act holding).manager.registry.queue? subscription.queue = some queue' ∧
          ledger.taken subscription.id operation ++ queue'.waiting = queue.waiting)
    (htaken : id ≠ subscription.id → ledger.taken subscription.id operation = [])
    (hother : ∀ holding : Holding, holding.subscription.queue ≠ subscription.queue →
      (act holding).manager.registry.queue? subscription.queue =
        ledger.manager.registry.queue? subscription.queue)
    (hregistered : ∀ holding : Holding,
      (act holding).manager.registry.IsConnection subscription.user subscription.id →
        ledger.manager.registry.IsConnection subscription.user subscription.id) :
    ledger.Acts operation subscription
      (((ledger.find? id).map act).getD ledger).manager.registry := by
  by_cases hid : id = subscription.id
  · obtain ⟨holding, _, hfound, hsubscription⟩ := hinv.find?_of_mem hmem
    rw [← hid] at hfound
    have hact := hown hid holding hfound hsubscription
    rw [hfound]
    exact acts_of_quiet hmessage hsubscribes hact (hregistered holding)
  · cases hfound : ledger.find? id with
    | none =>
        refine acts_of_quiet hmessage hsubscribes ?_ fun hsame => hsame
        intro queue hqueue
        rw [htaken hid]
        exact ⟨queue, hqueue, rfl⟩
    | some holding =>
        have hholding : holding ∈ ledger.holdings := List.mem_of_find?_eq_some hfound
        have hfoundId := List.find?_some hfound
        have hqueue : holding.subscription.queue ≠ subscription.queue := by
          intro hqueue
          have hsame := hinv.queue_injective (List.mem_map_of_mem hholding) hmem hqueue
          exact hid ((of_decide_eq_true hfoundId).symm.trans (congrArg Subscription.id hsame))
        refine acts_of_quiet hmessage hsubscribes ?_ (hregistered holding)
        intro queue hbefore
        rw [htaken hid]
        exact ⟨queue, (hother holding hqueue).trans hbefore, rfl⟩

theorem receive_eq_settle (ledger : Ledger) (holding : Holding) :
    ledger.receive holding =
      Ledger.settle { ledger with manager := (ledger.manager.receive holding.subscription).1 }
        holding ((ledger.manager.receive holding.subscription).2 = .ended) :=
  rfl

theorem isConnection_of_receive {holding : Holding} {id : ConnectionId}
    (hafter : (ledger.receive holding).manager.registry.IsConnection user id) :
    ledger.manager.registry.IsConnection user id := by
  rw [receive_eq_settle] at hafter
  have hsettled : (ledger.manager.receive holding.subscription).1.registry.IsConnection user id :=
    isConnection_of_settle hafter
  rcases ledger.manager.receive_eq holding.subscription with hsame | hchanged
  · rwa [hsame] at hsettled
  · rw [hchanged] at hsettled
    exact hsettled

theorem queue?_receive_of_ne {holding : Holding} {key : QueueKey}
    (hkey : holding.subscription.queue ≠ key) :
    (ledger.receive holding).manager.registry.queue? key =
      ledger.manager.registry.queue? key := by
  rw [receive_eq_settle, queue?_settle_of_ne hkey]
  rcases ledger.manager.receive_eq holding.subscription with hsame | hchanged
  · rw [hsame]
  · rw [hchanged]
    exact Registry.queue?_withWaiting_of_ne hkey _

theorem Inv.acts_receive (hinv : ledger.Inv) (hmem : subscription ∈ ledger.subscriptions)
    (id : ConnectionId) :
    ledger.Acts (.receive id) subscription (ledger.step (.receive id)).manager.registry := by
  refine hinv.acts_found hmem rfl rfl ?_ (fun hid => if_neg hid)
    (fun _ hkey => queue?_receive_of_ne hkey) fun _ hafter => isConnection_of_receive hafter
  rintro rfl holding hfound rfl queue hqueue
  rw [taken, if_pos rfl, hfound]
  exact waiting_receive hqueue

theorem read_eq_settle (ledger : Ledger) (holding : Holding) :
    ledger.read holding =
      if holding.isStream then
        Ledger.settle { ledger with manager := (ledger.manager.receiveAll holding.subscription).1 }
          holding (ledger.manager.receiveAll holding.subscription).2.2
      else ledger :=
  rfl

theorem isConnection_of_read {holding : Holding} {id : ConnectionId}
    (hafter : (ledger.read holding).manager.registry.IsConnection user id) :
    ledger.manager.registry.IsConnection user id := by
  rw [read_eq_settle] at hafter
  split at hafter
  case isTrue =>
    have hsettled :
        (ledger.manager.receiveAll holding.subscription).1.registry.IsConnection user id :=
      isConnection_of_settle hafter
    rcases ledger.manager.receiveAll_eq holding.subscription with hsame | hchanged
    · rwa [hsame] at hsettled
    · rw [hchanged] at hsettled
      exact hsettled
  case isFalse => exact hafter

theorem queue?_read_of_ne {holding : Holding} {key : QueueKey}
    (hkey : holding.subscription.queue ≠ key) :
    (ledger.read holding).manager.registry.queue? key = ledger.manager.registry.queue? key := by
  rw [read_eq_settle]
  split
  case isTrue =>
    rw [queue?_settle_of_ne hkey]
    rcases ledger.manager.receiveAll_eq holding.subscription with hsame | hchanged
    · rw [hsame]
    · rw [hchanged]
      exact Registry.queue?_withWaiting_of_ne hkey _
  case isFalse => rfl

theorem Inv.acts_read (hinv : ledger.Inv) (hmem : subscription ∈ ledger.subscriptions)
    (id : ConnectionId) :
    ledger.Acts (.read id) subscription (ledger.step (.read id)).manager.registry := by
  refine hinv.acts_found hmem rfl rfl ?_ (fun hid => if_neg hid)
    (fun _ hkey => queue?_read_of_ne hkey) fun _ hafter => isConnection_of_read hafter
  rintro rfl holding hfound rfl queue hqueue
  rw [taken, if_pos rfl, hfound]
  exact waiting_read hqueue

theorem Inv.acts_drop (hinv : ledger.Inv) (hmem : subscription ∈ ledger.subscriptions)
    {id : ConnectionId} (hid : id ≠ subscription.id) :
    ledger.Acts (.drop id) subscription (ledger.step (.drop id)).manager.registry := by
  refine hinv.acts_found hmem rfl rfl (fun heq => absurd heq hid) (fun _ => rfl) ?_
    fun _ hafter => isConnection_of_drop hafter
  intro holding hkey
  rw [queue?_drop, if_neg fun hboth => hkey hboth.2]

/-- Unless the subscription is dropped, every operation adds and takes just what is stated for it. -/
theorem Inv.acts_step (hinv : ledger.Inv) (hmem : subscription ∈ ledger.subscriptions)
    (operation : Operation) (hdrop : ¬Moment.Drops subscription ⟨ledger, operation⟩) :
    ledger.Acts operation subscription (ledger.step operation).manager.registry := by
  cases operation with
  | subscribe user =>
      rw [Ledger.step, subscribe_eq hinv]
      exact hinv.acts_subscribe hmem user
  | receive id => exact hinv.acts_receive hmem id
  | intoStream id =>
      exact acts_of_quiet rfl rfl (fun queue hqueue => ⟨queue, hqueue, rfl⟩) fun hafter => hafter
  | read id => exact hinv.acts_read hmem id
  | drop id =>
      apply hinv.acts_drop hmem
      rintro rfl
      exact hdrop ⟨rfl, hmem⟩
  | send | broadcast | handle | sweep => exact hinv.acts_push hmem rfl

end Ledger

end Herald.Live
