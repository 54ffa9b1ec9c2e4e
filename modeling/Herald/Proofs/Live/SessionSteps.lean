import Herald.Proofs.Live.Reading
import Herald.Proofs.Live.Sessions

/-!
Every operation on a manager preserves the sessions. Pushing, reading and dropping only change what
is known of the subscriptions there are; subscribing adds one.
-/

namespace Herald.Live.Ledger

variable {ledger : Ledger} {holding : Holding} {user : Identifier} {keys : List QueueKey}
  {message : Message}

theorem find?_map_holdings {holdings : List Holding} {change : Holding → Holding}
    (hchange : ∀ holding, (change holding).subscription = holding.subscription)
    (user : Identifier) :
    (holdings.map change).find? (·.subscription.user = user) =
      (holdings.find? (·.subscription.user = user)).map change := by
  rw [List.find?_map]
  congr 2
  funext holding
  rw [Function.comp_apply, hchange]

theorem map_queue_map_holdings {holdings : List Holding} {change : Holding → Holding}
    (hchange : ∀ holding, (change holding).subscription = holding.subscription) :
    (holdings.map change).map (·.subscription.queue) = holdings.map (·.subscription.queue) := by
  rw [List.map_map]
  congr 1
  funext holding
  rw [Function.comp_apply, hchange]

theorem Inv.update (hinv : ledger.Inv) {change : Holding → Holding} {after : Registry}
    (hchange : ∀ holding, (change holding).subscription = holding.subscription)
    (hissued : after.issued = ledger.manager.registry.issued)
    (hlength : after.queues.length = ledger.manager.registry.queues.length)
    (husers : after.users.Nodup)
    (hqueue : ∀ holding ∈ ledger.holdings, ∀ queue,
      ledger.manager.registry.queue? holding.subscription.queue = some queue →
      holding.Fits queue → ∃ queue',
        after.queue? holding.subscription.queue = some queue' ∧ (change holding).Fits queue')
    (hlive : ∀ user, after.connection? user =
      (((ledger.latest? user).map change).filter Holding.isLive).map Holding.connection) :
    Inv ⟨{ ledger.manager with registry := after }, ledger.holdings.map change⟩ where
  capacity := hinv.capacity
  issued := by
    rw [hissued, hlength]
    exact hinv.issued
  users := husers
  keys := by
    rw [map_queue_map_holdings hchange]
    exact hinv.keys
  numbered := by
    intro changed hmem
    obtain ⟨holding, hholding, rfl⟩ := List.mem_map.mp hmem
    rw [hchange]
    exact hinv.numbered holding hholding
  queue := by
    intro changed hmem
    obtain ⟨holding, hholding, rfl⟩ := List.mem_map.mp hmem
    obtain ⟨queue, hfound, hfits⟩ := hinv.queue holding hholding
    rw [hchange]
    exact hqueue holding hholding queue hfound hfits
  live := by
    intro user
    rw [hlive, live?]
    exact congrArg (fun found => (Option.filter Holding.isLive found).map Holding.connection)
      (find?_map_holdings hchange user).symm

/-! Pushing. -/

theorem noting_of_not_mem {registry : Registry} (hmem : holding.subscription.queue ∉ keys) :
    holding.noting registry keys = holding :=
  if_neg fun hboth => hmem hboth.1

theorem noting_of_not_full {registry : Registry}
    (hfull : registry.isFull holding.subscription.queue = false) :
    holding.noting registry keys = holding := by
  rw [Holding.noting, hfull]
  exact if_neg fun hboth => Bool.false_ne_true hboth.2

theorem isLive_noting_of_full {registry : Registry} (hmem : holding.subscription.queue ∈ keys)
    (hfull : registry.isFull holding.subscription.queue = true) :
    (holding.noting registry keys).isLive = false := by
  rw [Holding.noting, if_pos ⟨hmem, hfull⟩, Holding.isLive, Bool.not_true, Bool.and_false]

theorem isLive_noting_of_not_live {registry : Registry} (hlive : holding.isLive = false) :
    (holding.noting registry keys).isLive = false := by
  rw [Holding.noting]
  split
  · rw [Holding.isLive, Bool.not_true, Bool.and_false]
  · exact hlive

/-- A subscription that is not dropped refuses a push exactly if its queue has no room. -/
theorem Inv.isFull_eq (hinv : ledger.Inv) (hholding : holding ∈ ledger.holdings)
    (hopen : holding.isDropped = false) :
    ledger.manager.registry.isFull holding.subscription.queue =
      !ledger.manager.registry.hasRoom holding.subscription.queue := by
  obtain ⟨queue, hqueue, hfits⟩ := hinv.queue holding hholding
  have hreceiver : queue.receiver = .opened := by
    rw [hfits.receiver, hopen]
    rfl
  rw [Registry.hasRoom_of_queue? hqueue, hfits.hasRoom_eq hopen, Registry.isFull, hqueue]
  simp only [hreceiver, decide_true, Bool.true_and, ← decide_not, Nat.not_lt]

/-- A push costs a subscription its entry exactly if its queue is full. -/
theorem Inv.filter_noting (hinv : ledger.Inv) (keys : List QueueKey) (user : Identifier) :
    (((ledger.latest? user).map (Holding.noting ledger.manager.registry keys)).filter
        Holding.isLive).map Holding.connection =
      ((ledger.live? user).map Holding.connection).filter
        (ledger.manager.registry.keeps keys) := by
  rw [live?]
  cases hlatest : ledger.latest? user with
  | none => rfl
  | some holding =>
      obtain ⟨hmem, _⟩ := latest?_eq_some hlatest
      rw [Option.map_some, Option.filter_some, Option.filter_some]
      cases hlive : holding.isLive with
      | false =>
          rw [isLive_noting_of_not_live hlive]
          rfl
      | true =>
          have hopen : holding.isDropped = false := by
            rw [Holding.isLive, Bool.and_eq_true, Bool.not_eq_true'] at hlive
            exact hlive.1
          have hfull := hinv.isFull_eq hmem hopen
          rw [if_pos rfl, Option.map_some, Option.filter_some]
          by_cases hkey : holding.subscription.queue ∈ keys
          · rw [Registry.keeps_of_mem hkey]
            cases hroom : ledger.manager.registry.hasRoom holding.subscription.queue with
            | false =>
                rw [hroom] at hfull
                rw [isLive_noting_of_full hkey hfull]
                exact (if_neg (Bool.not_eq_true _ ▸ hroom)).symm
            | true =>
                rw [hroom] at hfull
                rw [noting_of_not_full hfull, hlive]
                exact (if_pos hroom).symm
          · rw [Registry.keeps_of_not_mem hkey,
              noting_of_not_mem hkey, hlive]
            rfl

theorem Inv.pushed (hinv : ledger.Inv) {after : Registry}
    (hpushed : Registry.Pushed keys message ledger.manager.registry after) :
    (ledger.pushed keys { ledger.manager with registry := after }).Inv := by
  refine hinv.update (Holding.subscription_noting _ keys) hpushed.issued hpushed.length
    (hpushed.users.nodup hinv.users) ?_ ?_
  · intro holding _ queue hqueue hfits
    rw [hpushed.queue, hqueue]
    split
    · exact ⟨_, rfl, (hfits.push message).noting _ keys⟩
    · exact ⟨_, rfl, hfits.noting _ keys⟩
  · intro user
    rw [hpushed.connection, hinv.live, hinv.filter_noting]

theorem Inv.send (hinv : ledger.Inv) (user : Identifier) (message : Message) :
    (ledger.step (.send user message)).Inv :=
  hinv.pushed (Registry.send_pushed hinv.separate user message)

theorem Inv.broadcast (hinv : ledger.Inv) (message : Message) :
    (ledger.step (.broadcast message)).Inv :=
  hinv.pushed (Registry.broadcast_pushed hinv.users hinv.separate message)

theorem Inv.handle (hinv : ledger.Inv) (event : Event) : (ledger.step (.handle event)).Inv := by
  change (ledger.pushed (ledger.recipientKeys event) (ledger.manager.handle event)).Inv
  rw [recipientKeys, Manager.handle]
  cases event.recipient with
  | user user => exact hinv.send user (.notification event)
  | everyone => exact hinv.broadcast (.notification event)

/-! Subscribing. -/

theorem Inv.filter_keeps_of_ne (hinv : ledger.Inv) {other : Identifier} (hother : other ≠ user) :
    (ledger.manager.registry.connection? other).filter
        (ledger.manager.registry.keeps (ledger.manager.registry.keyOf user)) =
      ledger.manager.registry.connection? other := by
  apply Registry.filter_keeps_of_forall
  intro foreign hforeign
  apply Registry.keeps_of_not_mem
  intro hmem
  rw [Registry.keyOf, Option.mem_toList, Option.map_eq_some_iff] at hmem
  obtain ⟨connection, hconnection, hqueue⟩ := hmem
  exact hother (hinv.separate hforeign hconnection hqueue.symm)

theorem subscribe_eq (hinv : ledger.Inv) (user : Identifier) :
    ledger.subscribe user =
      ⟨ledger.manager.subscribed user,
        ⟨ledger.manager.nextSubscription user, false, false, false⟩ ::
          ledger.holdings.map (Holding.noting ledger.manager.registry
            (ledger.manager.registry.keyOf user))⟩ := by
  rw [subscribe, Manager.subscribe_eq hinv.capacity hinv.covered]
  rfl

theorem Inv.subscribe (hinv : ledger.Inv) (user : Identifier) : (ledger.subscribe user).Inv := by
  rw [subscribe_eq hinv]
  refine ⟨hinv.capacity, ?_, Manager.nodup_users_subscribed hinv.users user, ?_, ?_, ?_, ?_⟩
  · rw [Manager.issued_subscribed, Manager.length_queues_subscribed, hinv.issued]
  · rw [List.map_cons, map_queue_map_holdings (Holding.subscription_noting _ _)]
    refine List.nodup_cons.mpr ⟨?_, hinv.keys⟩
    intro hmem
    obtain ⟨holding, hholding, hqueue⟩ := List.mem_map.mp hmem
    exact Nat.ne_of_lt (hinv.lt_length hholding) hqueue
  · intro held hheld
    rcases List.mem_cons.mp hheld with rfl | hold
    · exact congrArg (· + 1) hinv.issued
    · obtain ⟨holding, hholding, rfl⟩ := List.mem_map.mp hold
      rw [Holding.subscription_noting]
      exact hinv.numbered holding hholding
  · intro held hheld
    rcases List.mem_cons.mp hheld with rfl | hold
    · exact ⟨_, Manager.queue?_subscribed_self hinv.capacity hinv.covered user, rfl, rfl, nofun⟩
    · obtain ⟨holding, hholding, rfl⟩ := List.mem_map.mp hold
      obtain ⟨queue, hqueue, hfits⟩ := hinv.queue holding hholding
      rw [Holding.subscription_noting,
        Manager.queue?_subscribed_of_lt (hinv.lt_length hholding), hqueue]
      split
      · exact ⟨_, rfl, (hfits.push _).noting _ _⟩
      · exact ⟨_, rfl, hfits.noting _ _⟩
  · intro other
    rw [Manager.connection?_subscribed, live?, latest?, List.find?_cons]
    by_cases hother : other = user
    · subst hother
      have heq : decide ((ledger.manager.nextSubscription other).user = other) = true :=
        decide_eq_true rfl
      rw [if_pos rfl, heq]
      rfl
    · have hne : decide ((ledger.manager.nextSubscription user).user = other) = false :=
        decide_eq_false fun heq => hother heq.symm
      rw [if_neg hother, hne, find?_map_holdings (Holding.subscription_noting _ _)]
      have hlive := hinv.filter_noting (ledger.manager.registry.keyOf user) other
      rw [← hinv.live, hinv.filter_keeps_of_ne hother] at hlive
      exact hlive.symm

/-! Reading. -/

theorem Inv.withWaiting (hinv : ledger.Inv) (key : QueueKey) {take : List Message → List Message}
    (htake : take [] = []) :
    Inv { ledger with
      manager := { ledger.manager with
        registry := ledger.manager.registry.withWaiting key take } } := by
  have hupdate : Inv ⟨{ ledger.manager with
      registry := ledger.manager.registry.withWaiting key take }, ledger.holdings.map id⟩ := by
    refine hinv.update (fun _ => rfl) rfl (Registry.length_queues_changeQueue ..) hinv.users ?_ ?_
    · intro held hheld queue hqueue hfits
      rw [Registry.withWaiting, Registry.queue?_changeQueue, hqueue]
      split
      · refine ⟨_, rfl, hfits.withWaiting ?_⟩
        intro hwaiting
        rw [hwaiting, htake]
      · exact ⟨queue, rfl, hfits⟩
    · intro user
      rw [Option.map_id]
      exact hinv.live user
  rwa [List.map_id] at hupdate

theorem Inv.received (hinv : ledger.Inv) (hholding : holding ∈ ledger.holdings) :
    Inv { ledger with manager := (ledger.manager.receive holding.subscription).1 } := by
  obtain ⟨queue, hqueue, _⟩ := hinv.queue holding hholding
  cases hwaiting : queue.waiting with
  | nil =>
      rw [Manager.receive_of_nil hqueue hwaiting]
      exact hinv
  | cons message rest =>
      rw [Manager.receive_of_cons hqueue hwaiting]
      exact hinv.withWaiting _ rfl

theorem Inv.receivedAll (hinv : ledger.Inv) (hholding : holding ∈ ledger.holdings) :
    Inv { ledger with manager := (ledger.manager.receiveAll holding.subscription).1 } := by
  obtain ⟨queue, hqueue, _⟩ := hinv.queue holding hholding
  rw [Manager.receiveAll_of_queue? hqueue]
  exact hinv.withWaiting _ rfl

/-! Dropping. -/

theorem isLive_dropping {id : ConnectionId} (hid : holding.subscription.id = id) :
    (holding.dropping id).isLive = false := by
  rw [Holding.dropping, if_pos hid, Holding.isLive, Bool.not_true, Bool.false_and]

/-- The entry goes with the subscription it belongs to, and with no other. -/
theorem Inv.live_drop (hinv : ledger.Inv) (hholding : holding ∈ ledger.holdings)
    (user : Identifier) :
    (ledger.manager.drop holding.subscription).registry.connection? user =
      (((ledger.latest? user).map (Holding.dropping holding.subscription.id)).filter
        Holding.isLive).map Holding.connection := by
  refine (Registry.connection?_unregister ..).trans ?_
  change (if user = holding.subscription.user ∧ ledger.manager.registry.IsConnection
    holding.subscription.user holding.subscription.id then none
    else ledger.manager.registry.connection? user) = _
  by_cases hboth : user = holding.subscription.user ∧
      ledger.manager.registry.IsConnection holding.subscription.user holding.subscription.id
  · rw [if_pos hboth]
    obtain ⟨rfl, hid⟩ := hboth
    rw [(hinv.latest?_of_connection hholding hid).1, Option.map_some, Option.filter_some,
      isLive_dropping rfl]
    rfl
  · rw [if_neg hboth, hinv.live, live?]
    cases hlatest : ledger.latest? user with
    | none => rfl
    | some held =>
        obtain ⟨hmem, huser⟩ := latest?_eq_some hlatest
        by_cases hid : held.subscription.id = holding.subscription.id
        · obtain rfl := hinv.eq_of_id_eq hmem hholding hid
          -- Were it live, it would be the user's connection.
          have hlive : held.isLive = false := by
            rw [← Bool.not_eq_true]
            intro hlive
            refine hboth ⟨huser.symm, Registry.isConnection_iff.mpr ⟨held.connection, ?_, rfl⟩⟩
            rw [huser, hinv.live, live?, hlatest, Option.filter_some, if_pos hlive,
              Option.map_some]
          rw [Option.map_some, Option.filter_some, Option.filter_some, hlive,
            isLive_dropping rfl]
          rfl
        · rw [Option.map_some, Holding.dropping, if_neg hid]

theorem Inv.drop (hinv : ledger.Inv) (hholding : holding ∈ ledger.holdings) :
    (ledger.drop holding).Inv := by
  rw [Ledger.drop]
  split
  case isTrue => exact hinv
  case isFalse =>
    have husers : (ledger.manager.registry.changeQueue holding.subscription.queue
        Queue.dropReceiver).users.Nodup := hinv.users
    refine hinv.update (Holding.subscription_dropping _) (Registry.issued_unregister ..) ?_
      (Registry.nodup_users_unregister husers _ _) ?_ (hinv.live_drop hholding)
    · rw [Registry.queues_unregister, Registry.length_queues_changeQueue]
    · intro held hheld queue hqueue hfits
      rw [Registry.queue?_unregister, Registry.queue?_changeQueue, hqueue]
      by_cases hkey : holding.subscription.queue = held.subscription.queue
      · obtain rfl := hinv.eq_of_queue_eq hholding hheld hkey
        rw [if_pos rfl, Holding.dropping, if_pos rfl]
        exact ⟨_, rfl, hfits.dropReceiver⟩
      · have hid : held.subscription.id ≠ holding.subscription.id := by
          intro hid
          exact hkey (hinv.queue_eq_of_id_eq hheld hholding hid).symm
        rw [if_neg hkey, Holding.dropping, if_neg hid]
        exact ⟨queue, rfl, hfits⟩

theorem Inv.settle (hinv : ledger.Inv) (hholding : holding ∈ ledger.holdings) (isEnded : Bool) :
    (ledger.settle holding isEnded).Inv := by
  rw [Ledger.settle]
  split
  · exact hinv.drop hholding
  · exact hinv

/-! Runs. -/

theorem Inv.receive (hinv : ledger.Inv) (hholding : holding ∈ ledger.holdings) :
    (ledger.receive holding).Inv :=
  (hinv.received hholding).settle hholding _

theorem Inv.read (hinv : ledger.Inv) (hholding : holding ∈ ledger.holdings) :
    (ledger.read holding).Inv := by
  rw [Ledger.read]
  split
  · exact (hinv.receivedAll hholding).settle hholding _
  · exact hinv

theorem Inv.intoStream (hinv : ledger.Inv) (id : ConnectionId) :
    (ledger.step (.intoStream id)).Inv := by
  have hlive : ∀ holding : Holding, (holding.streaming id).isLive = holding.isLive ∧
      (holding.streaming id).connection = holding.connection ∧
      (holding.streaming id).subscription = holding.subscription := by
    intro holding
    rw [Holding.streaming]
    split
    · exact ⟨rfl, rfl, rfl⟩
    · exact ⟨rfl, rfl, rfl⟩
  refine hinv.update (fun holding => (hlive holding).2.2) rfl rfl hinv.users ?_ ?_
  · intro holding _ queue hqueue hfits
    refine ⟨queue, hqueue, ?_⟩
    rw [Holding.streaming]
    split
    · exact ⟨hfits.isHeld, hfits.receiver, hfits.waiting⟩
    · exact hfits
  · intro user
    rw [hinv.live, live?]
    cases ledger.latest? user with
    | none => rfl
    | some holding =>
        rw [Option.map_some, Option.filter_some, Option.filter_some, (hlive holding).1]
        split
        · rw [Option.map_some, Option.map_some, (hlive holding).2.1]
        · rfl

/-- A property kept by an act on each holding is kept by the act on the one with an id, if there is one. -/
theorem found_of (P : Ledger → Prop) (hledger : P ledger) {id : ConnectionId}
    {act : Holding → Ledger}
    (hact : ∀ holding ∈ ledger.holdings, holding.subscription.id = id → P (act holding)) :
    P (((ledger.find? id).map act).getD ledger) := by
  cases hfound : ledger.find? id with
  | none => exact hledger
  | some holding =>
    have hid := List.find?_some hfound
    exact hact holding (List.mem_of_find?_eq_some hfound) (of_decide_eq_true hid)

theorem Inv.step (hinv : ledger.Inv) (operation : Operation) : (ledger.step operation).Inv := by
  cases operation with
  | subscribe user => exact hinv.subscribe user
  | receive id => exact found_of Inv hinv fun _ hholding _ => hinv.receive hholding
  | intoStream id => exact hinv.intoStream id
  | read id => exact found_of Inv hinv fun _ hholding _ => hinv.read hholding
  | drop id => exact found_of Inv hinv fun _ hholding _ => hinv.drop hholding
  | send user message => exact hinv.send user message
  | broadcast message => exact hinv.broadcast message
  | handle event => exact hinv.handle event
  | sweep => exact hinv.broadcast .heartbeat

theorem inv_start (capacity : Nat) : (Ledger.start capacity).Inv where
  capacity := Nat.le_max_right capacity 1
  issued := rfl
  users := List.nodup_nil
  keys := List.nodup_nil
  numbered := nofun
  queue := nofun
  live _ := rfl

theorem Inv.run (hinv : ledger.Inv) (operations : List Operation) :
    (ledger.run operations).Inv := by
  induction operations generalizing ledger with
  | nil => exact hinv
  | cons operation operations ih => exact ih (hinv.step operation)

theorem inv_run (capacity : Nat) (operations : List Operation) :
    ((Ledger.start capacity).run operations).Inv :=
  (inv_start capacity).run operations

end Herald.Live.Ledger
