import Herald.Proofs.Live.Ledger

/-!
Sessions: in every run, the registry has an entry for a user exactly if the user's latest
subscription was neither dropped nor full when something was pushed on it. Every operation preserves
this, together with what the queues of the subscriptions are like.
-/

namespace Herald.Live

/-- What the queue of a subscription is like. -/
structure Holding.Fits (holding : Holding) (queue : Queue) : Prop where
  isHeld : queue.isHeld = false
  receiver : queue.receiver = if holding.isDropped then .dropped else .opened
  waiting : holding.isDropped = true → queue.waiting = []

structure Ledger.Inv (ledger : Ledger) : Prop where
  capacity : 1 ≤ ledger.manager.capacity
  issued : ledger.manager.registry.issued = ledger.manager.registry.queues.length
  users : ledger.manager.registry.users.Nodup
  keys : (ledger.holdings.map (·.subscription.queue)).Nodup
  numbered : ∀ holding ∈ ledger.holdings,
    holding.subscription.id.number = holding.subscription.queue + 1
  queue : ∀ holding ∈ ledger.holdings, ∃ queue,
    ledger.manager.registry.queue? holding.subscription.queue = some queue ∧ holding.Fits queue
  live : ∀ user, ledger.manager.registry.connection? user =
    (ledger.live? user).map Holding.connection

variable {ledger : Ledger} {holding other : Holding} {user : Identifier} {keys : List QueueKey}
  {queue : Queue} {message : Message}

/-! Queues of subscriptions. -/

namespace Holding.Fits

theorem hasRoom_eq (hfits : holding.Fits queue) (hopen : holding.isDropped = false) :
    queue.hasRoom = decide (queue.waiting.length < queue.capacity) := by
  have hreceiver : queue.receiver = .opened := by
    rw [hfits.receiver, hopen]
    rfl
  rw [Queue.hasRoom, hreceiver]
  rfl

theorem push (hfits : holding.Fits queue) (message : Message) :
    holding.Fits (queue.push message) := by
  rw [Queue.push]
  split
  case isFalse => exact hfits
  case isTrue hroom =>
    refine ⟨hfits.isHeld, hfits.receiver, ?_⟩
    intro hdropped
    have hreceiver := hfits.receiver
    rw [hdropped] at hreceiver
    rw [Queue.hasRoom, hreceiver] at hroom
    exact absurd hroom Bool.false_ne_true

theorem dropReceiver (hfits : holding.Fits queue) :
    Holding.Fits { holding with isDropped := true } queue.dropReceiver where
  isHeld := hfits.isHeld
  receiver := rfl
  waiting _ := rfl

theorem withWaiting (hfits : holding.Fits queue) {waiting : List Message}
    (hwaiting : queue.waiting = [] → waiting = []) :
    holding.Fits { queue with waiting } where
  isHeld := hfits.isHeld
  receiver := hfits.receiver
  waiting hdropped := hwaiting (hfits.waiting hdropped)

theorem noting (hfits : holding.Fits queue) (registry : Registry) (keys : List QueueKey) :
    (holding.noting registry keys).Fits queue := by
  rw [Holding.noting]
  split
  · exact ⟨hfits.isHeld, hfits.receiver, hfits.waiting⟩
  · exact hfits

end Holding.Fits

theorem Holding.subscription_noting (registry : Registry) (keys : List QueueKey)
    (holding : Holding) : (holding.noting registry keys).subscription = holding.subscription := by
  rw [Holding.noting]
  split
  · rfl
  · rfl

theorem Holding.subscription_dropping (id : ConnectionId) (holding : Holding) :
    (holding.dropping id).subscription = holding.subscription := by
  rw [Holding.dropping]
  split
  · rfl
  · rfl

/-! Which subscription an entry belongs to. -/

namespace Ledger

theorem latest?_eq_some (hlatest : ledger.latest? user = some holding) :
    holding ∈ ledger.holdings ∧ holding.subscription.user = user := by
  refine ⟨List.mem_of_find?_eq_some hlatest, ?_⟩
  have huser := List.find?_some hlatest
  exact of_decide_eq_true huser

theorem live?_eq_some (hlive : ledger.live? user = some holding) :
    ledger.latest? user = some holding ∧ holding.isLive = true :=
  Option.filter_eq_some_iff.mp hlive

namespace Inv

theorem eq_of_queue_eq (hinv : ledger.Inv) (hholding : holding ∈ ledger.holdings)
    (hother : other ∈ ledger.holdings)
    (hqueue : holding.subscription.queue = other.subscription.queue) : holding = other :=
  List.inj_on_of_nodup_map hinv.keys hholding hother hqueue

theorem queue_eq_of_id_eq (hinv : ledger.Inv) (hholding : holding ∈ ledger.holdings)
    (hother : other ∈ ledger.holdings)
    (hid : holding.subscription.id = other.subscription.id) :
    holding.subscription.queue = other.subscription.queue := by
  have hnumber := hinv.numbered holding hholding
  have hnumber' := hinv.numbered other hother
  rw [hid, hnumber'] at hnumber
  exact (Nat.succ.inj hnumber).symm

theorem eq_of_id_eq (hinv : ledger.Inv) (hholding : holding ∈ ledger.holdings)
    (hother : other ∈ ledger.holdings)
    (hid : holding.subscription.id = other.subscription.id) : holding = other :=
  hinv.eq_of_queue_eq hholding hother (hinv.queue_eq_of_id_eq hholding hother hid)

theorem lt_length (hinv : ledger.Inv) (hholding : holding ∈ ledger.holdings) :
    holding.subscription.queue < ledger.manager.registry.queues.length := by
  obtain ⟨queue, hqueue, _⟩ := hinv.queue holding hholding
  exact (List.getElem?_eq_some_iff.mp hqueue).1

theorem exists_holding (hinv : ledger.Inv) {connection : Connection}
    (hconnection : ledger.manager.registry.connection? user = some connection) :
    ∃ holding, ledger.latest? user = some holding ∧ holding.isLive = true ∧
      holding ∈ ledger.holdings ∧ holding.subscription.user = user ∧
      holding.connection = connection := by
  rw [hinv.live, Option.map_eq_some_iff] at hconnection
  obtain ⟨holding, hlive, hconnection⟩ := hconnection
  obtain ⟨hlatest, hisLive⟩ := live?_eq_some hlive
  obtain ⟨hmem, huser⟩ := latest?_eq_some hlatest
  exact ⟨holding, hlatest, hisLive, hmem, huser, hconnection⟩

theorem covered (hinv : ledger.Inv) : ledger.manager.registry.Covered := by
  intro user connection hconnection
  obtain ⟨holding, _, _, hmem, _, rfl⟩ := hinv.exists_holding hconnection
  exact hinv.lt_length hmem

theorem separate (hinv : ledger.Inv) : ledger.manager.registry.Separate := by
  intro user other connection foreign huser hother hqueue
  obtain ⟨holding, _, _, hmem, rfl, rfl⟩ := hinv.exists_holding huser
  obtain ⟨held, _, _, hmem', rfl, rfl⟩ := hinv.exists_holding hother
  rw [hinv.eq_of_queue_eq hmem hmem' hqueue]

/-- The subscription with an entry is the user's latest one, and live. -/
theorem latest?_of_connection (hinv : ledger.Inv) (hholding : holding ∈ ledger.holdings)
    (hconnection : ledger.manager.registry.IsConnection user holding.subscription.id) :
    ledger.latest? user = some holding ∧ holding.isLive = true := by
  obtain ⟨connection, hconnection, hid⟩ := Registry.isConnection_iff.mp hconnection
  obtain ⟨held, hlatest, hlive, hmem, _, rfl⟩ := hinv.exists_holding hconnection
  obtain rfl : held = holding := hinv.eq_of_id_eq hmem hholding hid
  exact ⟨hlatest, hlive⟩

end Inv

end Ledger

end Herald.Live
