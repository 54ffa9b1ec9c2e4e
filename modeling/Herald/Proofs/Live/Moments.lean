import Herald.Proofs.Live.SessionSteps

/-!
Runs of a manager moment by moment, and what each moment means for one subscription: the messages
its reader takes then, the message that is meant for it while it is its user's connection, and
whether a later subscription replaces it.
-/

namespace Herald.Live

namespace Operation

/-- The message that an operation has for a user's connection. -/
def message? (user : Identifier) : Operation → Option Message
  | .send recipient message => if recipient = user then some message else none
  | .broadcast message => some message
  | .handle event =>
    match event.recipient with
    | .user recipient => if recipient = user then some (.notification event) else none
    | .everyone => some (.notification event)
  | .sweep => some .heartbeat
  | _ => none

/-- Whether an operation pushes a message on queues. -/
def isPush : Operation → Bool
  | .send .. | .broadcast _ | .handle _ | .sweep => true
  | _ => false

def subscribes (user : Identifier) : Operation → Bool
  | .subscribe subscriber => subscriber = user
  | _ => false

end Operation

def Manager.Reading.messages : Manager.Reading → List Message
  | .message read => [read]
  | .pending | .ended => []

namespace Ledger

def subscriptions (ledger : Ledger) : List Subscription := ledger.holdings.map Holding.subscription

/-- The messages that an operation takes from the subscription with an id. -/
def taken (ledger : Ledger) (id : ConnectionId) : Operation → List Message
  | .receive reader =>
    if reader = id then
      ((ledger.find? id).map fun holding =>
        (ledger.manager.receive holding.subscription).2.messages).getD []
    else []
  | .read reader =>
    if reader = id then
      ((ledger.find? id).map fun holding =>
        if holding.isStream then (ledger.manager.receiveAll holding.subscription).2.1
        else []).getD []
    else []
  | _ => []

end Ledger

/-- An operation, and the ledger that it is done on. -/
structure Moment where
  ledger : Ledger
  operation : Operation

namespace Moment

variable (subscription : Subscription) (moment : Moment)

def isRegistered : Bool :=
  moment.ledger.manager.registry.IsConnection subscription.user subscription.id

def isFull : Bool := moment.ledger.manager.registry.isFull subscription.queue

/-- The message for a subscription that is its user's connection. -/
def message? : Option Message :=
  if moment.isRegistered subscription then moment.operation.message? subscription.user else none

/-- Whether a later subscription of the user finds this one registered, and with room. -/
def supersedes : Bool :=
  moment.isRegistered subscription && moment.operation.subscribes subscription.user
    && !moment.isFull subscription

def taken : List Message := moment.ledger.taken subscription.id moment.operation

/-- What is put on the queue of a subscription. -/
def told : List Message :=
  (if moment.isFull subscription then [] else (moment.message? subscription).toList)
    ++ if moment.supersedes subscription then [.sessionExpired] else []

/-- Whether the holder of a subscription drops it. -/
def Drops : Prop :=
  moment.operation = .drop subscription.id ∧ subscription ∈ moment.ledger.subscriptions

end Moment

namespace Subscription

variable (subscription : Subscription) (moments : List Moment)

def read : List Message := moments.flatMap (Moment.taken subscription)

/-- The messages for a subscription, up to the first that finds its queue full. -/
def pushed : List Message :=
  ((moments.filter fun moment => (moment.message? subscription).isSome).takeWhile fun moment =>
    !moment.isFull subscription).filterMap (Moment.message? subscription)

def farewell : List Message :=
  if moments.any (Moment.supersedes subscription) then [.sessionExpired] else []

/-- All that is ever put on a subscription. -/
def contents : List Message :=
  .connected subscription.id.text :: subscription.pushed moments ++ subscription.farewell moments

end Subscription

namespace Ledger

/-- The moments of a run, first to last. -/
def moments (ledger : Ledger) : List Operation → List Moment
  | [] => []
  | operation :: rest => ⟨ledger, operation⟩ :: (ledger.step operation).moments rest

/-! Where the queue of a subscription is among those a message is pushed on. -/

variable {ledger : Ledger} {subscription : Subscription} {user : Identifier}

theorem exists_holding_of_mem (hmem : subscription ∈ ledger.subscriptions) :
    ∃ holding ∈ ledger.holdings, holding.subscription = subscription := by
  obtain ⟨holding, hholding, rfl⟩ := List.mem_map.mp hmem
  exact ⟨holding, hholding, rfl⟩

namespace Inv

theorem queue_injective (hinv : ledger.Inv) {other : Subscription}
    (hmem : subscription ∈ ledger.subscriptions) (hother : other ∈ ledger.subscriptions)
    (hqueue : subscription.queue = other.queue) : subscription = other := by
  obtain ⟨holding, hholding, rfl⟩ := exists_holding_of_mem hmem
  obtain ⟨held, hheld, rfl⟩ := exists_holding_of_mem hother
  rw [hinv.eq_of_queue_eq hholding hheld hqueue]

theorem find?_of_mem (hinv : ledger.Inv) (hmem : subscription ∈ ledger.subscriptions) :
    ∃ holding ∈ ledger.holdings, ledger.find? subscription.id = some holding ∧
      holding.subscription = subscription := by
  obtain ⟨holding, hholding, rfl⟩ := exists_holding_of_mem hmem
  have hsome : (ledger.find? holding.subscription.id).isSome = true :=
    List.find?_isSome.mpr ⟨holding, hholding, decide_eq_true rfl⟩
  obtain ⟨found, hfound⟩ := Option.isSome_iff_exists.mp hsome
  have hid := List.find?_some hfound
  have heq : found = holding :=
    hinv.eq_of_id_eq (List.mem_of_find?_eq_some hfound) hholding (of_decide_eq_true hid)
  exact ⟨holding, hholding, heq ▸ hfound, rfl⟩

/-- A connection with the queue of a subscription is that subscription, registered. -/
theorem connection?_queue_iff (hinv : ledger.Inv) (hmem : subscription ∈ ledger.subscriptions) :
    (∃ connection, ledger.manager.registry.connection? user = some connection ∧
        connection.queue = subscription.queue) ↔
      user = subscription.user ∧
        ledger.manager.registry.IsConnection subscription.user subscription.id := by
  obtain ⟨holding, hholding, rfl⟩ := exists_holding_of_mem hmem
  constructor
  · rintro ⟨connection, hconnection, hqueue⟩
    obtain ⟨held, _, _, hheld, huser, rfl⟩ := hinv.exists_holding hconnection
    obtain rfl : held = holding := hinv.eq_of_queue_eq hheld hholding hqueue
    subst huser
    exact ⟨rfl, Registry.isConnection_iff.mpr ⟨_, hconnection, rfl⟩⟩
  · rintro ⟨rfl, hid⟩
    obtain ⟨connection, hconnection, hid⟩ := Registry.isConnection_iff.mp hid
    obtain ⟨held, _, _, hheld, _, rfl⟩ := hinv.exists_holding hconnection
    obtain rfl : held = holding := hinv.eq_of_id_eq hheld hholding hid
    exact ⟨_, hconnection, rfl⟩

theorem mem_keyOf_iff (hinv : ledger.Inv) (hmem : subscription ∈ ledger.subscriptions) :
    subscription.queue ∈ ledger.manager.registry.keyOf user ↔
      user = subscription.user ∧
        ledger.manager.registry.IsConnection subscription.user subscription.id := by
  rw [← hinv.connection?_queue_iff hmem, Registry.keyOf, Option.mem_toList, Option.map_eq_some_iff]

theorem mem_allKeys_iff (hinv : ledger.Inv) (hmem : subscription ∈ ledger.subscriptions) :
    subscription.queue ∈ ledger.manager.registry.allKeys ↔
      ledger.manager.registry.IsConnection subscription.user subscription.id := by
  rw [Registry.mem_allKeys_iff hinv.users]
  constructor
  · rintro ⟨user, hqueue⟩
    exact ((hinv.connection?_queue_iff hmem).mp hqueue).2
  · intro hid
    exact ⟨_, (hinv.connection?_queue_iff hmem).mpr ⟨rfl, hid⟩⟩

/-- A registered subscription has room exactly if its queue is not full. -/
theorem hasRoom_eq (hinv : ledger.Inv) (hmem : subscription ∈ ledger.subscriptions)
    (hid : ledger.manager.registry.IsConnection subscription.user subscription.id) :
    ledger.manager.registry.hasRoom subscription.queue =
      !ledger.manager.registry.isFull subscription.queue := by
  obtain ⟨holding, hholding, rfl⟩ := exists_holding_of_mem hmem
  have hlive := (hinv.latest?_of_connection hholding hid).2
  rw [Holding.isLive, Bool.and_eq_true, Bool.not_eq_true'] at hlive
  rw [hinv.isFull_eq hholding hlive.1, Bool.not_not]

end Inv

end Ledger

end Herald.Live
