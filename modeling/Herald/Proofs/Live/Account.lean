import Herald.Proofs.Live.Contention
import Herald.Proofs.Live.Replies

/-!
The account of a registry: every message that a queue accepted was read from it or waits on it, and
every sending end that the registry was given is that of an entry or was let go. One queue may serve
several users, and its reader may close it, leave it or read from it at any time.
-/

namespace Herald.Live

namespace Registry

variable {registry : Registry} {user : Identifier} {key : QueueKey} {message : Message}

/-- What the reader of a queue is told. -/
def reading (registry : Registry) (key : QueueKey) : Manager.Reading :=
  match (registry.take key).2 with
  | some message => .message message
  | none => if registry.isEnded key then .ended else .pending

def isDropped (registry : Registry) (key : QueueKey) : Bool :=
  (registry.queue? key).any (·.receiver = .dropped)

end Registry

/-! Acts and their entries in the account. -/

/-- What may be done with a registry and with the ends of its queues. -/
inductive Act
  | openQueue (capacity : Nat)
  | register (user : Identifier) (key : QueueKey)
  | unregister (user : Identifier) (id : ConnectionId)
  | send (user : Identifier) (message : Message)
  | broadcast (message : Message) (order : Order)
  | read (key : QueueKey)
  | close (key : QueueKey)
  | dropReceiver (key : QueueKey)
  /-- Lets the sending end go that is held besides those of the entries. -/
  | release (key : QueueKey)

namespace Act

def perform (registry : Registry) : Act → Registry
  | .openQueue capacity => (registry.openQueue capacity).1
  | .register user key => (registry.register user key).1
  | .unregister user id => (registry.unregister user id).1
  | .send user message => (registry.send user message).1
  | .broadcast message order => (registry.broadcastIn order message).1
  | .read key => (registry.take key).1
  | .close key => registry.changeQueue key Queue.close
  | .dropReceiver key => registry.changeQueue key Queue.dropReceiver
  | .release key => registry.changeQueue key Queue.release

/-- The messages that queues take. -/
def accepted (registry : Registry) : Act → List (QueueKey × Message)
  | .register user key => registry.triedOnRegister user key
  | .send user message => registry.triedOn user message
  | .broadcast message order =>
    Registry.copies message (Registry.visits message (order.arrange registry.entries) registry)
  | _ => []

/-- The messages that readers take. -/
def drained (registry : Registry) : Act → List (QueueKey × Message)
  | .read key =>
    match registry.reading key with
    | .message message => [(key, message)]
    | _ => []
  | _ => []

/-- The sending ends that the registry is given. -/
def given : Act → List QueueKey
  | .register _ key => [key]
  | _ => []

/-- The sending ends that the registry lets go: those of entries that are superseded, removed or evicted,
and those that it does not make an entry of. -/
def released (registry : Registry) : Act → List QueueKey
  | .register user key =>
    registry.keyOf user ++
      match (registry.register user key).2 with
      | .ok _ => []
      | .error _ => [key]
  | .unregister user id => if (registry.unregister user id).2 then registry.keyOf user else []
  | .send user message =>
    if (registry.send user message).2 = .evicted then registry.keyOf user else []
  | .broadcast message order =>
    (Registry.visited false
      (Registry.visits message (order.arrange registry.entries) registry)).map (·.2.queue)
  | _ => []

end Act

/-- A registry, and what its queues and its users have been seen to give and take. -/
structure Account where
  registry : Registry
  accepted : List (QueueKey × Message)
  drained : List (QueueKey × Message)
  given : List QueueKey
  released : List QueueKey

namespace Account

def empty : Account := ⟨.empty, [], [], [], []⟩

def enter (account : Account) (act : Act) : Account where
  registry := act.perform account.registry
  accepted := account.accepted ++ act.accepted account.registry
  drained := account.drained ++ act.drained account.registry
  given := account.given ++ act.given
  released := account.released ++ act.released account.registry

def after (acts : List Act) : Account := acts.foldl enter empty

end Account

/-! What each act does to the account. -/

namespace Registry

/-- The law of a queue: what is read from it and what then waits there is what waited there before and what
the queue has taken since; a dropped one holds nothing for a reader. -/
def Balances (key : QueueKey) (accepted drained : List (QueueKey × Message))
    (before after : Registry) : Prop :=
  after.isDropped key = false →
    before.isDropped key = false ∧
      messagesFor key drained ++ after.waitingOn key =
        before.waitingOn key ++ messagesFor key accepted

variable {registry before after : Registry} {key : QueueKey}
  {accepted : List (QueueKey × Message)}

theorem isDropped_of_receiver_eq
    (hreceiver : (after.queue? key).map Queue.receiver = (before.queue? key).map Queue.receiver) :
    after.isDropped key = before.isDropped key := by
  have hmap : ∀ found : Option Queue,
      found.any (·.receiver = .dropped) = (found.map Queue.receiver).any (· = .dropped) := by
    intro found
    cases found <;> rfl
  rw [isDropped, isDropped, hmap, hreceiver, ← hmap]

theorem Accepts.balances (haccepts : Accepts accepted before after) (key : QueueKey) :
    Balances key accepted [] before after := by
  intro hopen
  have hreceiver : (after.queue? key).map Queue.receiver =
      (before.queue? key).map Queue.receiver := by
    simp [haccepts.queue, Queue.followedBy, Function.comp_def]
  refine ⟨?_, haccepts.waitingOn key⟩
  rw [← isDropped_of_receiver_eq hreceiver, hopen]

/-- A change of a queue that takes nothing from its reader, unless the queue is dropped by it. -/
theorem balances_changeQueue (registry : Registry) (key other : QueueKey) {change : Queue → Queue}
    (hchange : ∀ queue : Queue, (change queue).receiver ≠ .dropped →
      queue.receiver ≠ .dropped ∧ (change queue).waiting = queue.waiting) :
    Balances other [] [] registry (registry.changeQueue key change) := by
  intro hopen
  simp only [isDropped, waitingOn, queue?_changeQueue] at hopen ⊢
  by_cases hkey : key = other
  · cases hqueue : registry.queue? other with
    | none => simp [hkey]
    | some queue =>
        have hchanged : (change queue).receiver ≠ .dropped := by
          simpa [hkey, hqueue] using hopen
        simpa [hkey] using hchange queue hchanged
  · simpa [hkey] using hopen

theorem balances_openQueue (registry : Registry) (capacity : Nat) (key : QueueKey) :
    Balances key [] [] registry (registry.openQueue capacity).1 := by
  intro hopen
  refine ⟨?_, by simp [waitingOn_openQueue]⟩
  by_cases hkey : key < registry.queues.length
  · simpa [isDropped, queue?_openQueue_of_lt capacity hkey] using hopen
  · simp [isDropped, queue?, List.getElem?_eq_none (Nat.le_of_not_lt hkey)]

theorem take_snd (registry : Registry) (key : QueueKey) :
    (registry.take key).2 = (registry.waitingOn key).head? := by
  rw [take, waitingOn]
  cases registry.queue? key with
  | none => rfl
  | some queue =>
      simp only [Queue.take, Option.map_some, Option.getD_some]
      cases queue.waiting <;> rfl

theorem drained_read (registry : Registry) (key : QueueKey) :
    (Act.read key).drained registry =
      ((registry.waitingOn key).head?.map fun message => (key, message)).toList := by
  rw [Act.drained, reading, take_snd]
  cases (registry.waitingOn key).head? with
  | none => cases registry.isEnded key <;> rfl
  | some message => rfl

theorem balances_take (registry : Registry) (key other : QueueKey) :
    Balances other [] ((Act.read key).drained registry) registry (registry.take key).1 := by
  intro hopen
  have hreceiver : ((registry.take key).1.queue? other).map Queue.receiver =
      (registry.queue? other).map Queue.receiver := by
    rw [queue?_take]
    split <;> simp [Queue.take_snd, Function.comp_def]
  refine ⟨by rw [← isDropped_of_receiver_eq hreceiver, hopen], ?_⟩
  rw [drained_read, waitingOn_take]
  by_cases hkey : key = other
  · subst hkey
    cases registry.waitingOn key <;> simp
  · cases (registry.waitingOn key).head? <;> simp [hkey]

/-- The reader of an empty queue is told of the end once nobody can push on it any more. -/
theorem reading_eq_ended_iff {key : QueueKey} {queue : Queue}
    (hqueue : registry.queue? key = some queue) (hempty : queue.waiting = []) :
    registry.reading key = .ended ↔
      queue.receiver ≠ .opened ∨
        queue.isHeld = false ∧ ∀ entry ∈ registry.entries, entry.2.queue ≠ key := by
  have hnone : (registry.take key).2 = none := by
    rw [take_snd, waitingOn_of_queue? hqueue, hempty]
    rfl
  have hended : registry.isEnded key = true ↔ queue.receiver ≠ .opened ∨
      queue.isHeld = false ∧ ∀ entry ∈ registry.entries, entry.2.queue ≠ key := by
    rw [isEnded, hqueue]
    simp
  rw [← hended, reading, hnone]
  simp

end Registry

namespace Act

open Registry (Accepts Balances)

variable {registry : Registry}

theorem nodup_users_perform (husers : registry.users.Nodup) (act : Act) :
    (act.perform registry).users.Nodup := by
  cases act with
  | register user key => exact Registry.nodup_users_register husers user key
  | unregister user id => exact Registry.nodup_users_unregister husers user id
  | send user message => exact (Registry.shrinks_send registry user message).nodup_users husers
  | broadcast message order => exact (Registry.shrinks_broadcastTo ..).nodup_users husers
  | read key => exact (Registry.shrinks_take registry key).nodup_users husers
  | _ => exact husers

theorem fits_perform (hfits : registry.Fits) (act : Act) : (act.perform registry).Fits := by
  cases act with
  | openQueue capacity => exact Registry.fits_openQueue hfits capacity
  | register user key => exact (Registry.accepts_register registry user key).fits hfits
  | unregister user id =>
      exact (Registry.accepts_of_queues_eq (Registry.queues_unregister registry user id)).fits hfits
  | send user message => exact (Registry.accepts_send registry user message).fits hfits
  | broadcast message order => exact (Registry.accepts_broadcastTo message _ registry).fits hfits
  | read key =>
      rw [perform, Registry.take]
      split
      case h_1 =>
        apply Registry.fits_changeQueue hfits
        intro queue hqueue
        rw [Queue.take_snd]
        exact Nat.le_trans (by simp) hqueue
      case h_2 => exact hfits
  | close key =>
      apply Registry.fits_changeQueue hfits
      intro queue hqueue
      rw [Queue.close]
      split <;> exact hqueue
  | dropReceiver key =>
      exact Registry.fits_changeQueue hfits key fun queue _ => Nat.zero_le queue.capacity
  | release key => exact Registry.fits_changeQueue hfits key fun _ hqueue => hqueue

theorem balances_perform (registry : Registry) (act : Act) (key : QueueKey) :
    Balances key (act.accepted registry) (act.drained registry) registry (act.perform registry) := by
  cases act with
  | openQueue capacity => exact registry.balances_openQueue capacity key
  | register user other => exact (Registry.accepts_register registry user other).balances key
  | unregister user id =>
      exact (Registry.accepts_of_queues_eq (Registry.queues_unregister registry user id)).balances key
  | send user message => exact (Registry.accepts_send registry user message).balances key
  | broadcast message order =>
      exact (Registry.accepts_broadcastTo message _ registry).balances key
  | read other => exact registry.balances_take other key
  | close other =>
      apply registry.balances_changeQueue other key
      intro queue hopen
      rw [Queue.close] at hopen ⊢
      split <;> simp_all
  | dropReceiver other =>
      exact registry.balances_changeQueue other key fun queue hopen => absurd rfl hopen
  | release other => exact registry.balances_changeQueue other key fun queue hopen => ⟨hopen, rfl⟩

/-! The sending ends. -/

theorem allKeys_register (registry : Registry) (user : Identifier) (key : QueueKey) :
    (registry.register user key).1.allKeys =
      (registry.remove user).allKeys ++
        if (registry.expire user).hasRoom key then [key] else [] := by
  rw [Registry.allKeys, Registry.entries_register, List.map_append]
  split <;> rfl

theorem perm_register (husers : registry.users.Nodup) (user : Identifier) (key : QueueKey) :
    (key :: registry.allKeys).Perm
      ((Act.register user key).released registry ++ (registry.register user key).1.allKeys) := by
  -- the new queue may be the one that is superseded, so the ends of each queue are counted
  apply List.perm_iff_count.mpr
  intro other
  have hcount := (Registry.allKeys_perm_remove husers user).count_eq other
  rw [allKeys_register, released]
  cases hroom : (registry.expire user).hasRoom key with
  | true =>
      simp only [Registry.register_of_room hroom, List.count_append, List.count_cons,
        List.count_nil, if_true] at hcount ⊢
      omega
  | false =>
      simp only [Registry.register_of_no_room hroom, List.count_append, List.count_cons,
        List.count_nil, Bool.false_eq_true, if_false] at hcount ⊢
      omega

theorem perm_send (husers : registry.users.Nodup) (user : Identifier) (message : Message) :
    registry.allKeys.Perm
      ((Act.send user message).released registry ++ (registry.send user message).1.allKeys) := by
  rw [released]
  cases hconnection : registry.connection? user with
  | none =>
      rw [Registry.send_of_not_connected hconnection]
      exact List.Perm.refl _
  | some connection =>
      rw [Registry.send_of_connected hconnection]
      cases hroom : registry.hasRoom connection.queue with
      | true =>
          rw [Registry.deliver_of_room hroom]
          exact List.Perm.refl _
      | false =>
          rw [Registry.deliver_of_no_room hconnection hroom]
          exact Registry.allKeys_perm_remove husers user

theorem perm_broadcast (husers : registry.users.Nodup) (message : Message) (order : Order) :
    registry.allKeys.Perm
      ((Act.broadcast message order).released registry ++
        (registry.broadcastIn order message).1.allKeys) := by
  have hall := Registry.visited_perm message (order.arrange registry.entries) registry
  have hleft := registry.entries_broadcastIn_perm husers order message
  have hentries := (order.perm registry.entries).symm.trans
    (hall.symm.trans (List.perm_append_comm.trans (hleft.symm.append_left _)))
  simpa [Registry.allKeys, released] using hentries.map fun entry => entry.2.queue

theorem perm_released (husers : registry.users.Nodup) (act : Act) :
    (act.given ++ registry.allKeys).Perm
      (act.released registry ++ (act.perform registry).allKeys) := by
  cases act with
  | register user key => exact perm_register husers user key
  | unregister user id =>
      change registry.allKeys.Perm ((if (registry.unregister user id).2 then registry.keyOf user
        else []) ++ (registry.unregister user id).1.allKeys)
      by_cases hid : registry.IsConnection user id
      · rw [Registry.unregister_of_isConnection hid]
        exact Registry.allKeys_perm_remove husers user
      · rw [Registry.unregister_of_not_isConnection hid]
        exact List.Perm.refl _
  | send user message => exact perm_send husers user message
  | broadcast message order => exact perm_broadcast husers message order
  | read key =>
      have hentries : (registry.take key).1.entries = registry.entries := by
        rw [Registry.take]
        cases registry.queue? key <;> rfl
      change registry.allKeys.Perm (registry.take key).1.allKeys
      rw [Registry.allKeys, Registry.allKeys, hentries]
  | _ => exact List.Perm.refl _

end Act

/-! What the account says. -/

namespace Account

/-- What holds of an account at all times. -/
structure Sound (account : Account) : Prop where
  users : account.registry.users.Nodup
  fits : account.registry.Fits
  messages : ∀ key, account.registry.isDropped key = false →
    messagesFor key account.drained ++ account.registry.waitingOn key =
      messagesFor key account.accepted
  senders : account.given.Perm (account.released ++ account.registry.allKeys)

theorem sound_empty : empty.Sound where
  users := List.nodup_nil
  fits key queue hqueue := by
    simp [empty, Registry.queue?, Registry.empty] at hqueue
  messages key _ := by
    simp [empty, Registry.waitingOn, Registry.queue?, Registry.empty]
  senders := List.Perm.refl _

theorem Sound.enter {account : Account} (hsound : account.Sound) (act : Act) :
    (account.enter act).Sound where
  users := act.nodup_users_perform hsound.users
  fits := act.fits_perform hsound.fits
  messages key hopen := by
    obtain ⟨hbefore, hbalance⟩ := act.balances_perform account.registry key hopen
    simp only [Account.enter, messagesFor_append, List.append_assoc]
    rw [hbalance, ← List.append_assoc, hsound.messages key hbefore]
  senders := by
    have hgiven := hsound.senders.append_right act.given
    have hact := (act.perm_released hsound.users).append_left account.released
    simp only [Account.enter]
    apply hgiven.trans
    rw [List.append_assoc, List.append_assoc]
    exact (List.perm_append_comm.append_left account.released).trans hact

theorem sound_after (acts : List Act) : (after acts).Sound := by
  rw [after]
  have hsound := sound_empty
  generalize empty = account at hsound
  induction acts generalizing account with
  | nil => exact hsound
  | cons act acts ih => exact ih (account.enter act) (hsound.enter act)

/--
At any time, whatever was done with a registry and its queues: no queue holds more than its capacity, and
unless its reader left, what was read from it and what waits on it is what it accepted. The sending ends
that the registry was given are those of its entries and those it let go, and the reader of an empty queue is
told of the end exactly if the queue is closed, or no entry refers to it and no other sending end is
held. The replies to sends and the counts of broadcasts say what was queued and which entries are left.
-/
theorem registry_accounts (acts : List Act) :
    let account := after acts
    let registry := account.registry
    (∀ key queue, registry.queue? key = some queue →
      queue.waiting.length ≤ queue.capacity ∧
        (queue.receiver ≠ .dropped →
          messagesFor key account.drained ++ queue.waiting = messagesFor key account.accepted) ∧
        (queue.waiting = [] →
          (registry.reading key = .ended ↔ queue.receiver ≠ .opened ∨
            queue.isHeld = false ∧ ∀ entry ∈ registry.entries, entry.2.queue ≠ key))) ∧
      account.given.Perm (account.released ++ registry.allKeys) ∧
      (∀ user message, registry.SendReport user message) ∧
      ∀ message order, registry.BroadcastReport message order := by
  intro account registry
  have hsound : account.Sound := sound_after acts
  refine ⟨?_, hsound.senders, registry.sendReport, Registry.broadcastReport hsound.users⟩
  intro key queue hqueue
  refine ⟨hsound.fits hqueue, ?_, Registry.reading_eq_ended_iff hqueue⟩
  intro hreceiver
  have hopen : registry.isDropped key = false := by
    simpa [Registry.isDropped, hqueue] using hreceiver
  rw [← Registry.waitingOn_of_queue? hqueue]
  exact hsound.messages key hopen

end Account

end Herald.Live
