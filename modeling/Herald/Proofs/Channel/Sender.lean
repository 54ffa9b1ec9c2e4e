import Herald.Channel.Broker
import Mathlib.Data.List.Forall2

/-!
A publisher and its broker, one command after another. The publisher opens a connection when it first
needs one, and sends an event again only if the connection was dropped. The broker replies to what it
receives in the order of its script, whichever event a command is for.
-/

namespace Herald.Channel.Broker

/-- A command that the broker received, and its reply. -/
structure Exchange where
  command : Command
  reply : Reply

structure Sender where
  topic : String
  /-- Whether the broker takes connections. -/
  isReachable : Bool
  /-- Whether a connection was opened; one that is dropped is replaced. -/
  isConnected : Bool
  replies : List Reply
  exchanges : List Exchange

namespace Sender

/-- A publisher that has not opened a connection yet. -/
def start (topic : String) (isReachable : Bool) (script : List Reply) : Sender :=
  ⟨topic, isReachable, false, script, []⟩

def connect? (sender : Sender) : Option Sender :=
  if sender.isConnected || sender.isReachable then some { sender with isConnected := true } else none

/-- Sends an event on the connection, for the reply of the broker. -/
def send (sender : Sender) (event : Event) : Reply × Sender :=
  let (reply, replies) := answer sender.replies
  let exchange : Exchange := ⟨.publish sender.topic event.encode, reply⟩
  (reply, { sender with replies, exchanges := sender.exchanges ++ [exchange] })

/-- Publishes an event, again if the connection was dropped. -/
def publish (sender : Sender) (event : Event) : Except Fault Unit × Sender :=
  match sender.connect? with
  | none => (.error (.connection refusedText), sender)
  | some sender =>
    let (reply, sender) := sender.send event
    if reply = .dropped then
      let (reply, sender) := sender.send event
      (result reply, sender)
    else (result reply, sender)

def publishAll (sender : Sender) : List Event → List (Except Fault Unit) × Sender
  | [] => ([], sender)
  | event :: events =>
    let (result, sender) := sender.publish event
    let (results, sender) := sender.publishAll events
    (result :: results, sender)

end Sender

/-- What the broker received for one event, and what publishing it gave. -/
structure Served (topic : String) (event : Event) (exchanges : List Exchange)
    (result : Except Fault Unit) : Prop where
  commands : ∀ exchange ∈ exchanges, exchange.command = .publish topic event.encode
  once_or_twice : exchanges.length = 1 ∨ exchanges.length = 2
  twice_iff : exchanges.length = 2 ↔ exchanges.head?.map Exchange.reply = some .dropped
  ok_iff : result = .ok () ↔
    ∃ count, exchanges.getLast?.map Exchange.reply = some (.receivers count)
  failed : result ≠ .ok () → ∃ reason, result = .error (.publish reason)

variable {topic : String} {event : Event} {script : List Reply} {sender : Sender}

/-! One event. -/

theorem result_eq_ok_iff {reply : Reply} :
    result reply = .ok () ↔ ∃ count, reply = .receivers count := by
  cases reply <;> simp [result]

theorem exists_reason {reply : Reply} (hfailed : result reply ≠ .ok ()) :
    ∃ reason, result reply = .error (.publish reason) := by
  cases reply with
  | receivers count => exact absurd rfl hfailed
  | errorLine line => exact ⟨_, rfl⟩
  | dropped => exact ⟨_, rfl⟩

theorem Served.once {reply : Reply} (hreply : reply ≠ .dropped) :
    Served topic event [⟨.publish topic event.encode, reply⟩] (result reply) where
  commands := by simp
  once_or_twice := .inl rfl
  twice_iff := by simp [hreply]
  ok_iff := by simp [result_eq_ok_iff]
  failed := exists_reason

theorem Served.twice (reply : Reply) :
    Served topic event
      [⟨.publish topic event.encode, .dropped⟩, ⟨.publish topic event.encode, reply⟩]
      (result reply) where
  commands := by simp
  once_or_twice := .inr rfl
  twice_iff := by simp
  ok_iff := by simp [result_eq_ok_iff]
  failed := exists_reason

namespace Sender

theorem publish_of_reachable (hreachable : sender.isReachable = true) (event : Event) :
    sender.publish event =
      let first := { sender with isConnected := true }.send event
      if first.1 = .dropped then (result (first.2.send event).1, (first.2.send event).2)
      else (result first.1, first.2) := by
  rw [publish, connect?, if_pos (by rw [hreachable, Bool.or_true])]

theorem publish_of_unreachable (hconnected : sender.isConnected = false)
    (hreachable : sender.isReachable = false) (event : Event) :
    sender.publish event = (.error (.connection refusedText), sender) := by
  simp [publish, connect?, hconnected, hreachable]

/-- The broker serves an event once, and a second time if it dropped the first connection. -/
theorem publish_served (hreachable : sender.isReachable = true) (event : Event) :
    ∃ exchanges result rest, Served sender.topic event exchanges result ∧
      sender.publish event = (result, { sender with
        isConnected := true, replies := rest, exchanges := sender.exchanges ++ exchanges }) ∧
      Broker.publish sender.topic event sender.replies =
        ⟨result, exchanges.map Exchange.command, rest⟩ := by
  rw [publish_of_reachable hreachable]
  obtain ⟨reply, rest, hanswer⟩ : ∃ reply rest, answer sender.replies = (reply, rest) := ⟨_, _, rfl⟩
  by_cases hreply : reply = .dropped
  case pos =>
    subst hreply
    refine ⟨_, _, (answer rest).2, .twice (answer rest).1, ?_, ?_⟩
    · simp [send, hanswer]
    · simp [Broker.publish, hanswer]
  case neg =>
    refine ⟨_, _, rest, .once hreply, ?_, ?_⟩
    · simp [send, hanswer, hreply]
    · cases reply <;> simp_all [Broker.publish]

/-! The replies of a script. -/

/-- Every command so far was replied to by the script, in its order. -/
structure InOrder (script : List Reply) (sender : Sender) : Prop where
  rest : sender.replies = script.drop sender.exchanges.length
  replied : ∀ (index : Nat) (exchange : Exchange), sender.exchanges[index]? = some exchange →
    exchange.reply = script[index]?.getD (.receivers 1)

theorem answer_drop (script : List Reply) (index : Nat) :
    answer (script.drop index) =
      (script[index]?.getD (.receivers 1), script.drop (index + 1)) := by
  rw [← List.head?_drop, ← List.tail_drop]
  cases script.drop index <;> rfl

theorem inOrder_start (topic : String) (isReachable : Bool) (script : List Reply) :
    (start topic isReachable script).InOrder script where
  rest := rfl
  replied := nofun

theorem InOrder.send (horder : sender.InOrder script) (event : Event) :
    (sender.send event).2.InOrder script := by
  simp only [Sender.send, horder.rest, answer_drop]
  constructor
  case rest => rw [List.length_append, List.length_singleton]
  case replied =>
    intro index exchange hexchange
    obtain hearlier | hlater := Nat.lt_or_ge index sender.exchanges.length
    · rw [List.getElem?_append_left hearlier] at hexchange
      exact horder.replied index exchange hexchange
    · rw [List.getElem?_append_right hlater, List.getElem?_singleton] at hexchange
      split at hexchange
      case isFalse => cases hexchange
      case isTrue hlast =>
        obtain rfl : index = sender.exchanges.length := by omega
        cases hexchange
        rfl

theorem InOrder.publish (horder : sender.InOrder script) (event : Event) :
    (sender.publish event).2.InOrder script := by
  rw [Sender.publish]
  split
  case h_1 => exact horder
  case h_2 connected hconnected =>
    rw [connect?, Option.ite_none_right_eq_some] at hconnected
    have hopened : connected.InOrder script := by
      obtain ⟨-, hconnected⟩ := hconnected
      cases hconnected
      exact ⟨horder.rest, horder.replied⟩
    dsimp only
    split
    case isTrue => exact (hopened.send event).send event
    case isFalse => exact hopened.send event

theorem InOrder.publishAll (horder : sender.InOrder script) (events : List Event) :
    (sender.publishAll events).2.InOrder script := by
  induction events generalizing sender with
  | nil => exact horder
  | cons event events ih => exact ih (horder.publish event)

/-! Runs. -/

/-- The broker serves the events one after another, each as if there were no others. -/
theorem publishAll_served (hreachable : sender.isReachable = true) (events : List Event) :
    ∃ served : List (List Exchange × Except Fault Unit),
      List.Forall₂ (fun event outcome => Served sender.topic event outcome.1 outcome.2) events
        served ∧
      (sender.publishAll events).1 = served.map Prod.snd ∧
      (sender.publishAll events).2.exchanges = sender.exchanges ++ served.flatMap Prod.fst ∧
      Broker.publishAll sender.topic events sender.replies =
        (served.map Prod.snd, (served.flatMap Prod.fst).map Exchange.command) := by
  induction events generalizing sender with
  | nil => exact ⟨[], .nil, rfl, (List.append_nil _).symm, rfl⟩
  | cons event events ih =>
      obtain ⟨exchanges, result, rest, hserved, hpublish, hbroker⟩ :=
        publish_served hreachable event
      obtain ⟨served, hlater, hresults, hexchanges, hbrokers⟩ := @ih { sender with
        isConnected := true, replies := rest, exchanges := sender.exchanges ++ exchanges } hreachable
      refine ⟨(exchanges, result) :: served, .cons hserved hlater, ?_, ?_, ?_⟩
      · rw [publishAll, hpublish, List.map_cons, ← hresults]
      · rw [publishAll, hpublish, List.flatMap_cons, ← List.append_assoc, ← hexchanges]
      · rw [Broker.publishAll, hbroker, hbrokers, List.flatMap_cons, List.map_append]
        rfl

theorem publishAll_of_unreachable (hconnected : sender.isConnected = false)
    (hreachable : sender.isReachable = false) (events : List Event) :
    sender.publishAll events = (publishUnreachable events, sender) := by
  induction events with
  | nil => rfl
  | cons event events ih =>
      rw [publishAll, publish_of_unreachable hconnected hreachable]
      dsimp only
      rw [ih]
      rfl

end Sender

/--
On a broker that takes connections, each event reaches it once, or twice if its first command was
answered by a drop, and nothing else does; publishing it succeeds if the last reply it got was a number
of receivers, and is a fault of publishing otherwise. The commands of all events follow one another,
and the script replies to them in its order. A broker that takes no connections receives nothing.
-/
theorem publishes_once_or_twice (topic : String) (events : List Event) (script : List Reply) :
    (let sent := (Sender.start topic true script).publishAll events
      ∃ served : List (List Exchange × Except Fault Unit),
        List.Forall₂ (fun event outcome => Served topic event outcome.1 outcome.2) events served ∧
        sent.1 = served.map Prod.snd ∧ sent.2.exchanges = served.flatMap Prod.fst ∧
        (∀ (index : Nat) (exchange : Exchange), sent.2.exchanges[index]? = some exchange →
          exchange.reply = script[index]?.getD (.receivers 1)) ∧
        publishAll topic events script = (sent.1, sent.2.exchanges.map Exchange.command)) ∧
    let sent := (Sender.start topic false script).publishAll events
    sent.1 = events.map (fun _ => .error (.connection refusedText)) ∧ sent.2.exchanges = [] ∧
      publishUnreachable events = sent.1 := by
  constructor
  · intro sent
    obtain ⟨served, hserved, hresults, hexchanges, hbroker⟩ :=
      @Sender.publishAll_served (.start topic true script) rfl events
    have horder : sent.2.InOrder script :=
      (Sender.inOrder_start topic true script).publishAll events
    refine ⟨served, hserved, hresults, hexchanges, horder.replied, ?_⟩
    rw [hresults, hexchanges]
    exact hbroker
  · rw [Sender.publishAll_of_unreachable rfl rfl]
    exact ⟨rfl, rfl, rfl⟩

end Herald.Channel.Broker
