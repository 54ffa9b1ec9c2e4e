import Herald.Channel.Broker
import Herald.Proofs.Except
import Herald.Proofs.Text.Octets

/-!
A subscriber and its broker, one act of the broker after another. The subscriber attempts to subscribe;
once it is accepted it takes payloads until its connection is dropped, and however an attempt ends, it
waits and makes another one. What it has done after a script is what the sessions of the script say.
-/

namespace Herald.Channel.Broker

/-- What an act delivers on an accepted subscription. -/
def Act.payload? : Act → Option (List UInt8)
  | .deliver payload => some payload
  | _ => none

structure Subscriber where
  topic : String
  /-- Whether its current attempt was accepted. -/
  isListening : Bool
  /-- The wait after its current attempt, unless that is accepted. -/
  due : Nat
  delivered : List Event
  commands : List Command
  waits : List Nat

namespace Subscriber

/-- A subscriber at its first attempt. -/
def start (topic : String) : Subscriber :=
  ⟨topic, false, Backoff.initial, [], [.subscribe topic], []⟩

/-- Waits after an attempt, and makes the next one. -/
def retry (subscriber : Subscriber) (succeeded : Bool) : Subscriber :=
  let wait := Backoff.wait subscriber.due succeeded
  { subscriber with
    isListening := false
    due := Backoff.next wait
    commands := subscriber.commands ++ [.subscribe subscriber.topic]
    waits := subscriber.waits ++ [wait] }

def handle (subscriber : Subscriber) (event : Event) : Subscriber :=
  { subscriber with delivered := subscriber.delivered ++ [event] }

/-- Takes a payload. One that is no text, or no event, is passed over. -/
def take (subscriber : Subscriber) (payload : List UInt8) : Subscriber :=
  let accepted := { subscriber with isListening := true }
  match Text.ofOctets? payload with
  | none => accepted
  | some text =>
    match Event.decode text with
    | .ok event => accepted.handle event
    | .error _ => accepted

/-- What ends an attempt: a drop in any case, the others only before it is accepted. -/
def isEndedBy (subscriber : Subscriber) : Act → Bool
  | .refuse | .hangUp => !subscriber.isListening
  | .deliver _ => false
  | .drop => true

def meet (subscriber : Subscriber) (act : Act) : Subscriber :=
  if subscriber.isEndedBy act then subscriber.retry (act = .drop) else subscriber.take act.payload

def run (subscriber : Subscriber) (script : List Act) : Subscriber := script.foldl meet subscriber

def listening (subscriber : Subscriber) : Listening :=
  ⟨subscriber.delivered, subscriber.commands, subscriber.waits⟩

variable {subscriber after : Subscriber} {earlier : List Event} {course : List Session}

theorem take_eq (subscriber : Subscriber) (payload : List UInt8) :
    subscriber.take payload = { subscriber with
      isListening := true
      delivered := subscriber.delivered ++ (eventOf? payload).toList } := by
  unfold take eventOf?
  cases Text.ofOctets? payload with
  | none => simp
  | some text =>
      cases hdecoded : Event.decode text with
      | ok event => simp [hdecoded, handle, Except.toOption]
      | error fault => simp [hdecoded, Except.toOption]

/-! What sessions say. -/

/-- What a subscriber has done once its current attempt and those after it have taken their course.
All but the first events of the current attempt are delivered after the earlier ones. -/
structure Completes (subscriber : Subscriber) (earlier : List Event) (course : List Session)
    (after : Subscriber) : Prop where
  delivered : after.delivered = earlier ++ course.flatMap Session.events
  commands : after.commands =
    subscriber.commands ++ course.tail.map fun _ => .subscribe subscriber.topic
  waits : after.waits =
    subscriber.waits ++ Backoff.waitsFrom subscriber.due (course.dropLast.map Session.isAccepted)

/-- An attempt that ends, before the attempts after it. -/
theorem Completes.cons {session : Session} (hcourse : course ≠ [])
    (hdelivered : subscriber.delivered = earlier ++ session.events)
    (hrest : (subscriber.retry session.isAccepted).Completes subscriber.delivered course after) :
    subscriber.Completes earlier (session :: course) after where
  delivered := by rw [hrest.delivered, hdelivered, List.flatMap_cons, List.append_assoc]
  commands := by
    obtain ⟨next, rest, rfl⟩ := List.exists_cons_of_ne_nil hcourse
    simp [hrest.commands, retry]
  waits := by
    rw [hrest.waits, List.dropLast_cons_of_ne_nil hcourse]
    simp [retry, Backoff.waitsFrom]

theorem sessions_ne_nil (script : List Act) :
    sessions script ≠ [] ∧ ∀ payloads, sessions.within payloads script ≠ [] := by
  induction script with
  | nil => exact ⟨by simp [sessions], fun _ => by simp [sessions.within]⟩
  | cons act rest ih => cases act with
    | _ => simp [sessions, sessions.within, ih.2]

theorem Completes.of_take {payload : List UInt8}
    (htaken : (subscriber.take payload).Completes earlier course after) :
    subscriber.Completes earlier course after := by
  rw [take_eq] at htaken
  exact ⟨htaken.delivered, htaken.commands, htaken.waits⟩

theorem Completes.refl {payloads : List (List UInt8)}
    (hdelivered : subscriber.delivered = earlier ++ payloads.filterMap eventOf?) :
    subscriber.Completes earlier [.accepted payloads] subscriber where
  delivered := by simp [hdelivered, Session.events]
  commands := by simp
  waits := by simp [Backoff.waitsFrom]

theorem meet_of_ended {act : Act} (hended : subscriber.isEndedBy act = true) :
    subscriber.meet act = subscriber.retry (act = .drop) :=
  if_pos hended

theorem meet_of_not_ended {act : Act} (hended : subscriber.isEndedBy act = false) :
    subscriber.meet act = subscriber.take act.payload :=
  if_neg (Bool.not_eq_true _ ▸ hended)

@[simp] theorem run_cons (subscriber : Subscriber) (act : Act) (rest : List Act) :
    subscriber.run (act :: rest) = (subscriber.meet act).run rest := rfl

/-- A script takes the course of its sessions, and so does one that goes on within a session. -/
theorem completes_run (script : List Act) :
    (∀ subscriber : Subscriber, subscriber.isListening = false →
        subscriber.Completes subscriber.delivered (sessions script) (subscriber.run script)) ∧
      ∀ (subscriber : Subscriber) (earlier : List Event) (payloads : List (List UInt8)),
        subscriber.isListening = true →
        subscriber.delivered = earlier ++ payloads.reverse.filterMap eventOf? →
        subscriber.Completes earlier (sessions.within payloads script) (subscriber.run script) := by
  induction script with
  | nil => exact ⟨fun _ _ => .refl (by simp), fun _ _ _ _ hdelivered => .refl hdelivered⟩
  | cons act rest ih =>
      obtain ⟨ihAttempt, ihWithin⟩ := ih
      have hnext := (sessions_ne_nil rest).1
      -- an act within a session that does not end it
      have hwithin (subscriber : Subscriber) (earlier : List Event) (payloads : List (List UInt8))
          (hended : subscriber.isEndedBy act = false)
          (hdelivered : subscriber.delivered = earlier ++ payloads.reverse.filterMap eventOf?) :
          subscriber.Completes earlier (sessions.within (act.payload :: payloads) rest)
            (subscriber.run (act :: rest)) := by
        rw [run_cons, meet_of_not_ended hended]
        apply Completes.of_take
        apply ihWithin _ _ _ (by rw [take_eq])
        rw [take_eq, hdelivered, List.reverse_cons, List.filterMap_append, List.append_assoc]
        cases hevent : eventOf? act.payload with
        | none => simp [hevent]
        | some event => simp [hevent]
      constructor
      · intro subscriber hattempt
        cases act with
        | refuse =>
            rw [run_cons, meet_of_ended (by simp [isEndedBy, hattempt])]
            exact .cons hnext (by simp [Session.events]) (ihAttempt _ rfl)
        | hangUp =>
            rw [run_cons, meet_of_ended (by simp [isEndedBy, hattempt])]
            exact .cons hnext (by simp [Session.events]) (ihAttempt _ rfl)
        | deliver payload =>
            exact hwithin subscriber subscriber.delivered [] rfl (by simp)
        | drop =>
            rw [run_cons, meet_of_ended rfl]
            exact .cons hnext (by simp [Session.events]) (ihAttempt _ rfl)
      · intro subscriber earlier payloads hlistening hdelivered
        cases act with
        | drop =>
            rw [run_cons, meet_of_ended rfl]
            exact .cons hnext (by simp [Session.events, hdelivered]) (ihAttempt _ rfl)
        | refuse =>
            exact hwithin subscriber earlier payloads (by simp [isEndedBy, hlistening]) hdelivered
        | hangUp =>
            exact hwithin subscriber earlier payloads (by simp [isEndedBy, hlistening]) hdelivered
        | deliver payload => exact hwithin subscriber earlier payloads rfl hdelivered

theorem listen_eq_listening (topic : String) (script : List Act) :
    listen topic (sessions script) = ((start topic).run script).listening := by
  have hcompletes := (completes_run script).1 (start topic) rfl
  obtain ⟨first, rest, hfirst⟩ := List.exists_cons_of_ne_nil (sessions_ne_nil script).1
  rw [listening, hcompletes.delivered, hcompletes.commands, hcompletes.waits, listen, hfirst]
  rfl

/-! Scripts. -/

theorem topic_meet (subscriber : Subscriber) (act : Act) :
    (subscriber.meet act).topic = subscriber.topic := by
  unfold meet
  split
  · rfl
  · rw [take_eq]

theorem topic_run (subscriber : Subscriber) (script : List Act) :
    (subscriber.run script).topic = subscriber.topic := by
  induction script generalizing subscriber with
  | nil => rfl
  | cons act rest ih => rw [run_cons, ih, topic_meet]

theorem eventOf?_nil : eventOf? [] = none := by decide

theorem delivered_meet (subscriber : Subscriber) (act : Act) :
    (subscriber.meet act).delivered =
      subscriber.delivered ++ (act.payload?.bind eventOf?).toList := by
  cases hended : subscriber.isEndedBy act with
  | true =>
      have hnone : act.payload? = none := by
        cases act with
        | deliver payload => nomatch hended
        | _ => rfl
      rw [meet_of_ended hended, hnone]
      simp [retry]
  | false =>
      rw [meet_of_not_ended hended, take_eq]
      cases act with
      | deliver payload => rfl
      | _ => simp [Act.payload, Act.payload?, eventOf?_nil]

theorem delivered_run (subscriber : Subscriber) (script : List Act) :
    (subscriber.run script).delivered =
      subscriber.delivered ++ (script.filterMap Act.payload?).filterMap eventOf? := by
  induction script generalizing subscriber with
  | nil => simp [run]
  | cons act rest ih =>
      rw [run_cons, ih, delivered_meet, List.append_assoc]
      cases hpayload : act.payload? with
      | none => simp [hpayload]
      | some payload =>
          cases hevent : eventOf? payload with
          | none => simp [hpayload, hevent]
          | some event => simp [hpayload, hevent]

theorem connection_meet (subscriber : Subscriber) (act : Act) :
    (subscriber.meet act).isListening = !subscriber.isEndedBy act ∧
      (subscriber.meet act).commands = subscriber.commands ++
        if subscriber.isEndedBy act then [.subscribe subscriber.topic] else [] := by
  cases hended : subscriber.isEndedBy act with
  | true => simp [meet_of_ended hended, retry]
  | false => simp [meet_of_not_ended hended, take_eq]

end Subscriber

open Subscriber

/-- The acts that make up a session that ends. -/
def Session.acts : Session → List Act
  | .refused => [.refuse]
  | .hungUp => [.hangUp]
  | .accepted payloads => payloads.map .deliver ++ [.drop]

theorem within_map_deliver (earlier payloads : List (List UInt8)) (rest : List Act) :
    sessions.within earlier (payloads.map .deliver ++ rest) =
      sessions.within (payloads.reverse ++ earlier) rest := by
  induction payloads generalizing earlier with
  | nil => rfl
  | cons payload payloads ih =>
      simp only [List.map_cons, List.cons_append, sessions.within, ih, Act.payload,
        List.reverse_cons, List.append_assoc, List.nil_append]

theorem sessions_map_deliver (payloads : List (List UInt8)) :
    sessions (payloads.map .deliver) = [.accepted payloads] := by
  cases payloads with
  | nil => rfl
  | cons payload payloads =>
      have hwithin := within_map_deliver [payload] payloads []
      rw [List.append_nil] at hwithin
      simp [sessions, hwithin, sessions.within]

theorem sessions_acts_append (session : Session) (rest : List Act) :
    sessions (session.acts ++ rest) = session :: sessions rest := by
  cases session with
  | refused => rfl
  | hungUp => rfl
  | accepted payloads =>
      cases payloads with
      | nil => rfl
      | cons payload payloads =>
          simp [Session.acts, sessions, within_map_deliver, sessions.within]

/-- Sessions of all kinds in any order have a script. -/
theorem sessions_flatMap_acts (ended : List Session) (payloads : List (List UInt8)) :
    sessions (ended.flatMap Session.acts ++ payloads.map .deliver) =
      ended ++ [.accepted payloads] := by
  induction ended with
  | nil => exact sessions_map_deliver payloads
  | cons session ended ih =>
      rw [List.flatMap_cons, List.append_assoc, sessions_acts_append, ih, List.cons_append]

theorem eventOf?_eq_some_iff {payload : List UInt8} {event : Event} :
    eventOf? payload = some event ↔
      ∃ text, Text.octets text = payload ∧ Event.decode text = .ok event := by
  simp only [eventOf?, Option.bind_eq_some_iff, Text.ofOctets?_eq_some_iff,
    Except.toOption_eq_some_iff]

/--
Whatever the broker does, the handler gets the events that its payloads spell, in order and each once.
A payload that is no text or no event changes nothing but that: it neither ends the subscription nor
leads to another attempt, whereas after every refusal, hang-up and drop there is another one. Scripts
come to all courses of sessions, and what is listened for is what the subscriber does.
-/
theorem subscriber_passes_over_bad_payloads (topic : String) (script : List Act) :
    let subscriber := (start topic).run script
    listen topic (sessions script) = subscriber.listening ∧
    subscriber.delivered = (script.filterMap Act.payload?).filterMap eventOf? ∧
    (∀ payload event, eventOf? payload = some event ↔
      ∃ text, Text.octets text = payload ∧ Event.decode text = .ok event) ∧
    (∀ payload, subscriber.meet (.deliver payload) = { subscriber with
      isListening := true
      delivered := subscriber.delivered ++ (eventOf? payload).toList }) ∧
    (∀ act, (subscriber.meet act).isListening = !subscriber.isEndedBy act ∧
      (subscriber.meet act).commands =
        subscriber.commands ++ if subscriber.isEndedBy act then [.subscribe topic] else []) ∧
    ∀ ended payloads, ∃ course, sessions course = ended ++ [.accepted payloads] := by
  intro subscriber
  refine ⟨listen_eq_listening topic script, delivered_run (start topic) script,
    fun _ _ => eventOf?_eq_some_iff, fun payload => ?_, fun act => ?_, fun ended payloads => ?_⟩
  · rw [meet_of_not_ended rfl, take_eq]
    rfl
  · have hconnection := subscriber.connection_meet act
    rw [show subscriber.topic = topic from topic_run (start topic) script] at hconnection
    exact hconnection
  · exact ⟨_, sessions_flatMap_acts ended payloads⟩

end Herald.Channel.Broker
