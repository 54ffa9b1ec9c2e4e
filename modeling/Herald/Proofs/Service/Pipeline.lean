import Herald.Proofs.Channel.Backlog
import Herald.Proofs.Dispatch.RaceOutcome
import Herald.Proofs.Live.Additions
import Herald.Proofs.Service.Publishing
import Herald.Service.Respond

/-!
The pipeline of a service from the store to the streams. What a service has queued, what still waits
for its subscription and what the store held at the start are counted against the rows of the store:
whatever a service does, no content is told more often than there is a row for it.
-/

namespace Herald

open Store (Tables)
open Dispatch (concerns)
open Live (Message Registry)

/-! What a service does. -/

/-- Hands the oldest waiting payload to the handler of a subscription. -/
def Channel.Subscription.advance (key : Nat) (subscription : Channel.Subscription) :
    Channel.Subscription :=
  if subscription.key = key then { subscription with waiting := subscription.waiting.tail }
  else subscription

namespace Service

/-- The payload that the subscription of a service receives next. -/
def nextPayload? (service : Service) : Option String :=
  (service.topics.subscriptions.find? (·.key = service.listener)).bind (·.waiting.head?)

/-- Lets the subscription receive one payload. One that spells no event is passed over. -/
def deliver (service : Service) : Service :=
  { service with
    topics := { service.topics with
      subscriptions :=
        service.topics.subscriptions.map (Channel.Subscription.advance service.listener) }
    manager := match service.nextPayload?.bind fun payload => (Event.decode payload).toOption with
      | some event => service.manager.handle event
      | none => service.manager }

inductive Act
  | publish (events : List Event)
  | transact (deeds : List Deed)
  | deliver
  | openStream (user : Identifier)
  | receive (subscription : Live.Subscription)
  | read (subscription : Live.Subscription)
  | drop (subscription : Live.Subscription)
  | sweep
  | closeStore

def act (service : Service) : Act → Service
  | .publish events => ((publish events).run service).2
  | .transact deeds => ((transact deeds).run service).2
  | .deliver => service.deliver
  | .openStream user => ((openStream user).run service).2
  | .receive subscription => { service with manager := (service.manager.receive subscription).1 }
  | .read subscription => { service with manager := (service.manager.receiveAll subscription).1 }
  | .drop subscription => ((dropStream subscription).run service).2
  | .sweep => { service with manager := service.manager.sweep.1 }
  | .closeStore => (closeStore.run service).2

def run (service : Service) (acts : List Act) : Service := acts.foldl act service

/-- The messages that an act puts on streams. -/
def queuedBy (service : Service) (act : Act) : List Message :=
  Registry.gains service.manager.registry (service.act act).manager.registry

/-- The messages that acts put on streams, act by act. -/
def queued (service : Service) : List Act → List Message
  | [] => []
  | act :: rest => service.queuedBy act ++ (service.act act).queued rest

end Service

/-! What is told, and what is on record. -/

namespace Live.Message

/-- Whether a message tells a user of a content. -/
def tells (user content : Identifier) : Message → Bool
  | .notification event => concerns user content event
  | _ => false

def IsQuiet (message : Message) : Prop := ∀ event, message ≠ .notification event

theorem countP_tells_of_quiet {messages : List Message}
    (hquiet : ∀ message ∈ messages, message.IsQuiet) (user content : Identifier) :
    messages.countP (tells user content) = 0 := by
  rw [List.countP_eq_zero]
  intro message hmem htells
  cases message with
  | notification event => exact hquiet _ hmem event rfl
  | _ => exact absurd htells Bool.false_ne_true

end Live.Message

namespace Store.Tables

variable {tables after : Tables} {user content : Identifier} {event : Event}
  {new : NewNotification}

/-- Whether the row that an event is recorded as is there, for events that are recorded. -/
def HasRecord (tables : Tables) (event : Event) : Prop :=
  ∀ new, NewNotification.ofEvent? event = some new →
    ∃ id createdAt, new.recorded id createdAt ∈ tables.rows

theorem HasRecord.mono (hrecord : tables.HasRecord event)
    (hrows : tables.rows <+: after.rows) : after.HasRecord event := by
  intro new hnew
  obtain ⟨id, createdAt, hmem⟩ := hrecord new hnew
  exact ⟨id, createdAt, hrows.subset hmem⟩

/-- An event for a user is recorded, so that its row is there. -/
theorem HasRecord.exists_row (hrecord : tables.HasRecord event)
    (hrecipient : event.recipientId? = some user) :
    ∃ new id createdAt, NewNotification.ofEvent? event = some new ∧ new.user = user ∧
      new.recorded id createdAt ∈ tables.rows := by
  cases hnew : NewNotification.ofEvent? event with
  | none =>
      rw [(Dispatch.ofEvent?_eq_none hnew).1] at hrecipient
      nomatch hrecipient
  | some new =>
      obtain ⟨id, createdAt, hrow⟩ := hrecord new hnew
      have huser := (Dispatch.ofEvent?_eq_some hnew).1.symm.trans hrecipient
      exact ⟨new, id, createdAt, rfl, Option.some.inj huser, hrow⟩

/-- One if there is a row of a user about a content, and zero if not. -/
def about (tables : Tables) (user content : Identifier) : Nat :=
  if tables.hasContent user content then 1 else 0

theorem about_of_hasContent (hcontent : tables.hasContent user content = true) :
    tables.about user content = 1 :=
  if_pos hcontent

theorem about_eq_zero (hnone : tables.hasContent user content = false) :
    tables.about user content = 0 :=
  if_neg (by rw [hnone]; exact Bool.false_ne_true)

theorem about_le_one (tables : Tables) (user content : Identifier) :
    tables.about user content ≤ 1 := by
  rw [about]
  split
  · exact Nat.le_refl _
  · exact Nat.zero_le _

/-- A row that is about to be added is the first of its user about its content. -/
theorem about_of_free (hfree : tables.collides new = false) (hcontent : new.content = some content) :
    tables.about new.user content = 0 := by
  apply about_eq_zero
  rw [← Bool.not_eq_true] at hfree ⊢
  exact fun hrow => hfree (collides_iff.mpr ⟨content, hcontent, hrow⟩)

theorem about_add (tables : Tables) (hcontent : new.content = some content) :
    (tables.add new).about new.user content = 1 := by
  apply about_of_hasContent
  rw [hasContent, List.any_eq_true]
  exact ⟨tables.nextRow new, List.mem_append_right _ List.mem_cons_self,
    isAbout_nextRow_iff.mpr ⟨rfl, hcontent⟩⟩

theorem about_mono (hrows : tables.rows <+: after.rows) (user content : Identifier) :
    tables.about user content ≤ after.about user content := by
  cases hcontent : tables.hasContent user content with
  | false =>
      rw [about_eq_zero hcontent]
      exact Nat.zero_le _
  | true =>
      obtain ⟨gained, hafter⟩ := hrows
      have hstill := hasContent_of_rows_append hafter.symm hcontent
      exact Nat.le_of_eq ((about_of_hasContent hcontent).trans (about_of_hasContent hstill).symm)

theorem hasRecord_add (tables : Tables) (hnew : NewNotification.ofEvent? event = some new) :
    (tables.add new).HasRecord event := by
  intro other hother
  obtain rfl : new = other := Option.some.inj (hnew.symm.trans hother)
  exact ⟨_, _, List.mem_append_right _ List.mem_cons_self⟩

end Store.Tables

/-! What every act preserves. -/

namespace Service

variable {initial : Tables} {queued : List Message} {events : List Event} {service : Service}
  {event : Event}

/-- The events wait for the subscription of the service, and are accounted for in its store. -/
structure Carries (initial : Tables) (queued : List Message) (events : List Event)
    (service : Service) : Prop where
  subscriptions : service.topics.subscriptions =
    [⟨service.listener, service.settings.topic, events.map Event.encode⟩]
  recorded : ∀ event ∈ events, service.tables.HasRecord event
  once : ∀ user content,
    events.countP (concerns user content) + queued.countP (Message.tells user content) +
      initial.about user content ≤ service.tables.about user content

namespace Carries

theorem withTables (hcarries : Carries initial queued events service) {tables : Tables}
    (hrows : service.tables.rows <+: tables.rows) :
    Carries initial queued events { service with tables } where
  subscriptions := hcarries.subscriptions
  recorded event hevent := (hcarries.recorded event hevent).mono hrows
  once user content := Nat.le_trans (hcarries.once user content) (Tables.about_mono hrows user content)

theorem withManager (hcarries : Carries initial queued events service) (manager : Live.Manager) :
    Carries initial queued events { service with manager } :=
  ⟨hcarries.subscriptions, hcarries.recorded, hcarries.once⟩

theorem quietly (hcarries : Carries initial queued events service) {more : List Message}
    (hquiet : ∀ message ∈ more, message.IsQuiet) :
    Carries initial (queued ++ more) events service where
  subscriptions := hcarries.subscriptions
  recorded := hcarries.recorded
  once user content := by
    rw [List.countP_append, Message.countP_tells_of_quiet hquiet, Nat.add_zero]
    exact hcarries.once user content

/-! Handing an event to the channel. -/

theorem subscriptions_announced (hcarries : Carries initial queued events service)
    (htakes : service.takesEvents = true) (event : Event) :
    (service.announced event).topics.subscriptions =
      [⟨service.listener, service.settings.topic,
        (Channel.latest Channel.Subscription.capacity (events ++ [event])).map Event.encode⟩] := by
  rw [announced, answer, if_pos htakes]
  change (service.topics.subscriptions.map
    (Channel.Subscription.offer service.settings.topic event.encode)) = _
  rw [hcarries.subscriptions, List.map_singleton, Channel.Subscription.offer, if_pos rfl,
    ← Channel.latest_map, List.map_append, List.map_singleton]

theorem announced (hcarries : Carries initial queued events service)
    (hrecord : service.tables.HasRecord event)
    (honce : ∀ user content, concerns user content event = true →
      events.countP (concerns user content) + 1 + queued.countP (Message.tells user content) +
        initial.about user content ≤ service.tables.about user content) :
    ∃ events, Carries initial queued events (service.announced event) := by
  cases htakes : service.takesEvents with
  | false =>
      rw [announced_of_refused htakes]
      exact ⟨events, hcarries⟩
  | true =>
      refine ⟨Channel.latest Channel.Subscription.capacity (events ++ [event]), ?_, ?_, ?_⟩
      · rw [hcarries.subscriptions_announced htakes, Service.announced, answer, if_pos htakes]
      · intro other hother
        rw [tables_announced]
        rcases List.mem_append.mp ((Channel.latest_sublist _ _).subset hother) with hearlier | hlast
        · exact hcarries.recorded other hearlier
        · rw [List.mem_singleton.mp hlast]
          exact hrecord
      · intro user content
        rw [tables_announced]
        have hcount := (Channel.latest_sublist Channel.Subscription.capacity
          (events ++ [event])).countP_le (p := concerns user content)
        rw [List.countP_append, List.countP_singleton] at hcount
        have hearlier := hcarries.once user content
        split at hcount
        case isTrue hconcerns =>
          have hroom := honce user content hconcerns
          omega
        case isFalse => omega

end Carries

end Service

end Herald
