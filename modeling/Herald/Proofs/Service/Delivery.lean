import Herald.Proofs.Service.Errands
import Herald.Proofs.Service.Pipeline

/-!
Deliveries to streams. An event that is addressed to a user is on record before a stream gets it, and
of the events that tell a user of one content at most one gets to the user's streams.
-/

namespace Herald

open Store (Tables)
open Dispatch (concerns)
open Live (Message Registry)

theorem Dispatch.concerns_of_none {event : Event}
    (hnone : NewNotification.ofEvent? event = none) (user content : Identifier) :
    concerns user content event = false := by
  rw [concerns, (ofEvent?_eq_none hnone).1]
  rfl

namespace Service

variable {initial : Tables} {queued : List Message} {events : List Event} {service : Service}
  {event : Event} {new : NewNotification}

/-! Publishing. -/

namespace Carries

/-- A row is added only if none is there, so that nothing has been told of its content yet. -/
theorem announced_withRow (hcarries : Carries initial queued events service)
    (hnew : NewNotification.ofEvent? event = some new)
    (hfree : service.tables.collides new = false) :
    ∃ events, Carries initial queued events ((service.withRow new).announced event) := by
  have hrows : service.tables.rows <+: (service.tables.add new).rows := List.prefix_append _ _
  refine (hcarries.withTables hrows).announced (service.tables.hasRecord_add hnew) ?_
  intro user content hconcerns
  obtain ⟨hrecipient, hcontent⟩ := Dispatch.concerns_iff.mp hconcerns
  obtain ⟨huser, hnewContent⟩ := Dispatch.ofEvent?_eq_some hnew
  rw [hcontent] at hnewContent
  obtain rfl : user = new.user := Option.some.inj (hrecipient.symm.trans huser)
  have hearlier := hcarries.once new.user content
  rw [Tables.about_of_free hfree hnewContent.symm] at hearlier
  change _ ≤ (service.tables.add new).about new.user content
  rw [service.tables.about_add hnewContent.symm]
  omega

theorem dispatched (hcarries : Carries initial queued events service) (event : Event) :
    ∃ events, Carries initial queued events (service.dispatched event) := by
  cases hnew : NewNotification.ofEvent? event with
  | none =>
      rw [dispatched_of_none hnew]
      refine hcarries.announced ?_ ?_
      · intro new hsome
        rw [hnew] at hsome
        nomatch hsome
      · intro user content hconcerns
        rw [Dispatch.concerns_of_none hnew] at hconcerns
        nomatch hconcerns
  | some new =>
      rcases settled_dispatched hnew service with hsame | ⟨hfree, hadded⟩
      · rw [hsame]
        exact ⟨events, hcarries⟩
      · rw [hadded]
        exact hcarries.announced_withRow hnew hfree

theorem foldl_dispatched (hcarries : Carries initial queued events service)
    (published : List Event) :
    ∃ events, Carries initial queued events (published.foldl Service.dispatched service) := by
  induction published generalizing events service with
  | nil => exact ⟨events, hcarries⟩
  | cons event published ih =>
      obtain ⟨events, hdispatched⟩ := hcarries.dispatched event
      exact ih hdispatched

end Carries

/-! Delivering. -/

/-- The streams once the first of the waiting events was pushed on them. -/
def withFirst (manager : Live.Manager) : List Event → Live.Manager
  | [] => manager
  | event :: _ => manager.handle event

namespace Carries

theorem nextPayload?_eq (hcarries : Carries initial queued events service) :
    service.nextPayload? = events.head?.map Event.encode := by
  rw [nextPayload?, hcarries.subscriptions, List.find?_cons_of_pos (by simp), Option.bind_some,
    List.head?_map]

end Carries

namespace Carries

/-- The service once its subscription received the first of what waits for it. -/
theorem deliver_eq (hcarries : Carries initial queued events service) :
    service.deliver = { service with
      topics := { service.topics with
        subscriptions :=
          [⟨service.listener, service.settings.topic, events.tail.map Event.encode⟩] }
      manager := withFirst service.manager events } := by
  rw [Service.deliver, hcarries.subscriptions, List.map_singleton, Channel.Subscription.advance,
    if_pos rfl, ← List.map_tail, hcarries.nextPayload?_eq]
  cases events with
  | nil => rfl
  | cons event rest =>
      simp only [List.head?_cons, Option.map_some, Option.bind_some, Event.toOption_decode_encode]
      rfl

theorem queuedBy_deliver (hcarries : Carries initial queued events service) :
    service.queuedBy .deliver =
      Registry.gains service.manager.registry (withFirst service.manager events).registry := by
  rw [queuedBy, Service.act, hcarries.deliver_eq]

end Carries

/-- An event is pushed on the streams of its recipient at most once. -/
theorem countP_gains_handle (manager : Live.Manager) (event : Event) (user content : Identifier) :
    (Registry.gains manager.registry (manager.handle event).registry).countP
        (Message.tells user content) ≤ if concerns user content event then 1 else 0 := by
  cases hconcerns : concerns user content event with
  | true =>
      have hrecipient := Event.recipientId?_eq_some_iff.mp (Dispatch.concerns_iff.mp hconcerns).1
      exact (manager.gains_handle_of_user hrecipient).countP_le.trans List.countP_le_length
  | false =>
      apply Nat.le_of_eq
      rw [if_neg Bool.false_ne_true, List.countP_eq_zero]
      intro message hmem htells
      rw [manager.eq_of_mem_gains_handle event message hmem] at htells
      exact absurd (hconcerns.symm.trans htells) Bool.false_ne_true

theorem Carries.deliver (hcarries : Carries initial queued events service) :
    Carries initial (queued ++ service.queuedBy .deliver) events.tail service.deliver where
  subscriptions := by rw [hcarries.deliver_eq]
  recorded event hevent := by
    rw [hcarries.deliver_eq]
    exact hcarries.recorded event (List.mem_of_mem_tail hevent)
  once user content := by
    have hearlier := hcarries.once user content
    rw [List.countP_append, hcarries.queuedBy_deliver, hcarries.deliver_eq]
    cases events with
    | nil =>
        rw [withFirst, Registry.gains_of_length_le fun _ => Nat.le_refl _]
        exact hearlier
    | cons event rest =>
        have hgains := countP_gains_handle service.manager event user content
        rw [List.countP_cons] at hearlier
        rw [withFirst, List.tail_cons]
        change _ ≤ service.tables.about user content
        omega

/-! Acts. -/

theorem openStream_run (user : Identifier) (service : Service) :
    ((openStream user).run service).2 =
      { service with manager := (service.manager.subscribe user).1 } :=
  congrArg Prod.snd (openStream_run_eq user service)

theorem queuedBy_of_manager_eq {act : Act} (hmanager : (service.act act).manager = service.manager) :
    service.queuedBy act = [] := by
  rw [queuedBy, hmanager]
  exact Registry.gains_of_length_le fun _ => Nat.le_refl _

/-- Only deliveries put notifications on streams. -/
theorem quiet_queuedBy {act : Act} (hact : act ≠ .deliver) (service : Service) :
    ∀ message ∈ service.queuedBy act, message.IsQuiet := by
  have hnone : service.queuedBy act = [] →
      ∀ message ∈ service.queuedBy act, message.IsQuiet := by
    intro hnil message hmem
    rw [hnil] at hmem
    exact absurd hmem List.not_mem_nil
  cases act with
  | publish events =>
      apply hnone
      apply queuedBy_of_manager_eq
      change ((publish events).run service).2.manager = service.manager
      rw [publish_run, manager_foldl_dispatched]
  | transact deeds => exact hnone (queuedBy_of_manager_eq (manager_transact deeds service))
  | deliver => exact absurd rfl hact
  | openStream user =>
      rw [queuedBy, act, openStream_run]
      have hfarewell : Message.IsQuiet .sessionExpired := fun _ heq => nomatch heq
      have hgreeting : ∀ name, Message.IsQuiet (.connected name) := fun _ _ heq => nomatch heq
      exact service.manager.holds_of_mem_gains_subscribe user hfarewell hgreeting
  | receive subscription => exact hnone (service.manager.gains_receive subscription)
  | read subscription => exact hnone (service.manager.gains_receiveAll subscription)
  | drop subscription => exact hnone (service.manager.gains_drop subscription)
  | sweep =>
      rintro message hmem event rfl
      nomatch service.manager.eq_of_mem_gains_sweep _ hmem
  | closeStore => exact hnone (queuedBy_of_manager_eq rfl)

theorem rows_act (service : Service) (act : Act) :
    service.tables.rows <+: (service.act act).tables.rows := by
  cases act with
  | publish events =>
      rw [Service.act, publish_run]
      exact rows_foldl_dispatched events service
  | transact deeds => exact rows_transact deeds service
  | openStream user =>
      apply rows_of_tables_eq
      rw [Service.act, openStream_run]
  | _ => exact List.prefix_refl _

theorem rows_run (service : Service) (acts : List Act) :
    service.tables.rows <+: (service.run acts).tables.rows := by
  induction acts generalizing service with
  | nil => exact List.prefix_refl _
  | cons act rest ih => exact (rows_act service act).trans (ih _)

theorem run_append (service : Service) (front back : List Act) :
    service.run (front ++ back) = (service.run front).run back :=
  List.foldl_append

namespace Carries

theorem transact (hcarries : Carries initial queued events service) (deeds : List Deed) :
    ∃ events, Carries initial queued events ((Service.transact deeds).run service).2 := by
  rcases transact_cases deeds service with hsame | hpublished
  · rw [hsame]
    exact ⟨events, hcarries⟩
  · obtain ⟨tables, hstate, hrows⟩ := state_work deeds 0 .empty service
    rw [hpublished]
    have hworked : Carries initial queued events (work deeds 0 .empty service).state := by
      rw [hstate]
      exact hcarries.withTables hrows
    exact hworked.foldl_dispatched _

theorem act_of_ne (hcarries : Carries initial queued events service) {act : Act}
    (hact : act ≠ .deliver) : ∃ events, Carries initial queued events (service.act act) := by
  cases act with
  | publish events =>
      rw [Service.act, publish_run]
      exact hcarries.foldl_dispatched events
  | transact deeds => exact hcarries.transact deeds
  | deliver => exact absurd rfl hact
  | openStream user =>
      rw [Service.act, openStream_run]
      exact ⟨events, hcarries.withManager _⟩
  | receive subscription => exact ⟨events, hcarries.withManager _⟩
  | read subscription => exact ⟨events, hcarries.withManager _⟩
  | drop subscription => exact ⟨events, hcarries.withManager _⟩
  | sweep => exact ⟨events, hcarries.withManager _⟩
  | closeStore => exact ⟨events, ⟨hcarries.subscriptions, hcarries.recorded, hcarries.once⟩⟩

theorem act (hcarries : Carries initial queued events service) (act : Act) :
    ∃ events, Carries initial (queued ++ service.queuedBy act) events (service.act act) := by
  by_cases hact : act = .deliver
  · subst hact
    exact ⟨events.tail, hcarries.deliver⟩
  · obtain ⟨events, hafter⟩ := hcarries.act_of_ne hact
    exact ⟨events, hafter.quietly (quiet_queuedBy hact service)⟩

theorem run (hcarries : Carries initial queued events service) (acts : List Act) :
    ∃ events, Carries initial (queued ++ service.queued acts) events (service.run acts) := by
  induction acts generalizing queued events service with
  | nil =>
      rw [Service.queued, List.append_nil]
      exact ⟨events, hcarries⟩
  | cons act rest ih =>
      obtain ⟨events, hafter⟩ := hcarries.act act
      rw [Service.queued, ← List.append_assoc]
      exact ih hafter

/-- Notifications that an act puts on streams are on record before. -/
theorem hasRecord_of_mem_queuedBy (hcarries : Carries initial queued events service) {act : Act}
    (hmem : .notification event ∈ service.queuedBy act) : service.tables.HasRecord event := by
  by_cases hact : act = .deliver
  · subst hact
    rw [hcarries.queuedBy_deliver] at hmem
    cases events with
    | nil =>
        rw [withFirst, Registry.gains_of_length_le fun _ => Nat.le_refl _] at hmem
        exact absurd hmem List.not_mem_nil
    | cons first rest =>
        cases service.manager.eq_of_mem_gains_handle first _ hmem
        exact hcarries.recorded event List.mem_cons_self
  · exact absurd rfl (quiet_queuedBy hact service _ hmem event)

theorem queued_le_one (hcarries : Carries initial queued events service) (acts : List Act)
    (user content : Identifier) :
    queued.countP (Message.tells user content) +
      (service.queued acts).countP (Message.tells user content) +
      initial.about user content ≤ 1 := by
  obtain ⟨waiting, hafter⟩ := hcarries.run acts
  have honce := hafter.once user content
  have hone := (service.run acts).tables.about_le_one user content
  rw [List.countP_append] at honce
  omega

end Carries

theorem carries_start (settings : Settings) (now : Nat) (tables : Tables) (historyLimit : Nat)
    (takesEvents : Bool) :
    Carries tables [] []
      (start settings now tables (Channel.Topics.withHistoryLimit historyLimit) takesEvents) where
  subscriptions := rfl
  recorded _ hevent := absurd hevent List.not_mem_nil
  once user content := by
    rw [List.countP_nil, List.countP_nil, Nat.zero_add]
    exact Nat.le_refl _

/--
Whatever a service does from its start on, a notification that is put on a stream for one user has its
row in the store from before then until the end, and no user is told of a content twice. What the
subscription receives is handed over at any point between the other acts.
-/
theorem recorded_then_pushed_once (settings : Settings) (now : Nat) (initial : Tables)
    (historyLimit : Nat) (takesEvents : Bool) :
    let service := start settings now initial (.withHistoryLimit historyLimit) takesEvents
    (∀ front act back event user, event.recipientId? = some user →
      .notification event ∈ (service.run front).queuedBy act →
        ∃ new id createdAt, NewNotification.ofEvent? event = some new ∧ new.user = user ∧
          new.recorded id createdAt ∈ (service.run front).tables.rows ∧
          new.recorded id createdAt ∈ (service.run (front ++ act :: back)).tables.rows) ∧
      ∀ acts user content,
        (service.queued acts).countP (Message.tells user content) +
          initial.about user content ≤ 1 := by
  intro service
  have hstart : Carries initial [] [] service := carries_start ..
  constructor
  · intro front act back event user hrecipient hmem
    obtain ⟨waiting, hfront⟩ := hstart.run front
    obtain ⟨new, id, createdAt, hnew, huser, hrow⟩ :=
      (hfront.hasRecord_of_mem_queuedBy hmem).exists_row hrecipient
    refine ⟨new, id, createdAt, hnew, huser, hrow, ?_⟩
    rw [run_append]
    exact (rows_run _ _).subset hrow
  · intro acts user content
    have honce := hstart.queued_le_one acts user content
    rw [List.countP_nil] at honce
    omega

/-! A comment is published twice while its post's author has a stream open. -/

def comment : Event :=
  .commentCreated Dispatch.author.id (.ofNat 7) (.ofNat 2) "post" "comment" .epoch

def authorService : Service :=
  start (.defaults "secret") 0 Dispatch.authorTables (.withHistoryLimit 8) true

def authorActs : List Act := [.openStream Dispatch.author.id, .publish [comment], .publish [comment]]

theorem recorded_then_pushed_once_of_repeated_comment :
    .notification comment ∈ (authorService.run authorActs).queuedBy .deliver ∧
      (∃ row ∈ (authorService.run authorActs).tables.rows,
        row.user = Dispatch.author.id ∧ row.content = some (.ofNat 7)) ∧
      (authorService.queued (authorActs ++ [.deliver, .deliver])).countP
        (Message.tells Dispatch.author.id (.ofNat 7)) = 1 := by
  obtain ⟨hrecorded, honce⟩ :=
    recorded_then_pushed_once (.defaults "secret") 0 Dispatch.authorTables 8 true
  have hmem : .notification comment ∈ (authorService.run authorActs).queuedBy .deliver := by
    decide +kernel
  refine ⟨hmem, ?_, Nat.le_antisymm ?_ ?_⟩
  · obtain ⟨new, id, createdAt, hnew, huser, hrow, _⟩ :=
      hrecorded authorActs .deliver [.deliver] comment Dispatch.author.id rfl hmem
    obtain rfl := Option.some.inj hnew
    exact ⟨_, hrow, rfl, rfl⟩
  · exact (Nat.le_add_right _ _).trans (honce (authorActs ++ [.deliver, .deliver]) _ _)
  · decide +kernel

end Service

end Herald
