import Herald.Proofs.Dispatch.Phases
import Herald.Proofs.Live.Handling

/-!
Notifications and the events they come from. To whom an event is addressed can be told in several ways,
from the event, from the notification it becomes, from its text and from the streams it is pushed on; all
of them agree. A notification holds what its event says, and nothing else.
-/

namespace Herald.Event

open Json (Value named)
open Live (Manager)

variable {event : Event} {new : NewNotification} {user : Identifier} {condition : Prop} {name : String}

/-! To whom an event is addressed. -/

theorem ofEvent?_eq_none_iff :
    NewNotification.ofEvent? event = none ↔ event.recipientId? = none := by
  constructor
  · exact fun hnone => (Dispatch.ofEvent?_eq_none hnone).1
  · intro hrecipient
    exact Dispatch.ofEvent?_of_everyone (recipientId?_eq_none_iff.mp hrecipient)

theorem isPersisted_eq_false_iff :
    event.isPersisted = false ↔ NewNotification.ofEvent? event = none := by
  rw [← Dispatch.ofEvent?_isSome, Option.isSome_eq_false_iff, Option.isNone_iff_eq_none]

theorem recipientId?_eq_some_iff_ofEvent? : event.recipientId? = some user ↔
    event.isPersisted = true ∧ ∃ new, NewNotification.ofEvent? event = some new ∧ new.user = user := by
  constructor
  · intro hrecipient
    cases hnew : NewNotification.ofEvent? event with
    | none =>
        rw [ofEvent?_eq_none_iff.mp hnew] at hrecipient
        cases hrecipient
    | some new =>
        refine ⟨?_, new, rfl, ?_⟩
        · rw [← Dispatch.ofEvent?_isSome, hnew]
          rfl
        · have huser := (Dispatch.ofEvent?_eq_some hnew).1
          exact Option.some.inj (huser.symm.trans hrecipient)
  · rintro ⟨-, new, hnew, rfl⟩
    exact (Dispatch.ofEvent?_eq_some hnew).1

theorem tfae_addressed (event : Event) (user : Identifier) :
    [event.recipient = .user user,
      event.recipientId? = some user,
      event.isPersisted = true ∧
        ∃ new, NewNotification.ofEvent? event = some new ∧ new.user = user,
      named "recipient" event.document = [.text user.text],
      ∀ manager : Manager,
        manager.handle event = (manager.send user (.notification event)).1].TFAE := by
  tfae_have 1 ↔ 2 := recipientId?_eq_some_iff.symm
  tfae_have 2 ↔ 3 := recipientId?_eq_some_iff_ofEvent?
  tfae_have 1 ↔ 4 := named_recipient_eq_text_iff.symm
  tfae_have 1 ↔ 5 := Manager.recipient_eq_user_iff_handle
  tfae_finish

theorem tfae_unaddressed (event : Event) :
    [event.recipient = .everyone,
      event.recipientId? = none,
      event.isPersisted = false,
      NewNotification.ofEvent? event = none,
      named "recipient" event.document = [.null],
      ∀ manager : Manager,
        manager.handle event = (manager.broadcast (.notification event)).1].TFAE := by
  tfae_have 1 ↔ 2 := recipientId?_eq_none_iff.symm
  tfae_have 2 ↔ 4 := ofEvent?_eq_none_iff.symm
  tfae_have 3 ↔ 4 := isPersisted_eq_false_iff
  tfae_have 1 ↔ 5 := named_recipient_eq_null_iff.symm
  tfae_have 1 ↔ 6 := Manager.recipient_eq_everyone_iff_handle
  tfae_finish

/-! What a notification takes over. -/

/-- Part of a notification: there just on the condition, and then the event's field with the name. -/
structure Supplies (event : Event) (condition : Prop) (name : String) (part : Option FieldValue) :
    Prop where
  isSome_iff : part.isSome = true ↔ condition
  field : ∀ value ∈ part, event.field? name = some value

/-- The notification says what the event does. -/
structure Recounts (event : Event) (new : NewNotification) : Prop where
  type : new.type.name = event.kind.name
  content : new.content = event.contentId?
  contentField : new.content.map .id = (event.field? "comment_id").or (event.field? "reply_id")
  content_isSome_iff : event.contentId?.isSome = true ↔
    event.kind = .commentCreated ∨ event.kind = .replyCreated
  post : event.Supplies (event.contentId?.isSome = true) "post_id" (new.post.map .id)
  postTitle : event.Supplies (event.contentId?.isSome = true) "post_title" (new.postTitle.map .text)
  commentContent :
    event.Supplies (event.contentId?.isSome = true) "content" (new.commentContent.map .text)
  reason : event.Supplies (event.kind = .reviewRejected) "reason" (new.reason.map .text)

theorem Supplies.present {value : FieldValue} (hcondition : condition)
    (hfield : event.field? name = some value) : event.Supplies condition name (some value) where
  isSome_iff := iff_of_true rfl hcondition
  field _ hmem := hfield.trans hmem

theorem Supplies.absent (hcondition : ¬condition) : event.Supplies condition name none where
  isSome_iff := iff_of_false Bool.false_ne_true hcondition
  field _ hmem := nomatch hmem

theorem contentId?_isSome_iff : event.contentId?.isSome = true ↔
    event.kind = .commentCreated ∨ event.kind = .replyCreated := by
  cases event <;> simp [contentId?, kind]

theorem recounts_of_ofEvent? (hnew : NewNotification.ofEvent? event = some new) :
    event.Recounts new := by
  have hcontent := (Dispatch.ofEvent?_eq_some hnew).2.symm
  cases event with
  | reviewApproved recipient occurredAt =>
      cases hnew
      exact ⟨rfl, hcontent, rfl, contentId?_isSome_iff, .absent Bool.false_ne_true,
        .absent Bool.false_ne_true, .absent Bool.false_ne_true, .absent nofun⟩
  | reviewRejected recipient reason occurredAt =>
      cases hnew
      exact ⟨rfl, hcontent, rfl, contentId?_isSome_iff, .absent Bool.false_ne_true,
        .absent Bool.false_ne_true, .absent Bool.false_ne_true, .present rfl rfl⟩
  | commentCreated recipient comment post postTitle content occurredAt =>
      cases hnew
      exact ⟨rfl, hcontent, rfl, contentId?_isSome_iff, .present rfl rfl, .present rfl rfl,
        .present rfl rfl, .absent nofun⟩
  | replyCreated recipient reply post postTitle content occurredAt =>
      cases hnew
      exact ⟨rfl, hcontent, rfl, contentId?_isSome_iff, .present rfl rfl, .present rfl rfl,
        .present rfl rfl, .absent nofun⟩
  | postCreated | postDeleted | commentAdded | commentDeleted => cases hnew

/-- The types of notifications have the names of those kinds of events that become notifications. -/
theorem ofName?_kind (event : Event) : NotificationType.ofName? event.kind.name =
    (NewNotification.ofEvent? event).map NewNotification.type := by
  cases event <;> rfl

/--
The text of an event is one record of its tag and its fields. That an event is addressed to a user is
told alike by its recipient, by the notification it becomes, by its text and by the streams it is pushed
on; so it is told that an event is for everyone. A notification has the type that the tag names and the
parts that its event has, and while its event is handled the streams of other users are left alone.
-/
theorem classifications_agree (event : Event) :
    ∃ members, Json.Spells event.encode (.record members) ∧
      named tagName members = [.text event.kind.name] ∧
      (∀ name ≠ tagName,
        named name members = ((event.field? name).map FieldValue.document).toList) ∧
      (∀ user,
        [event.recipient = .user user,
          event.recipientId? = some user,
          event.isPersisted = true ∧
            ∃ new, NewNotification.ofEvent? event = some new ∧ new.user = user,
          named "recipient" members = [.text user.text],
          ∀ manager : Manager,
            manager.handle event = (manager.send user (.notification event)).1].TFAE) ∧
      [event.recipient = .everyone,
        event.recipientId? = none,
        event.isPersisted = false,
        NewNotification.ofEvent? event = none,
        named "recipient" members = [.null],
        ∀ manager : Manager,
          manager.handle event = (manager.broadcast (.notification event)).1].TFAE ∧
      NotificationType.ofName? event.kind.name =
        (NewNotification.ofEvent? event).map NewNotification.type ∧
      ∀ new, NewNotification.ofEvent? event = some new →
        named tagName members = [.text new.type.name] ∧ event.Recounts new ∧
          ∀ manager : Manager, manager.registry.Spares new.user (manager.handle event).registry := by
  refine ⟨event.document, spells_encode event, named_tagName_document event,
    fun _ hname => named_document hname event, tfae_addressed event, tfae_unaddressed event,
    ofName?_kind event, ?_⟩
  intro new hnew
  have hrecounts := recounts_of_ofEvent? hnew
  have hrecipient := recipientId?_eq_some_iff.mp (Dispatch.ofEvent?_eq_some hnew).1
  refine ⟨?_, hrecounts, Manager.spares_handle hrecipient⟩
  rw [hrecounts.type, named_tagName_document]

/-! A reply that mentions a user. -/

def mention : Event :=
  .replyCreated (.ofNat 2) (.ofNat 5) (.ofNat 7) "weekend hike?" "count \"me\" in" .epoch

def mentioned : NewNotification where
  user := .ofNat 2
  type := .replyCreated
  post := some (.ofNat 7)
  postTitle := some "weekend hike?"
  commentContent := some "count \"me\" in"
  content := some (.ofNat 5)

theorem classifications_agree_of_mention :
    NewNotification.ofEvent? mention = some mentioned ∧
      ∃ members, Json.Spells mention.encode (.record members) ∧
        named tagName members = [.text "REPLY_CREATED"] ∧
        named "recipient" members = [.text mentioned.user.text] ∧
        named "content" members = [.text "count \"me\" in"] ∧
        mention.Recounts mentioned ∧
        (∀ manager : Manager,
          manager.handle mention = (manager.send mentioned.user (.notification mention)).1) ∧
        ∀ manager : Manager,
          manager.registry.Spares mentioned.user (manager.handle mention).registry := by
  obtain ⟨members, hspells, -, hfields, haddressed, -, -, hnotified⟩ := classifications_agree mention
  obtain ⟨htag, hrecounts, hspares⟩ := hnotified mentioned rfl
  have hrecipient : mention.recipient = .user mentioned.user := rfl
  exact ⟨rfl, members, hspells, htag, ((haddressed _).out 0 3).mp hrecipient,
    hfields "content" (by decide), hrecounts, ((haddressed _).out 0 4).mp hrecipient, hspares⟩

end Herald.Event
