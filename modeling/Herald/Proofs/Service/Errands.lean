import Herald.Proofs.Live.Sights
import Herald.Proofs.Store.Ownership
import Herald.Service.Respond

/-!
What the requests of a user come down to: a plan about that user's rows, or a new stream. Which one it
is depends on the request and its user alone, and not on what the service holds.
-/

namespace Herald.Service

open Http (Request Response Route)
open Store (Attempt Plan Tables)

variable {α : Type} {service : Service} {settings : Settings} {now : Nat} {user : Identifier}
  {request : Request} {route : Route} {errand : Errand}

namespace Errand

/-- Runs the errand of a request, which may be for the head alone. -/
def run (isHead : Bool) (errand : Errand) : StateM Service Reply := do
  let reply ← errand.reply
  if isHead then onlyHead reply else pure reply

/-- Whether an errand is about the user's rows and streams alone. -/
def IsOwn (user : Identifier) : Errand → Prop
  | .consult plan => ∀ tables : Tables, tables.Keyed → plan.Within user tables
  | .listen owner => user = owner

theorem isOwn_ofResponse (user : Identifier) (response : Response) :
    (ofResponse response).IsOwn user :=
  fun tables _ => .done tables response

theorem isOwn_ofAttempt {attempt : Attempt α} (print : α → String)
    (hwithin : ∀ tables : Tables, tables.Keyed → Plan.Within user tables attempt.run) :
    (ofAttempt attempt print).IsOwn user :=
  fun tables hkeyed => (hwithin tables hkeyed).bind fun _ after => .done after _

end Errand

/-! Plans on the tables of a service. -/

theorem perform_of_within {plan : Plan α} (hwithin : plan.Within user service.tables) :
    (perform plan).run service = ((plan.run Tables.serve service.tables).1,
      { service with tables := (plan.run Tables.serve service.tables).2 }) := by
  generalize htables : service.tables = tables at hwithin
  induction hwithin generalizing service with
  | done tables value =>
      subst htables
      rfl
  | query hstatement hnext ih =>
      subst htables
      exact ih rfl

/-! The outcomes of errands. -/

def headed (isHead : Bool) (response : Response) : Response :=
  if isHead then response.withoutBody else response

theorem run_consult {plan : Plan Response} (hwithin : plan.Within user service.tables)
    (isHead : Bool) :
    ((Errand.consult plan).run isHead).run service =
      (.of (headed isHead (plan.run Tables.serve service.tables).1),
        { service with tables := (plan.run Tables.serve service.tables).2 }) := by
  have hreply : (Errand.consult plan).reply.run service =
      (.of (plan.run Tables.serve service.tables).1,
        { service with tables := (plan.run Tables.serve service.tables).2 }) := by
    change (Reply.of ((perform plan).run service).1, ((perform plan).run service).2) = _
    rw [perform_of_within hwithin]
  rw [Errand.run, StateT.run_bind, hreply]
  cases isHead with
  | false => rfl
  | true => rfl

/-- The reply to who asks for a stream. -/
def streamReply : Except Live.HandshakeFailed Live.Subscription → Reply
  | .ok subscription => ⟨.eventStream, some subscription⟩
  | .error _ => .of (.plain 500 "INTERNAL SERVER ERROR")

theorem openStream_run_eq (user : Identifier) (service : Service) :
    (openStream user).run service = (streamReply (service.manager.subscribe user).2,
      { service with manager := (service.manager.subscribe user).1 }) := by
  simp only [openStream, StateT.run_bind, StateT.run_get, pure_bind, StateT.run_modify]
  cases (service.manager.subscribe user).2 with
  | ok subscription => rfl
  | error failure => rfl

theorem openStream_run_of_sound (hsound : service.manager.Sound) (user : Identifier) :
    (openStream user).run service =
      (⟨.eventStream, some (service.manager.nextSubscription user)⟩,
        { service with manager := service.manager.subscribed user }) := by
  rw [openStream_run_eq, Live.Manager.subscribe_eq hsound.capacity hsound.covered user]
  rfl

theorem run_listen (hsound : service.manager.Sound) (user : Identifier) :
    ((Errand.listen user).run false).run service =
      (⟨.eventStream, some (service.manager.nextSubscription user)⟩,
        { service with manager := service.manager.subscribed user }) := by
  rw [Errand.run, Errand.reply, StateT.run_bind, openStream_run_of_sound hsound]
  rfl

/-- Asking for the head of a stream opens it and lets go of it. -/
theorem run_listen_head (hsound : service.manager.Sound) (user : Identifier) :
    ((Errand.listen user).run true).run service =
      (.of Response.eventStream.withoutBody,
        { service with manager := service.manager.glimpsed user }) := by
  rw [Errand.run, Errand.reply, StateT.run_bind, openStream_run_of_sound hsound]
  rfl

/-! The errands of users. -/

theorem isOwn_history (user : Identifier) (request : Request) : (history user request).IsOwn user := by
  rw [history]
  split
  · exact Errand.isOwn_ofResponse user _
  · exact Errand.isOwn_ofAttempt _ fun tables _ => History.within_list user _ _ tables

theorem isOwn_unreadCount (user : Identifier) : (unreadCount user).IsOwn user :=
  Errand.isOwn_ofAttempt _ fun tables _ => History.within_countUnread user tables

theorem isOwn_markRead (user : Identifier) (segment : String) :
    (markRead user segment).IsOwn user := by
  rw [markRead]
  split
  · exact Errand.isOwn_ofResponse user _
  · exact Errand.isOwn_ofAttempt _ fun tables hkeyed => History.within_markRead user _ hkeyed

theorem isOwn_markAllRead (user : Identifier) : (markAllRead user).IsOwn user :=
  Errand.isOwn_ofAttempt _ fun tables _ => History.within_markAllRead user tables

theorem withUser_of_user {next : Identifier → Errand}
    (huser : request.user? settings.tokenSecret now = some user) :
    withUser settings now request next = next user := by
  rw [withUser, huser]

theorem exists_errand?_eq (user : Identifier) (request : Request) (hroute : route ≠ .events) :
    ∃ errand : Errand, errand.IsOwn user ∧ ∀ settings now,
      request.user? settings.tokenSecret now = some user →
        errand? settings now request route = some errand := by
  cases route with
  | health => exact ⟨_, Errand.isOwn_ofResponse user _, fun _ _ _ => rfl⟩
  | document => exact ⟨_, Errand.isOwn_ofResponse user _, fun _ _ _ => rfl⟩
  | events => exact absurd rfl hroute
  | history =>
      exact ⟨_, isOwn_history user request, fun _ _ huser => congrArg some (withUser_of_user huser)⟩
  | unreadCount =>
      exact ⟨_, isOwn_unreadCount user, fun _ _ huser => congrArg some (withUser_of_user huser)⟩
  | markRead segment =>
      exact ⟨_, isOwn_markRead user segment, fun _ _ huser => congrArg some (withUser_of_user huser)⟩
  | markAllRead =>
      exact ⟨_, isOwn_markAllRead user, fun _ _ huser => congrArg some (withUser_of_user huser)⟩
  | stream => exact ⟨.listen user, rfl, fun _ _ huser => congrArg some (withUser_of_user huser)⟩

/-! Requests. -/

theorem respond_run (hpath : Route.ofPath? request.path = some route)
    (hmethod : request.method ∈ route.methods)
    (herrand : errand? service.settings service.now request route = some errand) :
    (respond request).run service = (errand.run (request.method = "HEAD")).run service := by
  have hfollow : (follow route request).run service = errand.reply.run service := by
    simp only [follow, StateT.run_bind, StateT.run_get, pure_bind, herrand]
  rw [respond, hpath]
  simp only [if_pos hmethod, StateT.run_bind, hfollow, Errand.run, decide_eq_true_eq]

/-- What a user's request does is an errand of that user, the same one for every service. -/
theorem exists_errand (user : Identifier) (request : Request)
    (hroute : Route.ofPath? request.path ≠ some .events) :
    ∃ (errand : Errand) (isHead : Bool), errand.IsOwn user ∧ ∀ service : Service,
      request.user? service.settings.tokenSecret service.now = some user →
        (respond request).run service = (errand.run isHead).run service := by
  cases hpath : Route.ofPath? request.path with
  | none =>
      refine ⟨_, false, Errand.isOwn_ofResponse user (.empty 404), fun service _ => ?_⟩
      rw [respond, hpath]
      rfl
  | some route =>
      by_cases hmethod : request.method ∈ route.methods
      · have hroute : route ≠ .events := fun hevents => hroute (hpath.trans (congrArg some hevents))
        obtain ⟨errand, hown, herrand⟩ := exists_errand?_eq user request hroute
        exact ⟨errand, _, hown, fun service huser => respond_run hpath hmethod (herrand _ _ huser)⟩
      · refine ⟨_, false, Errand.isOwn_ofResponse user
          { Response.empty 405 with headers := [("allow", route.allow)] }, fun service _ => ?_⟩
        rw [respond, hpath]
        simp only [if_neg hmethod]
        rfl

/-! Requests whose token is not accepted. -/

theorem withUser_of_stranger {next : Identifier → Errand}
    (huser : request.user? settings.tokenSecret now = none) :
    withUser settings now request next = .ofResponse Http.unauthorized := by
  rw [withUser, huser]

theorem errand?_of_stranger (hroute : route ≠ .events)
    (huser : request.user? settings.tokenSecret now = none) :
    ∃ response, errand? settings now request route = some (.ofResponse response) := by
  cases route with
  | health => exact ⟨_, rfl⟩
  | document => exact ⟨_, rfl⟩
  | events => exact absurd rfl hroute
  | _ => exact ⟨_, congrArg some (withUser_of_stranger huser)⟩

theorem run_ofResponse (response : Response) (isHead : Bool) (service : Service) :
    ((Errand.ofResponse response).run isHead).run service =
      (.of (headed isHead response), service) := by
  cases isHead with
  | false => rfl
  | true => rfl

theorem respond_of_stranger (hroute : Route.ofPath? request.path ≠ some .events)
    (huser : request.user? service.settings.tokenSecret service.now = none) :
    ((respond request).run service).2 = service := by
  cases hpath : Route.ofPath? request.path with
  | none =>
      rw [respond, hpath]
      rfl
  | some route =>
      by_cases hmethod : request.method ∈ route.methods
      · have hroute : route ≠ .events := fun hevents => hroute (hpath.trans (congrArg some hevents))
        obtain ⟨response, herrand⟩ := errand?_of_stranger hroute huser
        rw [respond_run hpath hmethod herrand, run_ofResponse]
      · rw [respond, hpath]
        simp only [if_neg hmethod]
        rfl

end Herald.Service
