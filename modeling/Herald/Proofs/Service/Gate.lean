import Herald.Proofs.Http.Access
import Herald.Proofs.Live.Sparing
import Herald.Proofs.Service.Isolation
import Herald.Proofs.Store.Confinement

/-!
The gate before a user's own routes. Without a good token nothing happens behind it; with one, all that
happens is about the user whom the token is for.
-/

namespace Herald.Http

/-- Whether a route is a user's own: the history, its counts and marks, and the stream. -/
def Route.isPersonal : Route → Bool
  | .history | .unreadCount | .markRead _ | .markAllRead | .stream => true
  | .health | .events | .document => false

end Herald.Http

namespace Herald.Service

open Http (Request Response Route)
open Store (Plan Statement Tables)

variable {service : Service} {settings : Settings} {now : Nat} {user : Identifier}
  {request : Request} {route : Route} {errand : Errand}

theorem ne_events_of_isPersonal (hpersonal : route.isPersonal = true) : route ≠ .events := by
  rintro rfl
  cases hpersonal

theorem errand?_of_personal_stranger (hpersonal : route.isPersonal = true)
    (huser : request.user? settings.tokenSecret now = none) :
    errand? settings now request route = some (.ofResponse Http.unauthorized) := by
  cases route with
  | health => cases hpersonal
  | events => cases hpersonal
  | document => cases hpersonal
  | _ => exact congrArg some (withUser_of_stranger huser)

/-! What errands ask of the store. -/

/-- The statements of an errand, each with the store as it finds it. A stream takes none. -/
def Errand.asked (tables : Tables) : Errand → List (Tables × Statement)
  | .consult plan => plan.asked tables
  | .listen _ => []

theorem Errand.IsOwn.confined_asked (hown : errand.IsOwn user) {tables : Tables}
    (hkeyed : tables.Keyed) :
    ∀ asking ∈ errand.asked tables, asking.2.Confined user asking.1 := by
  cases errand with
  | consult plan => exact (hown tables hkeyed).confined_asked
  | listen owner => exact fun _ hasking => absurd hasking List.not_mem_nil

/-! What errands do to a service. -/

/-- To open a stream is a matter of the registry alone, and there of the user's own entry. -/
theorem exists_run_listen (service : Service) (user : Identifier) (isHead : Bool) :
    ∃ reply manager, service.manager.registry.Spares user manager.registry ∧
      ∀ tables, ((Errand.listen user).run isHead).run { service with tables } =
        (reply, { service with tables, manager }) := by
  have hspares := service.manager.spares_subscribe user
  cases isHead with
  | false =>
      refine ⟨streamReply (service.manager.subscribe user).2, _, hspares, fun tables => ?_⟩
      rw [Errand.run, Errand.reply, StateT.run_bind, openStream_run_eq]
      rfl
  | true =>
      cases hopened : (service.manager.subscribe user).2 with
      | error failure =>
          refine ⟨.of (streamReply (.error failure)).response.withoutBody, _, hspares,
            fun tables => ?_⟩
          rw [Errand.run, Errand.reply, StateT.run_bind, openStream_run_eq, hopened]
          rfl
      | ok subscription =>
          -- The stream is let go of at once; its queue is new, so that it is no one else's.
          obtain ⟨rfl, hqueue⟩ := Live.Manager.subscription_of_subscribe hopened
          refine ⟨.of (streamReply (.ok subscription)).response.withoutBody, _,
            Live.Manager.spares_drop hspares (Nat.le_of_eq hqueue.symm), fun tables => ?_⟩
          rw [Errand.run, Errand.reply, StateT.run_bind, openStream_run_eq, hopened]
          rfl

/-- Rows and connections of all others are left alone, and their rows do not show in the outcome. -/
structure Confined (user : Identifier) (visit : StateM Service Reply) (service : Service) : Prop where
  rows : ∀ other, other ≠ user →
    (visit.run service).2.tables.rowsOf other = service.tables.rowsOf other
  alone : visit.run { service with tables := service.tables.only user } =
    ((visit.run service).1,
      { (visit.run service).2 with tables := (visit.run service).2.tables.only user })
  registry : service.manager.registry.Spares user (visit.run service).2.manager.registry

theorem Confined.congr {visit same : StateM Service Reply} (hconfined : Confined user visit service)
    (hrun : ∀ tables, same.run { service with tables } = visit.run { service with tables }) :
    Confined user same service := by
  have hservice : same.run service = visit.run service := hrun service.tables
  constructor
  case rows =>
    rw [hservice]
    exact hconfined.rows
  case alone =>
    rw [hservice, hrun]
    exact hconfined.alone
  case registry =>
    rw [hservice]
    exact hconfined.registry

theorem Errand.IsOwn.confined (hown : errand.IsOwn user) (hkeyed : service.tables.Keyed)
    (isHead : Bool) : Confined user (errand.run isHead) service := by
  cases errand with
  | consult plan =>
      have hwithin : plan.Within user service.tables := hown _ hkeyed
      have halone : plan.Within user (service.tables.only user) := hown _ (hkeyed.only user)
      constructor
      case rows =>
        intro other hother
        rw [run_consult hwithin]
        exact congrArg Tables.rows (hwithin.only_run_of_ne hother)
      case alone =>
        have hlone := @run_consult { service with tables := service.tables.only user } _ _ halone isHead
        rw [run_consult hwithin, hlone, hwithin.run_only]
      case registry =>
        rw [run_consult hwithin]
        exact .refl user _
  | listen owner =>
      obtain rfl : user = owner := hown
      obtain ⟨reply, manager, hspares, hrun⟩ := exists_run_listen service user isHead
      have hservice : ((Errand.listen user).run isHead).run service =
          (reply, { service with manager }) := hrun service.tables
      constructor
      case rows =>
        intro other _
        rw [hservice]
      case alone => rw [hservice, hrun]
      case registry =>
        rw [hservice]
        exact hspares

/--
Requests for a user's own routes, whatever their headers, path parameter and query are. Unless the
first authorization header presents a good token, the request is refused: nothing is asked of the
store, and the service stays as it is, its streams included. With a good token, what is asked of the
store is about rows of the token's user, the reply is what it would be without the rows of others, and
neither rows nor connections of others are touched.
-/
theorem personal_routes_are_gated (hkeyed : service.tables.Keyed)
    (hpath : Route.ofPath? request.path = some route) (hpersonal : route.isPersonal = true)
    (hmethod : request.method ∈ route.methods) :
    let secret := service.settings.tokenSecret
    ∃ errand isHead,
      errand? service.settings service.now request route = some errand ∧
      (respond request).run service = (errand.run isHead).run service ∧
      ((∀ user, ¬request.Presents secret service.now user) →
        ((respond request).run service).1.response.status = 401 ∧
          ((respond request).run service).1.opened = none ∧
          errand.asked service.tables = [] ∧ ((respond request).run service).2 = service) ∧
      ∀ user, request.Presents secret service.now user →
        (∀ asking ∈ errand.asked service.tables, asking.2.Confined user asking.1) ∧
          Confined user (respond request) service := by
  intro secret
  cases huser : request.user? secret service.now with
  | none =>
      have herrand := errand?_of_personal_stranger hpersonal huser
      have hrun := respond_run hpath hmethod herrand
      refine ⟨_, _, herrand, hrun, fun _ => ?_, fun user hpresents => ?_⟩
      · rw [hrun, run_ofResponse]
        refine ⟨?_, rfl, rfl, rfl⟩
        cases decide (request.method = "HEAD") <;> rfl
      · rw [Http.Request.user?_eq_some_iff.mpr hpresents] at huser
        cases huser
  | some user =>
      obtain ⟨errand, hown, herrand⟩ :=
        exists_errand?_eq user request (ne_events_of_isPersonal hpersonal)
      have hadmitted := herrand service.settings service.now huser
      have hrun := respond_run hpath hmethod hadmitted
      refine ⟨errand, _, hadmitted, hrun, fun hstranger => ?_, fun presented hpresents => ?_⟩
      · exact absurd (Http.Request.user?_eq_some_iff.mp huser) (hstranger user)
      · rw [Http.Request.user?_eq_some_iff.mpr hpresents] at huser
        cases huser
        refine ⟨hown.confined_asked hkeyed, ?_⟩
        exact (hown.confined hkeyed _).congr fun tables => respond_run hpath hmethod hadmitted

/-! A reader marks a row, and someone without a token asks for a stream. -/

def sharedService : Service :=
  .start Journal.sharedSettings 0 Journal.sharedTables (.withHistoryLimit 8) true

def marking : Request :=
  (Journal.visitOf Journal.readerToken "PATCH"
    "/notifications/00000000-0000-0000-0000-000000000007/read").request

def streamOfNobody : Request := { Journal.readerVisit.request with headers := [] }

theorem personal_routes_are_gated_of_reader :
    ((respond streamOfNobody).run sharedService).1.response.status = 401 ∧
      ((respond streamOfNobody).run sharedService).2 = sharedService ∧
      marking.Presents "s3cret" 0 Journal.reader ∧
      Confined Journal.reader (respond marking) sharedService := by
  have hkeyed : sharedService.tables.Keyed := List.nodup_singleton _
  have hnobody : ∀ user, ¬streamOfNobody.Presents "s3cret" 0 user := by
    intro user hpresents
    cases Http.Request.user?_eq_some_iff.mpr hpresents
  have hreader : marking.Presents "s3cret" 0 Journal.reader := by
    apply Http.Request.user?_eq_some_iff.mp
    decide +kernel
  have hstream : Route.ofPath? streamOfNobody.path = some .stream := by
    decide
  have hmark : Route.ofPath? marking.path =
      some (.markRead "00000000-0000-0000-0000-000000000007") := by
    decide
  obtain ⟨_, _, -, -, hrefused, -⟩ := @personal_routes_are_gated sharedService streamOfNobody _ hkeyed
    hstream rfl List.mem_cons_self
  obtain ⟨_, _, -, -, -, hadmitted⟩ := @personal_routes_are_gated sharedService marking _ hkeyed
    hmark rfl List.mem_cons_self
  obtain ⟨hstatus, -, -, hsame⟩ := hrefused hnobody
  exact ⟨hstatus, hsame, hreader, (hadmitted Journal.reader hreader).2⟩

end Herald.Service
