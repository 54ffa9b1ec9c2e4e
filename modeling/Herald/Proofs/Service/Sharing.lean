import Herald.Proofs.Http.Origins
import Herald.Proofs.Store.Plan
import Herald.Service.Respond
import Herald.Settings.Setting

/-!
Which pages may read what a service answers. The answers themselves say nothing about it. What is added
to them names the origin of the request if that is one of the configured ones, and no origin otherwise.
-/

namespace Herald

namespace Http

variable {request : Request} {response : Response} {key? : Option String}

theorem plain_of_admitted_error (herror : request.admitted key? = .error response) :
    ∃ status body, response = .plain status body := by
  unfold Request.admitted at herror
  split at herror
  case h_1 =>
    cases herror
    exact ⟨_, _, rfl⟩
  case h_2 =>
    split at herror
    case isTrue => cases herror
    case isFalse =>
      cases herror
      exact ⟨_, _, rfl⟩

theorem plain_rejection (fault : Json.Fault) (body : List UInt8) :
    ∃ status text, Ingest.rejection fault body = .plain status text := by
  rw [Ingest.rejection]
  split
  · exact ⟨_, _, rfl⟩
  · exact ⟨_, _, rfl⟩

theorem plain_of_events_error (herror : Ingest.events key? request = .error response) :
    ∃ status body, response = .plain status body := by
  rw [Ingest.events] at herror
  cases hadmitted : request.admitted key? with
  | error refusal =>
      rw [hadmitted] at herror
      cases herror
      exact plain_of_admitted_error hadmitted
  | ok admitted =>
      rw [hadmitted] at herror
      change (if _ then _ else _) = _ at herror
      split at herror
      case isTrue =>
        cases herror
        exact ⟨_, _, rfl⟩
      case isFalse =>
        split at herror
        case isTrue =>
          cases herror
          exact ⟨_, _, rfl⟩
        case isFalse =>
          rw [Ingest.readBody] at herror
          split at herror
          case h_1 => cases herror
          case h_2 fault left hfault =>
            cases herror
            exact plain_rejection fault request.body

end Http

namespace Service

open Http (Headers Origins Request Response Route)
open Store (Attempt)

variable {α : Type} {settings : Settings} {now : Nat} {request : Request} {route : Route}
  {errand : Errand}

/-! The answers of a service by themselves. -/

/-- The reply allows no origin to read it. -/
def Reply.Silent (reply : Reply) : Prop := reply.response.headers.grants = []

theorem silent_plain (status : Nat) (body : String) : (Reply.of (.plain status body)).Silent := rfl

theorem silent_ofResult (print : α → String) (result : Except Failure α) :
    (Reply.of (ofResult print result)).Silent := by
  cases result with
  | ok value => rfl
  | error failure => rfl

/-- An errand whose replies allow no origin to read them, wherever it is run. -/
def Errand.Silent (errand : Errand) : Prop := ∀ service, (errand.reply.run service).1.Silent

theorem Errand.silent_ofResponse {response : Response} (hresponse : (Reply.of response).Silent) :
    (ofResponse response).Silent :=
  fun _ => hresponse

theorem Errand.silent_ofAttempt (attempt : Attempt α) (print : α → String) :
    (ofAttempt attempt print).Silent := by
  intro service
  change (Reply.of (Store.Plan.run answer (attempt.run >>= _) service).1).Silent
  rw [Store.Plan.run_bind]
  exact silent_ofResult print _

theorem Errand.silent_listen (user : Identifier) : (Errand.listen user).Silent := by
  intro service
  change ((openStream user).run service).1.Silent
  simp only [openStream, StateT.run_bind, StateT.run_get, pure_bind, StateT.run_modify]
  cases (service.manager.subscribe user).2 with
  | ok subscription => rfl
  | error failure => rfl

theorem silent_withUser {next : Identifier → Errand} (hnext : ∀ user, (next user).Silent) :
    (withUser settings now request next).Silent := by
  rw [withUser]
  split
  · exact hnext _
  · exact Errand.silent_ofResponse (silent_plain ..)

theorem silent_history (user : Identifier) (request : Request) : (history user request).Silent := by
  rw [history]
  split
  · exact Errand.silent_ofResponse (silent_plain ..)
  · exact Errand.silent_ofAttempt _ _

theorem silent_markRead (user : Identifier) (segment : String) : (markRead user segment).Silent := by
  rw [markRead]
  split
  · exact Errand.silent_ofResponse (silent_plain ..)
  · exact Errand.silent_ofAttempt _ _

theorem silent_errand? (herrand : errand? settings now request route = some errand) :
    errand.Silent := by
  cases route with
  | health =>
      cases herrand
      exact Errand.silent_ofResponse (silent_plain ..)
  | history =>
      cases herrand
      exact silent_withUser fun user => silent_history user request
  | unreadCount =>
      cases herrand
      exact silent_withUser fun user => Errand.silent_ofAttempt _ _
  | markRead segment =>
      cases herrand
      exact silent_withUser fun user => silent_markRead user segment
  | markAllRead =>
      cases herrand
      exact silent_withUser fun user => Errand.silent_ofAttempt _ _
  | stream =>
      cases herrand
      exact silent_withUser Errand.silent_listen
  | events => cases herrand
  | document =>
      cases herrand
      exact Errand.silent_ofResponse rfl

theorem silent_acceptEvents (request : Request) (service : Service) :
    (Reply.of ((acceptEvents request).run service).1).Silent := by
  change (Reply.of ((accept handle publisher service.settings.ingestKey? request).run service).1).Silent
  rw [accept]
  split
  case h_1 response herror =>
    obtain ⟨status, body, rfl⟩ := Http.plain_of_events_error herror
    exact silent_plain status body
  case h_2 events _ => exact silent_ofResult (countText "accepted") (.ok events.length)

theorem silent_follow (route : Route) (request : Request) (service : Service) :
    ((follow route request).run service).1.Silent := by
  rw [follow, StateT.run_bind, StateT.run_get, pure_bind]
  split
  case h_1 errand herrand => exact silent_errand? herrand service
  case h_2 => exact silent_acceptEvents request service

theorem silent_onlyHead {reply : Reply} (hreply : reply.Silent) (service : Service) :
    ((onlyHead reply).run service).1.Silent := by
  rw [onlyHead]
  cases reply.opened with
  | some subscription => exact hreply
  | none => exact hreply

theorem silent_respond (request : Request) (service : Service) :
    ((respond request).run service).1.Silent := by
  rw [respond]
  split
  case h_1 => rfl
  case h_2 route hroute =>
    split
    case isTrue hmethod =>
      have hfollow := silent_follow route request service
      rw [StateT.run_bind]
      split
      · exact silent_onlyHead hfollow _
      · exact hfollow
    case isFalse => rfl

/-! What pages of other origins get to read. -/

theorem grants_respondAcross (origins : Origins) (request : Request) (service : Service) :
    ((respondAcross origins request).run service).1.response.headers.grants =
      (origins.echoed? request).toList := by
  rw [respondAcross]
  split
  · exact Origins.grants_preflight ..
  · exact Origins.grants_decorate (silent_respond request service)

theorem credentials_respondAcross (origins : Origins) (request : Request) (service : Service) :
    ("access-control-allow-credentials", "true") ∈
      ((respondAcross origins request).run service).1.response.headers := by
  have hheaders : ("access-control-allow-credentials", "true") ∈ origins.headers request :=
    List.mem_append_right _ List.mem_cons_self
  rw [respondAcross]
  split
  · exact List.mem_append_left _ (List.mem_append_right _ hheaders)
  · exact List.mem_append_right _ hheaders

/-- An entry that can be a header value and is the origin octet by octet. -/
def Listed (configured : List String) (origin : String) : Prop :=
  ∃ entry ∈ configured, (∀ octet ∈ Text.octets entry, Http.IsValueOctet octet) ∧
    Text.octets entry = Text.octets origin

theorem listed_iff {configured : List String} {origin : String} :
    Listed configured origin ↔ origin ∈ configured.filter Origins.isHeaderValue := by
  rw [List.mem_filter, Origins.isHeaderValue_iff]
  constructor
  · rintro ⟨entry, hentry, hvalue, hsame⟩
    obtain rfl := Text.octets_inj.mp hsame
    exact ⟨hentry, hvalue⟩
  · rintro ⟨horigin, hvalue⟩
    exact ⟨origin, horigin, hvalue, rfl⟩

/--
With a wildcard among the configured origins there are none to serve with. Any other list will do, and
entries that no header can hold play no part in it. Whatever the request and the service are, the
response then names the origin of the request if that is listed, and no origin otherwise. It never
names the wildcard, as it always allows credentials.
-/
theorem listed_origins_may_read (configured : List String) :
    (Origins.wildcard ∈ configured → Origins.ofConfigured? configured = none) ∧
    (Origins.wildcard ∉ configured → ∃ origins, Origins.ofConfigured? configured = some origins ∧
      ∀ request service,
        let headers := ((respondAcross origins request).run service).1.response.headers
        ("access-control-allow-credentials", "true") ∈ headers ∧
        Origins.wildcard ∉ headers.grants ∧
        (request.headers.first? "origin" = none → headers.grants = []) ∧
        ∀ origin, request.headers.first? "origin" = some origin →
          (Listed configured origin → headers.grants = [origin]) ∧
          (¬Listed configured origin → headers.grants = [])) := by
  refine ⟨Origins.ofConfigured?_eq_none_iff.mpr, fun hwildcard => ?_⟩
  refine ⟨⟨configured.filter Origins.isHeaderValue⟩,
    Origins.ofConfigured?_eq_some_iff.mpr ⟨hwildcard, rfl⟩, fun request service => ?_⟩
  generalize horigins : Origins.mk (configured.filter Origins.isHeaderValue) = origins
  have hallowed (origin : String) : origins.allowed.contains origin = true ↔
      Listed configured origin := by
    rw [listed_iff, List.contains_iff_mem, ← horigins]
  have hgrants := grants_respondAcross origins request service
  refine ⟨credentials_respondAcross origins request service, ?_, ?_, ?_⟩
  · rw [hgrants, Option.mem_toList]
    intro hechoed
    obtain ⟨-, hcontains⟩ := Option.filter_eq_some_iff.mp hechoed
    exact hwildcard (List.mem_filter.mp (listed_iff.mp ((hallowed _).mp hcontains))).1
  · intro hnone
    rw [hgrants, Origins.echoed?, hnone]
    rfl
  · intro origin horigin
    refine ⟨fun hlisted => ?_, fun hlisted => ?_⟩
    · rw [hgrants, Origins.echoed?, horigin, Option.filter_some_pos ((hallowed origin).mpr hlisted)]
      rfl
    · have hcontains := Bool.eq_false_iff.mpr (mt (hallowed origin).mp hlisted)
      rw [hgrants, Origins.echoed?, horigin, Option.filter_some_neg hcontains]
      rfl

/-- Origins that are configured with a wildcard beside a proper one. -/
def wildcardSettings : Settings :=
  { Settings.defaults "s3cret" with
    allowedOrigins := Setting.commaSeparated "https://a.example,*" }

/-- The wildcard is a header value like the other entry, and yet there are no origins to serve with. -/
theorem wildcard_leaves_no_origins :
    wildcardSettings.allowedOrigins.all Origins.isHeaderValue = true ∧
      Origins.ofConfigured? wildcardSettings.allowedOrigins = none := by
  decide +kernel

end Service

end Herald
