import Herald.Http.Ingest
import Herald.Proofs.Event.Reading
import Herald.Proofs.Http.Key

/-!
Which requests hand in which events. All of the events are taken off the front of the body, or the
request is turned down; without the key that decides it, whatever the body is.
-/

namespace Herald.Http

namespace Ingest

/-- The body begins with a JSON list, within the limit of nesting, of values that stand for the events. -/
def Lists (body : List UInt8) (events : List Event) : Prop :=
  ∃ items rest, Json.Value.read Json.nestingLimit body = .done (.list items) rest ∧
    items.mapM Event.ofDocument? = some events

theorem readBody_eq_ok_iff {body : List UInt8} {events : List Event} :
    readBody body = .ok events ↔ Lists body events := by
  have hreader (rest : List UInt8) := @Event.readList_eq_done_iff body rest events 126
  rw [readBody]
  constructor
  · intro hbody
    split at hbody
    case h_1 hdone =>
      cases hbody
      obtain ⟨items, hitems, hevents⟩ := (hreader _).mp hdone
      exact ⟨items, _, hitems, hevents⟩
    case h_2 => cases hbody
  · rintro ⟨items, rest, hitems, hevents⟩
    have hdone : reader body = .done events rest := (hreader rest).mpr ⟨items, hitems, hevents⟩
    rw [hdone]

theorem not_lists_of_malformed {body rest : List UInt8} {items : List Json.Value} {item : Json.Value}
    (hbody : Json.Value.read Json.nestingLimit body = .done (.list items) rest)
    (hmem : item ∈ items) (hitem : Event.ofDocument? item = none) (events : List Event) :
    ¬Lists body events := by
  rintro ⟨listed, left, hlisted, hevents⟩
  cases hbody.symm.trans hlisted
  cases (Event.mapM_eq_none_of_mem hmem hitem).symm.trans hevents

/-- The statuses of the responses that turn requests down. -/
def refusals : List Nat := [400, 401, 403, 413, 415, 422]

theorem status_rejection (fault : Json.Fault) (body : List UInt8) :
    (rejection fault body).status = 400 ∨ (rejection fault body).status = 422 := by
  rw [rejection]
  split
  · exact .inl rfl
  · exact .inr rfl

end Ingest

namespace Request

variable {request : Request} {settings : Settings} {events : List Event} {response : Response}

/-- An admitted request with JSON of no more than the limit of size, which lists the events. -/
structure HandsIn (request : Request) (settings : Settings) (events : List Event) : Prop where
  admitted : request.IsAdmitted settings
  isJson : Ingest.isJson request = true
  size : request.body.length ≤ Ingest.bodyLimit
  lists : Ingest.Lists request.body events

theorem events_of_admitted (hadmitted : request.IsAdmitted settings) :
    Ingest.events settings.ingestKey? request =
      if !Ingest.isJson request then
        .error (.plain 415 "Expected request with `Content-Type: application/json`")
      else if Ingest.bodyLimit < request.body.length then
        .error (.plain 413 "Failed to buffer the request body: length limit exceeded")
      else Ingest.readBody request.body := by
  rw [Ingest.events, admitted_of_isAdmitted hadmitted]
  rfl

theorem events_of_refused (hrefused : request.admitted settings.ingestKey? = .error response) :
    Ingest.events settings.ingestKey? request = .error response := by
  rw [Ingest.events, hrefused]
  rfl

theorem isAdmitted_of_events (hevents : Ingest.events settings.ingestKey? request = .ok events) :
    request.IsAdmitted settings := by
  by_contra hadmitted
  obtain ⟨response, -, hrefused⟩ := exists_admitted_eq_error hadmitted
  cases (events_of_refused hrefused).symm.trans hevents

theorem events_eq_ok_iff :
    Ingest.events settings.ingestKey? request = .ok events ↔ request.HandsIn settings events := by
  constructor
  · intro hevents
    have hadmitted := isAdmitted_of_events hevents
    rw [events_of_admitted hadmitted] at hevents
    split at hevents
    case isTrue => cases hevents
    case isFalse hjson =>
      split at hevents
      case isTrue => cases hevents
      case isFalse hsize =>
        exact ⟨hadmitted, by simpa using hjson, Nat.le_of_not_lt hsize,
          Ingest.readBody_eq_ok_iff.mp hevents⟩
  · rintro ⟨hadmitted, hjson, hsize, hlists⟩
    rw [events_of_admitted hadmitted, hjson, if_neg nofun, if_neg (Nat.not_lt_of_le hsize)]
    exact Ingest.readBody_eq_ok_iff.mpr hlists

/-- An admitted request is never turned down for its key. -/
theorem status_of_admitted (hadmitted : request.IsAdmitted settings)
    (herror : Ingest.events settings.ingestKey? request = .error response) :
    response.status ∈ [400, 413, 415, 422] := by
  rw [events_of_admitted hadmitted] at herror
  split at herror
  case isTrue =>
    cases herror
    decide
  case isFalse =>
    split at herror
    case isTrue =>
      cases herror
      decide
    case isFalse =>
      rw [Ingest.readBody] at herror
      split at herror
      case h_1 => cases herror
      case h_2 fault left hfault =>
        cases herror
        obtain hstatus | hstatus := Ingest.status_rejection fault request.body
        · rw [hstatus]
          decide
        · rw [hstatus]
          decide

theorem status_of_events_error
    (herror : Ingest.events settings.ingestKey? request = .error response) :
    response.status ∈ Ingest.refusals := by
  by_cases hadmitted : request.IsAdmitted settings
  case pos =>
    have hsubset : [400, 413, 415, 422] ⊆ Ingest.refusals := by decide
    exact hsubset (status_of_admitted hadmitted herror)
  case neg =>
    obtain ⟨refusal, hstatus, hrefused⟩ := exists_admitted_eq_error hadmitted
    cases (events_of_refused hrefused).symm.trans herror
    have hsubset : [401, 403] ⊆ Ingest.refusals := by decide
    exact hsubset hstatus

/-- Without an accepted key the body does not matter. -/
theorem events_of_not_isAdmitted (hadmitted : ¬request.IsAdmitted settings) (body : List UInt8) :
    Ingest.events settings.ingestKey? { request with body } =
      Ingest.events settings.ingestKey? request := by
  obtain ⟨response, -, hrefused⟩ := exists_admitted_eq_error hadmitted
  rw [events_of_refused hrefused]
  exact events_of_refused hrefused

end Request

end Herald.Http
