import Herald.Proofs.Http.Ingest
import Herald.Proofs.Publisher.Calls
import Herald.Service.Respond

/-!
Events that other services hand in. The configured key decides who is let through; whoever is let
through has all events of a request published, or none of them.
-/

namespace Herald.Service

open Http (Request Response Route)
open Publisher (noting)

variable {service : Service} {settings : Settings} {request : Request} {response : Response}
  {events : List Event}

/-! The reply of a service. -/

theorem respond_run_events (hpath : Route.ofPath? request.path = some .events)
    (hmethod : request.method = "POST") :
    (respond request).run service =
      let (response, after) := (accept handle publisher service.settings.ingestKey? request).run service
      (.of response, after) := by
  have hallowed : request.method ∈ Route.events.methods := List.mem_singleton.mpr hmethod
  have hhead : request.method ≠ "HEAD" := by
    rw [hmethod]
    decide
  rw [respond, hpath]
  simp only [if_pos hallowed, if_neg hhead, bind_pure]
  rfl

/-! Publishing in any monad, so for handlers with any effects. -/

section Accept

variable {Handler : Type} {m : Type → Type} [Monad m] {handle : Handler → Event → m Unit}
  {publisher : Publisher Handler}

theorem accept_of_error
    (herror : Http.Ingest.events settings.ingestKey? request = .error response) :
    accept handle publisher settings.ingestKey? request = pure response := by
  rw [accept, herror]

theorem accept_of_handsIn [LawfulMonad m] (hevents : request.HandsIn settings events)
    (registered : List Handler) :
    let calls := events.flatMap fun event => registered.map fun handler => (handler, event)
    accept handle (.ofHandlers registered) settings.ingestKey? request = (do
      calls.forM fun (handler, event) => handle handler event
      pure (envelope 202 (countText "accepted" events.length))) := by
  rw [accept, Request.events_eq_ok_iff.mpr hevents]
  simp only [Publisher.publishAll_eq_forM_calls, Publisher.calls_ofHandlers]

theorem exists_refusal (hnone : ∀ events, ¬request.HandsIn settings events) :
    ∃ response, response.status ∈ Http.Ingest.refusals ∧
      Http.Ingest.events settings.ingestKey? request = .error response := by
  cases hevents : Http.Ingest.events settings.ingestKey? request with
  | ok events => exact absurd (Request.events_eq_ok_iff.mp hevents) (hnone events)
  | error response => exact ⟨response, Request.status_of_events_error hevents, rfl⟩

end Accept

/--
A request to hand in events, whatever its headers and its body are and whichever handlers were added
to the publisher. If it hands in events, every handler is called with every one of them, event by event
and in the order of the handlers, and only then the reply says how many there are; if not, the reply is
a refusal and no handler is called. One item of the list that is no event is enough for that, and
without an accepted key the body does not matter.
-/
theorem events_are_taken_all_or_none {Handler : Type} {m : Type → Type} [Monad m] [LawfulMonad m]
    (handle : Handler → Event → m Unit) (registered : List Handler) (settings : Settings)
    (request : Request) :
    let accepting := accept handle (.ofHandlers registered) settings.ingestKey? request
    (∀ events, request.HandsIn settings events →
      let calls := events.flatMap fun event => registered.map fun handler => (handler, event)
      accepting = (do
        calls.forM fun (handler, event) => handle handler event
        pure (envelope 202 (countText "accepted" events.length)))) ∧
    ((∀ events, ¬request.HandsIn settings events) →
      ∃ response, response.status ∈ Http.Ingest.refusals ∧ accepting = pure response) ∧
    (∀ items rest, Json.Value.read Json.nestingLimit request.body = .done (.list items) rest →
      ∀ item ∈ items, Event.ofDocument? item = none → ∀ events, ¬request.HandsIn settings events) ∧
    (¬request.IsAdmitted settings → ∀ body,
      accept handle (.ofHandlers registered) settings.ingestKey? { request with body } = accepting) ∧
    (Route.ofPath? request.path = some .events → request.method = "POST" →
      ∀ service : Service, service.settings = settings →
        (respond request).run service =
          let (response, after) := (accept Service.handle (.ofHandlers [.dispatcher])
            settings.ingestKey? request).run service
          (.of response, after)) := by
  intro accepting
  refine ⟨fun events hevents => accept_of_handsIn hevents registered, fun hnone => ?_,
    fun items rest hitems item hmem hitem events hevents => ?_, fun hadmitted body => ?_,
    fun hpath hmethod service hsettings => ?_⟩
  · obtain ⟨response, hstatus, herror⟩ := exists_refusal hnone
    exact ⟨response, hstatus, accept_of_error herror⟩
  · exact Http.Ingest.not_lists_of_malformed hitems hmem hitem events hevents.lists
  · rw [accept, Request.events_of_not_isAdmitted hadmitted body]
    rfl
  · subst hsettings
    exact respond_run_events hpath hmethod

/-! A service with a key, and requests to it. -/

def keyedSettings (key : String) : Settings :=
  { Settings.defaults "s3cret" with ingestKey := some key }

def keyedService (key : String) : Service :=
  .start (keyedSettings key) 0 ⟨[], [], 0, fun index => ⟨.ofNat index, .epoch⟩, false⟩
    (.withHistoryLimit 8) true

def handIn (key body : String) : Request :=
  ⟨"POST", "/events", "", [("x-internal-api-key", key), ("content-type", "application/json")],
    Text.octets body⟩

def approval : Event := .reviewApproved (.ofNat 1) .epoch

def removal : Event := .postDeleted (.ofNat 10) .meetup .epoch

def bothText : String := "[" ++ approval.encode ++ ", " ++ removal.encode ++ "]"

def spoiltText : String := "[" ++ approval.encode ++ ", 7]"

/-- Counts the events it is called with. -/
def count (_ : String) (_ : Event) : StateM Nat Unit := modify (· + 1)

/-- What comes of a body that is handed in with the key, and the calls that are made. -/
def noted (body : String) : Response × (Nat × List (Publisher.Call Nat String)) :=
  (accept (noting count) (.ofHandlers ["archive", "live"]) (keyedSettings "k3y").ingestKey?
    (handIn "k3y" body)).run (0, [])

theorem events_are_taken_all_or_none_of_two :
    (handIn "k3y" bothText).HandsIn (keyedSettings "k3y") [approval, removal] ∧
      (noted bothText).1.status = 202 ∧
      (noted bothText).2.2.map Publisher.Call.pair = [("archive", approval), ("live", approval),
        ("archive", removal), ("live", removal)] ∧
      (noted spoiltText).2 = (0, []) := by
  have hboth : (handIn "k3y" bothText).HandsIn (keyedSettings "k3y") [approval, removal] := by
    apply Request.events_eq_ok_iff.mp
    decide +kernel
  have hspoilt : (Http.Ingest.events (keyedSettings "k3y").ingestKey?
      (handIn "k3y" spoiltText)).toOption = none := by
    decide +kernel
  have hnone : ∀ events, ¬(handIn "k3y" spoiltText).HandsIn (keyedSettings "k3y") events := by
    intro events hevents
    rw [Request.events_eq_ok_iff.mpr hevents] at hspoilt
    cases hspoilt
  obtain ⟨haccepted, -⟩ := events_are_taken_all_or_none (noting count) ["archive", "live"]
    (keyedSettings "k3y") (handIn "k3y" bothText)
  obtain ⟨-, hrefused, -⟩ := events_are_taken_all_or_none (noting count) ["archive", "live"]
    (keyedSettings "k3y") (handIn "k3y" spoiltText)
  obtain ⟨response, -, hresponse⟩ := hrefused hnone
  refine ⟨hboth, ?_, ?_, ?_⟩
  · rw [noted, haccepted _ hboth]
    rfl
  · rw [noted, haccepted _ hboth]
    rfl
  · rw [noted, hresponse]
    rfl

def nestedLists : Nat → String
  | 0 => ""
  | depth + 1 => "[" ++ nestedLists depth ++ "]"

/-- An approval with one more member, which is nested as deep as a text on its own may be. -/
def deepText : String :=
  "\x7b\"type\":\"REVIEW_APPROVED\",\"recipient\":\"00000000-0000-0000-0000-000000000001\"," ++
    "\"occurred_at\":\"1970-01-01T00:00:00Z\",\"x\":" ++ nestedLists 126 ++ "\x7d"

/--
What follows the list is not looked at, so that a body may be taken that is no JSON list; and a list of
something that is an event on its own may be too deep.
-/
theorem taken_is_not_the_lists_of_events :
    (∀ document, ¬Json.Spells "[]x" document) ∧
      ((respond (handIn "k3y" "[]x")).run (keyedService "k3y")).1 =
        .of (envelope 202 (countText "accepted" 0)) ∧
      (Event.decode deepText).toOption = some approval ∧
      ((respond (handIn "k3y" ("[" ++ deepText ++ "]"))).run (keyedService "k3y")).1.response.status =
        400 := by
  refine ⟨fun document hspells => ?_, ?_, ?_, ?_⟩
  · have hfault : (match Json.Reader.whole (Json.Value.read Json.nestingLimit)
        (Text.octets "[]x") with
      | .done _ _ => true
      | .fault _ _ => false) = false := by
      decide +kernel
    rw [Json.Spells] at hspells
    rw [hspells] at hfault
    cases hfault
  · decide +kernel
  · decide +kernel
  · decide +kernel

/-! The key. -/

/--
Without a key, or with an empty one, every request to hand in events is refused. With a key, those are
let through whose first header for it is a text that is the key apart from blanks around it, and all
others are unauthorized. So a header with the key as it stands is let through if the key is a text
without blanks at its ends, and otherwise no request is.
-/
theorem key_is_usable_iff_presentable (hpath : Route.ofPath? request.path = some .events)
    (hmethod : request.method = "POST") :
    let outcome := (respond request).run service
    ((service.settings.ingestKey = none ∨ service.settings.ingestKey = some "") →
      outcome = (.of (.plain 403 "Forbidden"), service)) ∧
    ∀ key, service.settings.ingestKey = some key → key ≠ "" →
      (request.PresentsKey key → outcome.1.response.status ∉ [401, 403]) ∧
      (¬request.PresentsKey key → outcome = (.of Http.unauthorized, service)) ∧
      (request.headers.first? Request.keyName = some key →
        (request.PresentsKey key ↔ Http.Presentable key)) ∧
      (¬Http.Presentable key → ¬request.PresentsKey key) := by
  intro outcome
  have houtcome : outcome = _ := respond_run_events hpath hmethod
  have hrefused {response : Response}
      (hrefused : request.admitted service.settings.ingestKey? = .error response) :
      outcome = (.of response, service) := by
    rw [houtcome, accept_of_error (Request.events_of_refused hrefused)]
    rfl
  refine ⟨fun hunset => hrefused (Request.admitted_of_unset hunset), fun key hset hkey => ?_⟩
  refine ⟨?_, ?_, ?_, ?_⟩
  · intro hpresents
    have hadmitted : request.IsAdmitted service.settings := ⟨key, hset, hkey, hpresents⟩
    rw [houtcome]
    cases hevents : Http.Ingest.events service.settings.ingestKey? request with
    | ok events =>
        rw [accept, hevents]
        change 202 ∉ [401, 403]
        decide
    | error response =>
        have hstatus := Request.status_of_admitted hadmitted hevents
        have hother : ∀ status ∈ [400, 413, 415, 422], status ∉ [401, 403] := by decide
        rw [accept_of_error hevents]
        exact hother _ hstatus
  · exact fun hpresents => hrefused (Request.admitted_of_not_presents hset hkey hpresents)
  · exact Request.presentsKey_iff_presentable
  · exact mt Request.PresentsKey.presentable

theorem key_is_usable_iff_presentable_of_blanks :
    Http.Presentable "k3y" ∧
      ((respond (handIn "k3y" "[]")).run (keyedService "k3y")).1.response.status ∉ [401, 403] ∧
      ¬Http.Presentable " k3y " ∧
      (respond (handIn " k3y " "[]")).run (keyedService " k3y ") =
        (.of Http.unauthorized, keyedService " k3y ") := by
  have hplain : Http.Presentable "k3y" := ⟨by decide, by decide⟩
  have hblanks : ¬Http.Presentable " k3y " := fun hpresentable =>
    absurd hpresentable.trimmed (by decide)
  have hfirst : (handIn "k3y" "[]").headers.first? Request.keyName = some "k3y" := by
    decide +kernel
  obtain ⟨-, hset⟩ := @key_is_usable_iff_presentable (keyedService "k3y") (handIn "k3y" "[]")
    (by decide) rfl
  obtain ⟨hthrough, -, hiff, -⟩ := hset "k3y" rfl (by decide)
  obtain ⟨-, hset⟩ := @key_is_usable_iff_presentable (keyedService " k3y ") (handIn " k3y " "[]")
    (by decide) rfl
  obtain ⟨-, hunauthorized, -, hnever⟩ := hset " k3y " rfl (by decide)
  exact ⟨hplain, hthrough ((hiff hfirst).mpr hplain), hblanks, hunauthorized (hnever hblanks)⟩

/-- Keys that are configured, and that a header with the same characters does not present. -/
theorem configured_keys_unauthorized :
    (keyedService " k3y ").settings.ingestKey? = some " k3y " ∧
      (handIn " k3y " "[]").headers.first? Request.keyName = some " k3y " ∧
      ((respond (handIn " k3y " "[]")).run (keyedService " k3y ")).1 = .of Http.unauthorized ∧
      (keyedService "clé").settings.ingestKey? = some "clé" ∧
      (handIn "clé" "[]").headers.first? Request.keyName = some "clé" ∧
      ((respond (handIn "clé" "[]")).run (keyedService "clé")).1 = .of Http.unauthorized := by
  decide +kernel

end Herald.Service
