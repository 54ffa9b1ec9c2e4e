import Herald.Proofs.Service.Errands

/-!
Users apart from each other. All that a user can tell of a service is a view of it, which the user's own
requests change in a way that depends on the view alone, and which those of others leave as it is.
-/

namespace Herald.Service

open Http (Request Response Route)
open Live (Message Sight Subscription)
open Store (Plan Tables)

variable {service : Service} {user other : Identifier}

/-! Visits. -/

/-- A request and the second at which it is made. -/
structure Visit where
  now : Nat
  request : Request

/-- Who makes a request, if its token is accepted. -/
def Visit.user? (visit : Visit) (secret : String) : Option Identifier :=
  visit.request.user? secret visit.now

def Visit.isBy (secret : String) (user : Identifier) (visit : Visit) : Bool :=
  visit.user? secret = some user

/-- A service together with its replies so far, and whom it gave them. -/
structure Journal where
  service : Service
  replies : List (Identifier × Reply)

namespace Journal

def start (service : Service) : Journal := ⟨service, []⟩

def noted (journal : Journal) (user? : Option Identifier) (outcome : Reply × Service) : Journal :=
  ⟨outcome.2, journal.replies ++ (user?.map fun user => (user, outcome.1)).toList⟩

def timed (journal : Journal) (now : Nat) : Journal :=
  { journal with service := { journal.service with now } }

def visit (journal : Journal) (visit : Visit) : Journal :=
  let journal := journal.timed visit.now
  journal.noted (visit.user? journal.service.settings.tokenSecret)
    ((respond visit.request).run journal.service)

def run (journal : Journal) (visits : List Visit) : Journal := visits.foldl Journal.visit journal

def repliesTo (journal : Journal) (user : Identifier) : List Reply :=
  (journal.replies.filter (·.1 = user)).map Prod.snd

def responsesTo (journal : Journal) (user : Identifier) : List Response :=
  (journal.repliesTo user).map Reply.response

/-- The streams that a user was given. -/
def streamsOf (journal : Journal) (user : Identifier) : List Subscription :=
  (journal.repliesTo user).filterMap Reply.opened

def contentsOf (journal : Journal) (user : Identifier) : List (List Message × Bool) :=
  (journal.streamsOf user).map journal.service.manager.content

/-! Views. -/

/-- What a user can tell of a service. -/
structure View where
  settings : Settings
  tables : Tables
  capacity : Nat
  responses : List Response
  sights : List Sight

def view (journal : Journal) (user : Identifier) : View where
  settings := journal.service.settings
  tables := journal.service.tables.only user
  capacity := journal.service.manager.capacity
  responses := journal.responsesTo user
  sights := (journal.streamsOf user).map fun stream =>
    journal.service.manager.sight user stream.queue

/-- A view after an errand of the user whose view it is. -/
def View.after (view : View) (isHead : Bool) : Errand → View
  | .consult plan =>
    let (response, tables) := plan.run Tables.serve view.tables
    { view with tables, responses := view.responses ++ [headed isHead response] }
  | .listen _ =>
    { view with
      responses := view.responses ++ [headed isHead .eventStream]
      sights := view.sights.map Sight.replaced ++ (if isHead then [] else [.opened view.capacity]) }

structure Sound (journal : Journal) : Prop where
  keyed : journal.service.tables.Keyed
  manager : journal.service.manager.Sound
  streams : ∀ user, ∀ stream ∈ journal.streamsOf user,
    journal.service.manager.Reserves user stream.queue

variable {journal : Journal}

/-! What is noted of one visit. -/

theorem repliesTo_noted (journal : Journal) (user? : Option Identifier) (outcome : Reply × Service)
    (reader : Identifier) :
    (journal.noted user? outcome).repliesTo reader =
      journal.repliesTo reader ++ if user? = some reader then [outcome.1] else [] := by
  rw [repliesTo, noted, List.filter_append, List.map_append, repliesTo]
  congr 1
  cases user? with
  | none => rfl
  | some user =>
      by_cases huser : user = reader
      · simp [huser]
      · simp [huser]

theorem responsesTo_noted (journal : Journal) (user? : Option Identifier)
    (outcome : Reply × Service) (reader : Identifier) :
    (journal.noted user? outcome).responsesTo reader =
      journal.responsesTo reader ++ if user? = some reader then [outcome.1.response] else [] := by
  rw [responsesTo, repliesTo_noted, List.map_append, responsesTo]
  congr 1
  split
  · rfl
  · rfl

theorem streamsOf_noted (journal : Journal) (user? : Option Identifier)
    (outcome : Reply × Service) (reader : Identifier) :
    (journal.noted user? outcome).streamsOf reader =
      journal.streamsOf reader ++ if user? = some reader then outcome.1.opened.toList else [] := by
  rw [streamsOf, repliesTo_noted, List.filterMap_append, streamsOf]
  congr 1
  split
  · cases hopened : outcome.1.opened with
    | none => simp [hopened]
    | some stream => simp [hopened]
  · rfl

theorem view_noted_self (journal : Journal) (user : Identifier) (outcome : Reply × Service) :
    (journal.noted (some user) outcome).view user =
      { settings := outcome.2.settings
        tables := outcome.2.tables.only user
        capacity := outcome.2.manager.capacity
        responses := journal.responsesTo user ++ [outcome.1.response]
        sights := (journal.streamsOf user ++ outcome.1.opened.toList).map fun stream =>
          outcome.2.manager.sight user stream.queue } := by
  rw [view, responsesTo_noted, streamsOf_noted, if_pos rfl, if_pos rfl]
  rfl

/-- What is noted for one user shows to another only through the service. -/
theorem view_noted_of_ne {user? : Option Identifier} {outcome : Reply × Service}
    (hsound : journal.Sound) (hother : user? ≠ some other)
    (hsettings : outcome.2.settings = journal.service.settings)
    (htables : outcome.2.tables.only other = journal.service.tables.only other)
    (hcapacity : outcome.2.manager.capacity = journal.service.manager.capacity)
    (hsights : ∀ key, journal.service.manager.Reserves other key →
      outcome.2.manager.sight other key = journal.service.manager.sight other key) :
    (journal.noted user? outcome).view other = journal.view other := by
  rw [view, responsesTo_noted, streamsOf_noted, if_neg hother, if_neg hother, List.append_nil,
    List.append_nil, view]
  congr 1
  exact List.map_congr_left fun stream hstream => hsights _ (hsound.streams other stream hstream)

theorem Sound.noted (hsound : journal.Sound) {user? : Option Identifier}
    {outcome : Reply × Service} (hkeyed : outcome.2.tables.Keyed)
    (hmanager : outcome.2.manager.Sound)
    (hreserves : ∀ reader key, journal.service.manager.Reserves reader key →
      outcome.2.manager.Reserves reader key)
    (hopened : ∀ user stream, user? = some user → outcome.1.opened = some stream →
      outcome.2.manager.Reserves user stream.queue) : (journal.noted user? outcome).Sound where
  keyed := hkeyed
  manager := hmanager
  streams reader stream hstream := by
    rw [streamsOf_noted, List.mem_append] at hstream
    rcases hstream with hbefore | hnew
    · exact hreserves reader _ (hsound.streams reader stream hbefore)
    · split at hnew
      case isTrue huser => exact hopened reader stream huser (Option.mem_toList.mp hnew)
      case isFalse => exact absurd hnew List.not_mem_nil

/-! Errands. -/

section Consulting

variable {plan : Plan Response} (hsound : journal.Sound) (hown : (Errand.consult plan).IsOwn user)

include hsound hown

theorem sound_consult (isHead : Bool) :
    (journal.noted (some user)
      (((Errand.consult plan).run isHead).run journal.service)).Sound := by
  have hwithin := hown _ hsound.keyed
  rw [run_consult hwithin]
  exact hsound.noted (hwithin.keyed_run hsound.keyed) hsound.manager (fun _ _ hkey => hkey) nofun

theorem view_consult (isHead : Bool) :
    (journal.noted (some user)
        (((Errand.consult plan).run isHead).run journal.service)).view user =
      (journal.view user).after isHead (.consult plan) := by
  have hwithin := hown _ hsound.keyed
  rw [run_consult hwithin, view_noted_self, View.after, view, hwithin.run_only]
  simp only [Reply.of, Option.toList_none, List.append_nil]

theorem view_consult_of_ne (isHead : Bool) (hother : other ≠ user) :
    (journal.noted (some user)
        (((Errand.consult plan).run isHead).run journal.service)).view other =
      journal.view other := by
  have hwithin := hown _ hsound.keyed
  rw [run_consult hwithin]
  exact view_noted_of_ne hsound (fun huser => hother (Option.some.inj huser).symm) rfl
    (hwithin.only_run_of_ne hother) rfl fun _ _ => rfl

end Consulting

section Listening

variable {reply : Reply} {manager : Live.Manager} {keys : List Live.QueueKey}
  (hsound : journal.Sound)
  (hreopened : Live.Manager.Reopened user keys journal.service.manager manager)

include hsound hreopened

theorem sound_listen (hopened : ∀ stream, reply.opened = some stream →
    stream.queue = journal.service.manager.registry.queues.length) :
    (journal.noted (some user) (reply, { journal.service with manager })).Sound := by
  refine hsound.noted hsound.keyed (hreopened.sound hsound.manager)
    (fun reader key => hreopened.reserves) ?_
  intro reader stream hreader hstream
  rw [hopened stream hstream, ← Option.some.inj hreader]
  exact hreopened.reserves_self hsound.manager

theorem sights_listen :
    (journal.streamsOf user).map (fun stream => manager.sight user stream.queue) =
      (journal.view user).sights.map Sight.replaced := by
  rw [view, List.map_map]
  refine List.map_congr_left fun stream hstream => ?_
  exact hreopened.sight_self (hsound.streams user stream hstream).lt_length

theorem view_listen_of_ne (hother : other ≠ user) :
    (journal.noted (some user) (reply, { journal.service with manager })).view other =
      journal.view other :=
  view_noted_of_ne hsound (fun huser => hother (Option.some.inj huser).symm) rfl rfl
    hreopened.capacity fun _ hkey => hreopened.sight_of_ne hother hkey

end Listening

/-- What a user's errand does to the journal shows in that user's view alone. -/
structure Advances (journal : Journal) (user : Identifier) (isHead : Bool) (errand : Errand)
    (after : Journal) : Prop where
  sound : after.Sound
  own : after.view user = (journal.view user).after isHead errand
  others : ∀ other, other ≠ user → after.view other = journal.view other

theorem advances (hsound : journal.Sound) {errand : Errand} (hown : errand.IsOwn user)
    (isHead : Bool) :
    journal.Advances user isHead errand
      (journal.noted (some user) ((errand.run isHead).run journal.service)) := by
  cases errand with
  | consult plan =>
      exact ⟨sound_consult hsound hown isHead, view_consult hsound hown isHead,
        fun _ hother => view_consult_of_ne hsound hown isHead hother⟩
  | listen owner =>
      obtain rfl : user = owner := hown
      cases isHead with
      | true =>
          have hreopened := Live.Manager.reopened_glimpsed journal.service.manager user
          rw [run_listen_head hsound.manager]
          refine ⟨sound_listen hsound hreopened nofun, ?_,
            fun _ hother => view_listen_of_ne hsound hreopened hother⟩
          rw [view_noted_self, List.map_append, sights_listen hsound hreopened]
          rfl
      | false =>
          have hreopened := Live.Manager.reopened_subscribed journal.service.manager user
          have hnew := Live.Manager.sight_subscribed_self hsound.manager user
          rw [run_listen hsound.manager]
          refine ⟨sound_listen hsound hreopened ?_, ?_,
            fun _ hother => view_listen_of_ne hsound hreopened hother⟩
          · rintro stream hstream
            cases hstream
            rfl
          · rw [view_noted_self, List.map_append, sights_listen hsound hreopened,
              Option.toList_some, List.map_singleton, Live.Manager.nextSubscription, hnew]
            rfl

/-! Visits one after another. -/

theorem Sound.timed (hsound : journal.Sound) (now : Nat) : (journal.timed now).Sound :=
  ⟨hsound.keyed, hsound.manager, hsound.streams⟩

/-- What a visit of a user changes depends on the visit alone. -/
theorem exists_advances (user : Identifier) (visit : Visit)
    (hroute : Route.ofPath? visit.request.path ≠ some .events) :
    ∃ (errand : Errand) (isHead : Bool), ∀ journal : Journal, journal.Sound →
      visit.user? journal.service.settings.tokenSecret = some user →
        journal.Advances user isHead errand (journal.visit visit) := by
  obtain ⟨errand, isHead, hown, hrespond⟩ := exists_errand user visit.request hroute
  refine ⟨errand, isHead, fun journal hsound huser => ?_⟩
  have hrun := hrespond (journal.timed visit.now).service huser
  have hvisit : journal.visit visit = (journal.timed visit.now).noted (some user)
      ((errand.run isHead).run (journal.timed visit.now).service) := by
    rw [← hrun, ← huser]
    rfl
  have hadvances := advances (hsound.timed visit.now) hown isHead
  rw [hvisit]
  exact ⟨hadvances.sound, hadvances.own, hadvances.others⟩

theorem visit_of_stranger {visit : Visit}
    (hroute : Route.ofPath? visit.request.path ≠ some .events)
    (huser : visit.user? journal.service.settings.tokenSecret = none) :
    journal.visit visit = journal.timed visit.now := by
  have hservice : ((respond visit.request).run (journal.timed visit.now).service).2 =
      (journal.timed visit.now).service := respond_of_stranger hroute huser
  have hvisit : journal.visit visit = (journal.timed visit.now).noted none
      ((respond visit.request).run (journal.timed visit.now).service) := by
    rw [← huser]
    rfl
  rw [hvisit, noted, hservice]
  exact congrArg (Journal.mk _) (List.append_nil _)

/-- Who asks for a stream is given one. -/
theorem Sound.visit_stream (hsound : journal.Sound) {visit : Visit}
    (hroute : Route.ofPath? visit.request.path = some .stream) (hmethod : visit.request.method = "GET")
    (huser : visit.user? journal.service.settings.tokenSecret = some user) :
    journal.visit visit = (journal.timed visit.now).noted (some user)
      (⟨.eventStream, some (journal.service.manager.nextSubscription user)⟩,
        { (journal.timed visit.now).service with
          manager := journal.service.manager.subscribed user }) := by
  have herrand : errand? journal.service.settings visit.now visit.request .stream =
      some (.listen user) := congrArg some (withUser_of_user huser)
  have hmethods : visit.request.method ∈ Route.stream.methods :=
    hmethod ▸ List.mem_cons_self
  have hrespond : (respond visit.request).run (journal.timed visit.now).service =
      ((Errand.listen user).run (visit.request.method = "HEAD")).run
        (journal.timed visit.now).service := respond_run hroute hmethods herrand
  have hhead : decide (visit.request.method = "HEAD") = false := by
    rw [hmethod]
    decide
  rw [hhead] at hrespond
  have hstream := hrespond.trans (run_listen (hsound.timed visit.now).manager user)
  rw [Journal.visit]
  exact congrArg₂ (journal.timed visit.now).noted huser hstream

/-- A visit of anyone else keeps a user's view as it is. -/
theorem view_visit_of_ne (hsound : journal.Sound) {visit : Visit}
    (hroute : Route.ofPath? visit.request.path ≠ some .events)
    (huser : visit.user? journal.service.settings.tokenSecret ≠ some user) :
    (journal.visit visit).Sound ∧ (journal.visit visit).view user = journal.view user := by
  cases hvisitor : visit.user? journal.service.settings.tokenSecret with
  | none =>
      rw [visit_of_stranger hroute hvisitor]
      exact ⟨hsound.timed visit.now, rfl⟩
  | some visitor =>
      obtain ⟨errand, isHead, hadvances⟩ := exists_advances visitor visit hroute
      have hstep := hadvances journal hsound hvisitor
      refine ⟨hstep.sound, hstep.others user ?_⟩
      rintro rfl
      exact huser hvisitor

theorem View.settings_after (view : View) (isHead : Bool) (errand : Errand) :
    (view.after isHead errand).settings = view.settings := by
  cases errand with
  | consult plan => rfl
  | listen => rfl

/-- Runs from the same view end in the same view, even if one of them lacks the visits of others. -/
theorem view_run_filter {journal lone : Journal} {secret : String} {visits : List Visit}
    (hsound : journal.Sound) (hlone : lone.Sound) (hview : journal.view user = lone.view user)
    (hsecret : journal.service.settings.tokenSecret = secret)
    (hroutes : ∀ visit ∈ visits, Route.ofPath? visit.request.path ≠ some .events) :
    (journal.run visits).Sound ∧ (lone.run (visits.filter (Visit.isBy secret user))).Sound ∧
      (journal.run visits).view user =
        (lone.run (visits.filter (Visit.isBy secret user))).view user := by
  induction visits generalizing journal lone with
  | nil => exact ⟨hsound, hlone, hview⟩
  | cons visit visits ih =>
      have hroute := hroutes visit List.mem_cons_self
      have hrest := fun later hlater => hroutes later (List.mem_cons_of_mem _ hlater)
      have hsettings : journal.service.settings = lone.service.settings :=
        congrArg View.settings hview
      by_cases hby : visit.user? secret = some user
      · obtain ⟨errand, isHead, hadvances⟩ := exists_advances user visit hroute
        have hstep := hadvances journal hsound (hsecret ▸ hby)
        have hlonely := hadvances lone hlone (hsettings ▸ hsecret ▸ hby)
        rw [List.filter_cons_of_pos (by simpa [Visit.isBy] using hby)]
        refine ih hstep.sound hlonely.sound ?_ ?_ hrest
        · rw [hstep.own, hlonely.own, hview]
        · rw [← hsecret]
          exact congrArg Settings.tokenSecret
            ((congrArg View.settings hstep.own).trans (View.settings_after _ _ _))
      · obtain ⟨hafter, hsame⟩ := view_visit_of_ne hsound hroute (hsecret ▸ hby)
        rw [List.filter_cons_of_neg (by simpa [Visit.isBy] using hby)]
        refine ih hafter hlone (hsame.trans hview) ?_ hrest
        rw [← hsecret]
        exact congrArg (fun view => view.settings.tokenSecret) hsame

theorem contentsOf_eq (hsound : journal.Sound) (user : Identifier) :
    journal.contentsOf user = (journal.view user).sights.map Sight.content := by
  rw [contentsOf, view, List.map_map]
  refine List.map_congr_left fun stream hstream => ?_
  exact Live.Manager.content_eq hsound.manager (hsound.streams user stream hstream)

theorem sound_start {settings : Settings} {now : Nat} {tables : Tables} {topics : Channel.Topics}
    {takesEvents : Bool} (hkeyed : tables.Keyed) :
    (start (Service.start settings now tables topics takesEvents)).Sound where
  keyed := hkeyed
  manager := Live.Manager.sound_ofCapacity settings.streamCapacity
  streams _ _ hstream := absurd hstream List.not_mem_nil

/--
Whatever the others ask for, with whatever ids, pages and sizes: to leave out the requests of all but
one user changes neither the responses to that user, nor the user's rows, nor what the user's streams
hold, apart from the ids of connections.
-/
theorem undisturbed_by_others (settings : Settings) (now : Nat) (tables : Tables) (topics : Channel.Topics)
    (takesEvents : Bool) (hkeyed : tables.Keyed) (user : Identifier) (visits : List Visit)
    (hroutes : ∀ visit ∈ visits, Route.ofPath? visit.request.path ≠ some .events) :
    let journal := start (Service.start settings now tables topics takesEvents)
    let full := journal.run visits
    let lone := journal.run (visits.filter (Visit.isBy settings.tokenSecret user))
    full.responsesTo user = lone.responsesTo user ∧
      full.service.tables.rowsOf user = lone.service.tables.rowsOf user ∧
      full.contentsOf user = lone.contentsOf user := by
  intro journal full lone
  have hsound : journal.Sound := sound_start hkeyed
  obtain ⟨hfull, hlone, hview⟩ : full.Sound ∧ lone.Sound ∧ full.view user = lone.view user :=
    view_run_filter hsound hsound rfl rfl hroutes
  refine ⟨congrArg View.responses hview, congrArg (fun view => view.tables.rows) hview, ?_⟩
  rw [contentsOf_eq hfull, contentsOf_eq hlone]
  exact congrArg (fun view => view.sights.map Sight.content) hview

/-! Someone with a token of their own tries to mark the row of a reader, who has yet to see it. -/

def reader : Identifier := .ofNat 1

def readerToken : String :=
  "eyJhbGciOiJIUzI1NiJ9.eyJzdWIiOiIwMDAwMDAwMDAwMDAwMDAwMDAwMDAwMDAwMDAwMDAwMSIsImV4cCI6OX0." ++
    "lT5KkEiW0H0I3mK_-FUOfwHAbeWdcqkQNDd4V8hnaSg"

def strangerToken : String :=
  "eyJhbGciOiJIUzI1NiJ9.eyJzdWIiOiIwMDAwMDAwMDAwMDAwMDAwMDAwMDAwMDAwMDAwMDAwMiIsImV4cCI6OX0." ++
    "CIhVBOPGWagZLq1OCKCizzbKeIHq-jJyqp8vbVwYnrA"

def visitOf (token method path : String) : Visit :=
  ⟨0, ⟨method, path, "", [("authorization", "Bearer " ++ token)], []⟩⟩

def unreadRow : Notification where
  id := .ofNat 7
  user := reader
  type := .reviewApproved
  isRead := false
  post := none
  postTitle := none
  commentContent := none
  content := none
  reason := none
  createdAt := .epoch

def sharedTables : Tables :=
  ⟨[⟨reader, "reader", .epoch, .epoch⟩, ⟨.ofNat 2, "stranger", .epoch, .epoch⟩], [unreadRow], 0,
    fun index => ⟨.ofNat (8 + index), .epoch⟩, false⟩

def strangerVisit : Visit :=
  visitOf strangerToken "PATCH" "/notifications/00000000-0000-0000-0000-000000000007/read"

def readerVisit : Visit := visitOf readerToken "GET" "/notifications/stream"

def sharedSettings : Settings := .defaults "s3cret"

def sharedStart : Journal :=
  start (Service.start sharedSettings 0 sharedTables (.withHistoryLimit 8) true)

theorem undisturbed_by_stranger :
    let journal := sharedStart.run [strangerVisit, readerVisit]
    strangerVisit.user? sharedSettings.tokenSecret = some (.ofNat 2) ∧
      journal.responsesTo reader = [.eventStream] ∧
      journal.service.tables.rowsOf reader = [unreadRow] ∧
      journal.contentsOf reader = [([.connected ""], false)] := by
  have hkeyed : sharedTables.Keyed := List.nodup_singleton _
  have hroutes : ∀ visit ∈ [strangerVisit, readerVisit],
      Route.ofPath? visit.request.path ≠ some .events := by
    decide
  have hstranger : strangerVisit.user? sharedSettings.tokenSecret = some (.ofNat 2) := by
    decide +kernel
  have hreader : readerVisit.user? sharedSettings.tokenSecret = some reader := by
    decide +kernel
  have hlone : [strangerVisit, readerVisit].filter (Visit.isBy sharedSettings.tokenSecret reader) =
      [readerVisit] := by
    rw [List.filter_cons_of_neg, List.filter_cons_of_pos, List.filter_nil]
    · exact decide_eq_true hreader
    · rw [Visit.isBy, hstranger]
      decide
  have hsound : sharedStart.Sound := sound_start hkeyed
  have hstream : Route.ofPath? readerVisit.request.path = some .stream := by
    decide
  have hvisit := hsound.visit_stream hstream rfl hreader
  obtain ⟨hresponses, hrows, hcontents⟩ := undisturbed_by_others sharedSettings 0 sharedTables
    (.withHistoryLimit 8) true hkeyed reader [strangerVisit, readerVisit] hroutes
  rw [hlone] at hresponses hrows hcontents
  change _ = (sharedStart.visit readerVisit).responsesTo reader at hresponses
  change _ = (sharedStart.visit readerVisit).service.tables.rowsOf reader at hrows
  change _ = (sharedStart.visit readerVisit).contentsOf reader at hcontents
  rw [hvisit] at hresponses hrows hcontents
  exact ⟨hstranger, hresponses, hrows, hcontents⟩

end Journal

end Herald.Service
