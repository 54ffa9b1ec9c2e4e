import Herald.Proofs.Dispatch.Race

/-!
What finished races have done: every content is recorded once for its recipient and handed to the
channel by the one caller that recorded it.
-/

namespace Herald.Dispatch

open Store (Tables)
open Store.Tables (isAbout Distinct)

variable {tables : Tables} {events : List Event}

theorem concerns_iff {user content : Identifier} {event : Event} :
    concerns user content event = true ↔
      event.recipientId? = some user ∧ event.contentId? = some content := by
  rw [concerns, Bool.and_eq_true, decide_eq_true_eq, decide_eq_true_eq]

theorem Sound.of_done {caller : Caller} {result : Except Failure Outcome}
    (hsound : Sound tables caller) (hdone : caller.plan = .done result) :
    (caller.Announced ∧ Gained caller.event caller.added) ∨
      (caller.Duplicate ∧ caller.added = [] ∧ ∃ user content,
        concerns user content caller.event = true ∧ tables.hasContent user content = true) := by
  cases hsound with
  | finding hnew => nomatch hdone
  | looking hnew hcontent => nomatch hdone
  | inserting hnew => nomatch hdone
  | @duplicate event new content hnew hcontent hrow =>
      refine .inr ⟨⟨rfl, rfl⟩, rfl, new.user, content, ?_, hrow⟩
      obtain ⟨hrecipient, hnewContent⟩ := ofEvent?_eq_some hnew
      exact concerns_iff.mpr ⟨hrecipient, hnewContent.trans hcontent⟩
  | announcing hgained => nomatch hdone
  | announced hgained taken => exact .inl ⟨⟨rfl, taken, rfl⟩, hgained⟩

theorem Sound.of_done_of_contentless {caller : Caller} {result : Except Failure Outcome}
    (hsound : Sound tables caller) (hdone : caller.plan = .done result)
    (hcontent : caller.event.contentId? = none) :
    caller.Announced ∧ Gained caller.event caller.added := by
  rcases hsound.of_done hdone with hannounced | ⟨_, _, user, content, hconcerns, _⟩
  · exact hannounced
  · have hsome := (concerns_iff.mp hconcerns).2
    rw [hcontent] at hsome
    nomatch hsome

theorem countP_gained {event : Event} {rows : List Notification} (hgained : Gained event rows)
    (user content : Identifier) :
    rows.countP (isAbout user content) = if concerns user content event then 1 else 0 := by
  rw [Gained] at hgained
  cases hnew : NewNotification.ofEvent? event with
  | none =>
      rw [hnew] at hgained
      subst hgained
      rw [concerns, (ofEvent?_eq_none hnew).1]
      rfl
  | some new =>
      rw [hnew] at hgained
      obtain ⟨stamp, rfl⟩ := hgained
      obtain ⟨hrecipient, hcontent⟩ := ofEvent?_eq_some hnew
      have habout : isAbout user content (new.recorded stamp.id stamp.createdAt) =
          concerns user content event := by
        rw [Bool.eq_iff_iff, Store.Tables.isAbout_iff, concerns_iff, hrecipient, hcontent,
          Option.some_inj]
        exact Iff.rfl
      rw [List.countP_singleton, habout]

theorem countP_added {caller : Caller} {result : Except Failure Outcome}
    (hsound : Sound tables caller) (hdone : caller.plan = .done result)
    (user content : Identifier) :
    caller.added.countP (isAbout user content) =
      if concerns user content caller.event && caller.hasPublished then 1 else 0 := by
  rcases hsound.of_done hdone with ⟨⟨hpublished, _⟩, hgained⟩ | ⟨⟨hpublished, _⟩, hadded, _⟩
  · rw [countP_gained hgained, Caller.hasPublished, hpublished]
    simp
  · rw [hadded, Caller.hasPublished, hpublished]
    simp

theorem countP_flatMap_of_indicator {α β : Type} {f : α → List β} {p : β → Bool} {q : α → Bool}
    {l : List α} (hcount : ∀ a ∈ l, (f a).countP p = if q a then 1 else 0) :
    (l.flatMap f).countP p = l.countP q := by
  induction l with
  | nil => rfl
  | cons a l ih =>
      rw [List.flatMap_cons, List.countP_append, List.countP_cons, hcount a List.mem_cons_self,
        ih fun b hb => hcount b (List.mem_cons_of_mem a hb), Nat.add_comm]

theorem Race.Inv.countP_rows {race : Race} (hinv : race.Inv tables events)
    (hfinished : race.Finished) (user content : Identifier) :
    race.tables.rows.countP (isAbout user content) =
      tables.rows.countP (isAbout user content) +
        race.callers.countP fun caller =>
          concerns user content caller.event && caller.hasPublished := by
  rw [hinv.rows.countP_eq, List.countP_append]
  congr 1
  apply countP_flatMap_of_indicator
  intro caller hcaller
  obtain ⟨result, hdone⟩ := hfinished caller hcaller
  exact countP_added (hinv.sound caller hcaller) hdone user content

theorem Race.Inv.countP_rows_eq_one {race : Race} (hinv : race.Inv tables events)
    (hfinished : race.Finished) {user content : Identifier} {event : Event}
    (hevent : event ∈ events) (hconcerns : concerns user content event = true) :
    race.tables.rows.countP (isAbout user content) = 1 := by
  apply Nat.le_antisymm (hinv.distinct user content)
  rw [← hinv.events] at hevent
  obtain ⟨caller, hcaller, rfl⟩ := List.mem_map.mp hevent
  obtain ⟨result, hdone⟩ := hfinished caller hcaller
  rcases (hinv.sound caller hcaller).of_done hdone with ⟨hannounced, _⟩ | ⟨_, _, hrow⟩
  · rw [hinv.countP_rows hfinished]
    refine Nat.le_add_left_of_le (List.countP_pos_iff.mpr ⟨caller, hcaller, ?_⟩)
    rw [hconcerns, Caller.hasPublished, hannounced.1]
    rfl
  · obtain ⟨user', content', hconcerns', hrow⟩ := hrow
    obtain ⟨hrecipient, hcontent⟩ := concerns_iff.mp hconcerns
    obtain ⟨hrecipient', hcontent'⟩ := concerns_iff.mp hconcerns'
    obtain rfl : user = user' := Option.some.inj (hrecipient.symm.trans hrecipient')
    obtain rfl : content = content' := Option.some.inj (hcontent.symm.trans hcontent')
    exact Store.Tables.hasContent_iff.mp hrow

/--
Whatever the order of the steps: rows stay distinct, and once all callers have finished, each content
that is new to its recipient has one row and was handed to the channel by one caller, while the other
callers found it a duplicate. Events without content are recorded by every caller of their own, and
events for everyone by none.
-/
theorem race_announces_once (schedule : List Turn) (hopen : tables.isClosed = false)
    (hdistinct : Distinct tables.rows) (hknown : Known tables events) :
    let race := (Race.start tables events).run schedule
    Distinct race.tables.rows ∧
      race.callers.map Caller.event = events ∧
      ((∀ index < events.length, 4 ≤ schedule.countP (·.caller = index)) → race.Finished) ∧
      (race.Finished →
        (∀ user content, tables.hasContent user content = false →
          (∃ event ∈ events, concerns user content event = true) →
          race.tables.rows.countP (isAbout user content) = 1 ∧
            (race.callers.countP fun caller =>
              concerns user content caller.event && caller.hasPublished) = 1 ∧
            ∀ caller ∈ race.callers, concerns user content caller.event = true →
              caller.Announced ∨ caller.Duplicate) ∧
        (∀ caller ∈ race.callers, caller.event.contentId? = none →
          caller.event.isPersisted = true →
          caller.Announced ∧ ∃ new, NewNotification.ofEvent? caller.event = some new ∧
            ∃ stamp : Store.Stamp, caller.added = [new.recorded stamp.id stamp.createdAt]) ∧
        (∀ caller ∈ race.callers, caller.event.recipient = .everyone →
          caller.Announced ∧ caller.added = []) ∧
        race.tables.rows.Perm (tables.rows ++ race.callers.flatMap Caller.added)) := by
  intro race
  have hinv : race.Inv tables events :=
    Race.inv_run hknown (Race.inv_start hopen hdistinct) schedule
  refine ⟨hinv.distinct, hinv.events, Race.finished_of_four_turns, ?_⟩
  intro hfinished
  refine ⟨?_, ?_, ?_, hinv.rows⟩
  · rintro user content hnew ⟨event, hevent, hconcerns⟩
    have hrow := hinv.countP_rows_eq_one hfinished hevent hconcerns
    have hcount := hinv.countP_rows hfinished user content
    rw [hrow, Store.Tables.hasContent_eq_false_iff.mp hnew, Nat.zero_add] at hcount
    refine ⟨hrow, hcount.symm, ?_⟩
    intro caller hcaller _
    obtain ⟨result, hdone⟩ := hfinished caller hcaller
    rcases (hinv.sound caller hcaller).of_done hdone with ⟨hannounced, _⟩ | ⟨hduplicate, _⟩
    · exact .inl hannounced
    · exact .inr hduplicate
  · intro caller hcaller hcontent hpersisted
    obtain ⟨result, hdone⟩ := hfinished caller hcaller
    obtain ⟨hannounced, hgained⟩ :=
      (hinv.sound caller hcaller).of_done_of_contentless hdone hcontent
    rw [← ofEvent?_isSome] at hpersisted
    obtain ⟨new, hnew⟩ := Option.isSome_iff_exists.mp hpersisted
    rw [Gained, hnew] at hgained
    exact ⟨hannounced, new, hnew, hgained⟩
  · intro caller hcaller heveryone
    have hnone := ofEvent?_of_everyone heveryone
    obtain ⟨result, hdone⟩ := hfinished caller hcaller
    obtain ⟨hannounced, hgained⟩ := (hinv.sound caller hcaller).of_done_of_contentless hdone
      (ofEvent?_eq_none hnone).2
    rw [Gained, hnone] at hgained
    exact ⟨hannounced, hgained⟩

/-! A comment and a reply about one content race with a review and a deleted post, turn by turn. -/

def author : User := ⟨.ofNat 1, "ana", .epoch, .epoch⟩

def authorTables : Tables := ⟨[author], [], 0, fun index => ⟨.ofNat index, .epoch⟩, false⟩

def authorEvents : List Event :=
  [.commentCreated author.id (.ofNat 7) (.ofNat 2) "post" "comment" .epoch,
    .replyCreated author.id (.ofNat 7) (.ofNat 2) "post" "reply" .epoch,
    .reviewApproved author.id .epoch,
    .postDeleted (.ofNat 3) .freeTalk .epoch]

def authorTurns : List Turn :=
  (List.replicate 4 [⟨0, true⟩, ⟨1, false⟩, ⟨2, true⟩, ⟨3, false⟩]).flatten

theorem race_of_comment_and_reply :
    authorTables.isClosed = false ∧ Distinct authorTables.rows ∧ Known authorTables authorEvents ∧
      let race := (Race.start authorTables authorEvents).run authorTurns
      race.Finished ∧
        race.tables.rows.countP (isAbout author.id (.ofNat 7)) = 1 ∧
        (race.callers.countP fun caller =>
          concerns author.id (.ofNat 7) caller.event && caller.hasPublished) = 1 := by
  have hdistinct : Distinct authorTables.rows := fun _ _ => Nat.zero_le 1
  have hknown : Known authorTables authorEvents := by
    intro event hevent user huser
    simp only [authorEvents, List.mem_cons, List.not_mem_nil, or_false] at hevent
    rcases hevent with rfl | rfl | rfl | rfl <;> cases huser <;> rfl
  obtain ⟨_, _, hturns, hend⟩ :=
    race_announces_once authorTurns rfl hdistinct hknown
  have hfinished := hturns (by decide)
  obtain ⟨hrow, hcaller, _⟩ := (hend hfinished).1 author.id (.ofNat 7) rfl
    ⟨_, List.mem_cons_self, rfl⟩
  exact ⟨rfl, hdistinct, hknown, hfinished, hrow, hcaller⟩

end Herald.Dispatch
