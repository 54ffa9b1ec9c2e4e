import Herald.Publisher.Basic

/-!
The calls that publishing makes. Handlers may change the state, so each call is noted together with
the state it found; publishing makes the calls event by event, for each event in the order of the
handlers.
-/

namespace Herald.Publisher

variable {σ Handler : Type}

theorem handlers_foldl_withHandler (registered : List Handler) (publisher : Publisher Handler) :
    (registered.foldl withHandler publisher).handlers = publisher.handlers ++ registered := by
  induction registered generalizing publisher with
  | nil => exact (List.append_nil _).symm
  | cons handler registered ih =>
      rw [List.foldl_cons, ih, withHandler, List.append_assoc, List.singleton_append]

/-- The publisher to which the handlers were added one after another. -/
def ofHandlers (registered : List Handler) : Publisher Handler :=
  registered.foldl withHandler empty

theorem calls_ofHandlers (registered : List Handler) (events : List Event) :
    (ofHandlers registered).calls events =
      events.flatMap fun event => registered.map fun handler => (handler, event) := by
  rw [calls, ofHandlers, handlers_foldl_withHandler]
  rfl

theorem flatMap_pairs_ne_nil_iff (events : List Event) (registered : List Handler) :
    (events.flatMap fun event => registered.map fun handler => (handler, event)) ≠ [] ↔
      events ≠ [] ∧ registered ≠ [] := by
  rw [Ne, List.flatMap_eq_nil_iff]
  constructor
  · intro hsome
    refine ⟨?_, ?_⟩
    · rintro rfl
      exact hsome fun _ hmem => absurd hmem List.not_mem_nil
    · rintro rfl
      exact hsome fun _ _ => List.map_nil
  · rintro ⟨hevents, hregistered⟩ hnone
    obtain ⟨event, hevent⟩ := List.exists_mem_of_ne_nil events hevents
    exact hregistered (List.map_eq_nil_iff.mp (hnone event hevent))

/-- A call of a handler and the state it found. -/
structure Call (σ Handler : Type) where
  handler : Handler
  event : Event
  found : σ

namespace Call

def pair (call : Call σ Handler) : Handler × Event := (call.handler, call.event)

def leave (handle : Handler → Event → StateM σ Unit) (state : σ) (call : Call σ Handler) : σ :=
  ((handle call.handler call.event).run state).2

end Call

/-- Handling that also notes every call. -/
def noting (handle : Handler → Event → StateM σ Unit) (handler : Handler) (event : Event) :
    StateM (σ × List (Call σ Handler)) Unit := fun noted =>
  ((), (((handle handler event).run noted.1).2, noted.2 ++ [⟨handler, event, noted.1⟩]))

/-- The calls for pairs of a handler and an event, from a state on. -/
def trace (handle : Handler → Event → StateM σ Unit) :
    σ → List (Handler × Event) → List (Call σ Handler)
  | _, [] => []
  | state, (handler, event) :: rest =>
    ⟨handler, event, state⟩ :: trace handle ((handle handler event).run state).2 rest

variable {handle : Handler → Event → StateM σ Unit}

theorem map_pair_trace (state : σ) (pairs : List (Handler × Event)) :
    (trace handle state pairs).map Call.pair = pairs := by
  induction pairs generalizing state with
  | nil => rfl
  | cons pair pairs ih =>
      rw [trace, List.map_cons, ih]
      rfl

/-- A call finds what the calls before it left. -/
theorem found_trace (state : σ) (pairs : List (Handler × Event)) {index : Nat}
    {call : Call σ Handler} (hcall : (trace handle state pairs)[index]? = some call) :
    call.found = ((trace handle state pairs).take index).foldl (Call.leave handle) state := by
  induction pairs generalizing state index with
  | nil => simp [trace] at hcall
  | cons pair pairs ih =>
      rw [trace] at hcall ⊢
      cases index with
      | zero =>
          obtain rfl : _ = call := Option.some.inj hcall
          rfl
      | succ index =>
          rw [List.getElem?_cons_succ] at hcall
          rw [ih _ hcall, List.take_succ_cons, List.foldl_cons]
          rfl

theorem publishAll_eq_forM_calls {m : Type → Type} [Monad m] [LawfulMonad m]
    (handle : Handler → Event → m Unit) (publisher : Publisher Handler) (events : List Event) :
    publisher.publishAll handle events =
      (publisher.calls events).forM fun pair => handle pair.1 pair.2 := by
  induction events with
  | nil => rfl
  | cons event events ih =>
      have hpublish : publisher.publish handle event =
          forM (publisher.handlers.map fun handler => (handler, event)) fun pair =>
            handle pair.1 pair.2 := by
        rw [List.forM_map]
        rfl
      change (publisher.publish handle event >>= fun _ => publisher.publishAll handle events) = _
      rw [hpublish, ih]
      exact List.forM_append.symm

theorem forM_run (pairs : List (Handler × Event)) (state : σ) :
    (pairs.forM fun pair => handle pair.1 pair.2).run state =
      ((), (trace handle state pairs).foldl (Call.leave handle) state) := by
  induction pairs generalizing state with
  | nil => rfl
  | cons pair pairs ih =>
      change (pairs.forM fun pair => handle pair.1 pair.2).run
        ((handle pair.1 pair.2).run state).2 = _
      rw [ih]
      rfl

theorem forM_noting (pairs : List (Handler × Event)) (state : σ)
    (before : List (Call σ Handler)) :
    (pairs.forM fun pair => noting handle pair.1 pair.2).run (state, before) =
      let made := trace handle state pairs
      ((), (made.foldl (Call.leave handle) state, before ++ made)) := by
  induction pairs generalizing state before with
  | nil =>
      simp only [trace, List.append_nil]
      rfl
  | cons pair pairs ih =>
      change (pairs.forM fun pair => noting handle pair.1 pair.2).run
        (((handle pair.1 pair.2).run state).2, before ++ [⟨pair.1, pair.2, state⟩]) = _
      rw [ih]
      simp only [trace, List.foldl_cons, List.append_assoc, List.singleton_append]
      rfl

theorem publishAll_run (publisher : Publisher Handler) (events : List Event) (state : σ) :
    (publisher.publishAll handle events).run state =
      ((), (trace handle state (publisher.calls events)).foldl (Call.leave handle) state) := by
  rw [publishAll_eq_forM_calls]
  exact forM_run _ state

theorem publishAll_noting (publisher : Publisher Handler) (events : List Event) (state : σ)
    (before : List (Call σ Handler)) :
    (publisher.publishAll (noting handle) events).run (state, before) =
      let made := trace handle state (publisher.calls events)
      ((), (made.foldl (Call.leave handle) state, before ++ made)) := by
  rw [publishAll_eq_forM_calls]
  exact forM_noting _ state before

end Herald.Publisher
