import Herald.Proofs.Publisher.Course

/-!
Publishers that share their lists of handlers. A publisher is then the place of a list, which its copies
have in common with it. Deriving a publisher writes another list and leaves those that are there, so
that from outside this is the same as if every publisher had its handlers to itself.
-/

namespace Herald

open Desk (Reply Step)

structure Shelf (Handler : Type) where
  /-- The lists of handlers, each at the place where it was written. -/
  lists : List (List Handler)
  publishers : List (String × Nat)
  buffers : List (String × Pending)

namespace Shelf

variable {Handler : Type} {shelf : Shelf Handler}

def empty : Shelf Handler := ⟨[], [], []⟩

/-- The publisher that the list at a place makes up. -/
def publisherAt (lists : List (List Handler)) (place : Nat) : Publisher Handler :=
  ⟨lists[place]?.getD []⟩

def publisher (shelf : Shelf Handler) (name : String) : Publisher Handler :=
  ((shelf.publishers.lookup name).map (publisherAt shelf.lists)).getD .empty

/-- Writes a list and gives its place a name. -/
def write (shelf : Shelf Handler) (name : String) (handlers : List Handler) : Shelf Handler :=
  { shelf with
    lists := shelf.lists ++ [handlers]
    publishers := Desk.put shelf.publishers name shelf.lists.length }

/-- The buffers without the publishers. -/
def pending (shelf : Shelf Handler) : Desk Handler := ⟨[], shelf.buffers⟩

def step (shelf : Shelf Handler) : Step Handler → Shelf Handler × Reply Handler
  | .create name => (shelf.write name [], .done)
  | .derive name source handler =>
    (shelf.write name ((shelf.publisher source).handlers ++ [handler]), .done)
  | .publish name events => (shelf, .calls ((shelf.publisher name).calls events))
  | .drainTo buffer name =>
    ({ shelf with buffers := Desk.without shelf.buffers buffer },
      .calls ((shelf.publisher name).calls (shelf.pending.buffer buffer).events))
  | step =>
    let (desk, reply) := shelf.pending.step step
    ({ shelf with buffers := desk.buffers }, reply)

def run (shelf : Shelf Handler) : List (Step Handler) → List (Reply Handler)
  | [] => []
  | step :: steps => (shelf.step step).2 :: (shelf.step step).1.run steps

/-- What a shelf is to the outside. -/
def shown (shelf : Shelf Handler) : Desk Handler :=
  ⟨shelf.publishers.map fun entry => (entry.1, publisherAt shelf.lists entry.2), shelf.buffers⟩

/-- Publishers are places of lists that were written. -/
def Sound (shelf : Shelf Handler) : Prop :=
  ∀ entry ∈ shelf.publishers, entry.2 < shelf.lists.length

theorem lookup_map_snd {α β : Type} (change : α → β) (entries : List (String × α)) (name : String) :
    (entries.map fun entry => (entry.1, change entry.2)).lookup name =
      (entries.lookup name).map change := by
  induction entries with
  | nil => rfl
  | cons entry entries ih =>
      rw [List.map_cons, List.lookup_cons, List.lookup_cons, ih]
      cases name == entry.1 with
      | true => rfl
      | false => rfl

theorem publisher_shown (shelf : Shelf Handler) (name : String) :
    shelf.shown.publisher name = shelf.publisher name := by
  rw [Desk.publisher, shown, lookup_map_snd]
  rfl

theorem publisherAt_append {lists : List (List Handler)} {place : Nat}
    (hplace : place < lists.length) (handlers : List Handler) :
    publisherAt (lists ++ [handlers]) place = publisherAt lists place := by
  rw [publisherAt, publisherAt, List.getElem?_append_left hplace]

theorem publisherAt_last (lists : List (List Handler)) (handlers : List Handler) :
    publisherAt (lists ++ [handlers]) lists.length = ⟨handlers⟩ := by
  rw [publisherAt, List.getElem?_concat_length, Option.getD_some]

theorem Sound.write (hsound : shelf.Sound) (name : String) (handlers : List Handler) :
    (shelf.write name handlers).Sound := by
  intro entry hentry
  rw [Shelf.write, List.length_append, List.length_singleton]
  rcases List.mem_cons.mp hentry with rfl | hkept
  · exact Nat.lt_succ_self _
  · exact Nat.lt_succ_of_lt (hsound entry (List.mem_filter.mp hkept).1)

/-- The list that is written shows under its name, and the others show as before. -/
theorem Sound.shown_write (hsound : shelf.Sound) (name : String) (handlers : List Handler) :
    (shelf.write name handlers).shown = shelf.shown.keep name ⟨handlers⟩ := by
  have hkept : (shelf.publishers.filter (·.1 ≠ name)).map
        (fun entry => (entry.1, publisherAt (shelf.lists ++ [handlers]) entry.2)) =
      (shelf.publishers.map fun entry =>
        (entry.1, publisherAt shelf.lists entry.2)).filter (·.1 ≠ name) := by
    rw [List.filter_map]
    apply List.map_congr_left
    intro entry hentry
    rw [publisherAt_append (hsound entry (List.mem_filter.mp hentry).1)]
  simp only [shown, Shelf.write, Desk.keep, Desk.put, List.map_cons, publisherAt_last, hkept]

theorem Sound.step (hsound : shelf.Sound) (step : Step Handler) :
    (shelf.step step).1.Sound ∧ (shelf.step step).1.shown = (shelf.shown.step step).1 ∧
      (shelf.step step).2 = (shelf.shown.step step).2 := by
  cases step with
  | create name => exact ⟨hsound.write name [], hsound.shown_write name [], rfl⟩
  | derive name source handler =>
      refine ⟨hsound.write name _, ?_, rfl⟩
      change (shelf.write name _).shown =
        shelf.shown.keep name ((shelf.shown.publisher source).withHandler handler)
      rw [hsound.shown_write, publisher_shown]
      rfl
  | publish name events =>
      refine ⟨hsound, rfl, ?_⟩
      change _ = Reply.calls ((shelf.shown.publisher name).calls events)
      rw [publisher_shown]
      rfl
  | drainTo buffer name =>
      refine ⟨hsound, rfl, ?_⟩
      change _ = Reply.calls ((shelf.shown.publisher name).calls _)
      rw [publisher_shown]
      rfl
  | _ => exact ⟨hsound, rfl, rfl⟩

/-- With shared lists the steps are answered as with a list for each publisher. -/
theorem Sound.run (hsound : shelf.Sound) (steps : List (Step Handler)) :
    shelf.run steps = shelf.shown.run steps := by
  induction steps generalizing shelf with
  | nil => rfl
  | cons step steps ih =>
      obtain ⟨hafter, hshown, hreply⟩ := hsound.step step
      rw [Shelf.run, ih hafter, hshown, hreply]
      rfl

theorem run_empty (steps : List (Step Handler)) : empty.run steps = Desk.empty.run steps := by
  have hempty : (empty : Shelf Handler).Sound := nofun
  exact hempty.run steps

end Shelf

namespace Desk

variable {σ Handler : Type}

/--
What a step is answered with, told from the steps before it: each event goes to the handlers of the
chain that made the publisher, and a buffer gives what was staged on it.
-/
def Answers (earlier : List (Step Handler)) (reply : Reply Handler) : Step Handler → Prop
  | .create _ | .derive .. => reply = .done
  | .publish name events =>
    reply = .calls (events.flatMap fun event =>
      (chain earlier.reverse name).map fun handler => (handler, event))
  | .stage buffer event => reply = .size ⟨staged earlier buffer ++ [event]⟩
  | .look buffer => reply = .size ⟨staged earlier buffer⟩
  | .discard _ => ∃ existed, reply = .existed existed
  | .drain buffer => reply = .events (staged earlier buffer)
  | .drainTo buffer name =>
    reply = .calls ((staged earlier buffer).flatMap fun event =>
      (chain earlier.reverse name).map fun handler => (handler, event))

theorem calls_after (steps : List (Step Handler)) (name : String) (events : List Event) :
    ((empty.after steps).publisher name).calls events =
      events.flatMap fun event =>
        (chain steps.reverse name).map fun handler => (handler, event) := by
  rw [publisher_after, Publisher.calls_ofHandlers]

theorem answers_step (earlier : List (Step Handler)) (step : Step Handler) :
    Answers earlier ((empty.after earlier).step step).2 step := by
  cases step with
  | create name => rfl
  | derive name source handler => rfl
  | publish name events => exact congrArg Reply.calls (calls_after earlier name events)
  | stage buffer event =>
      change Reply.size (((empty.after earlier).buffer buffer).stage event) = _
      rw [buffer_after]
      rfl
  | look buffer => exact congrArg Reply.size (buffer_after earlier buffer)
  | discard buffer => exact ⟨_, rfl⟩
  | drain buffer =>
      change Reply.events ((empty.after earlier).buffer buffer).events = _
      rw [buffer_after]
  | drainTo buffer name =>
      change Reply.calls (((empty.after earlier).publisher name).calls
        ((empty.after earlier).buffer buffer).events) = _
      rw [calls_after, buffer_after]

/-- A buffer that a step takes away is gone, and the others are as before. -/
theorem buffers_step_of_removes {step : Step Handler} {buffer : String}
    (hremoves : step.removes buffer = true) (desk : Desk Handler) :
    (desk.step step).1.buffers = without desk.buffers buffer := by
  cases step with
  | discard name =>
      obtain rfl : name = buffer := of_decide_eq_true hremoves
      rfl
  | drain name =>
      obtain rfl : name = buffer := of_decide_eq_true hremoves
      rfl
  | drainTo name publisher =>
      obtain rfl : name = buffer := of_decide_eq_true hremoves
      rfl
  | _ => cases hremoves

/--
Publishers and buffers under names, after any course of steps and whether publishers share their
handlers or not. Every step is answered as the steps before it say. To publish events is to call, event
by event, the handlers of the chain that made the publisher, whatever these do. Deriving a publisher
changes no other one. A buffer holds what was staged on it, in order, since it was last taken away; when
it is taken away it is gone, and what was staged on it is never there again for another step.
-/
theorem publishers_persist_and_buffers_yield_once (steps : List (Step Handler)) :
    let desk := empty.after steps
    (∀ index step, steps[index]? = some step →
      ∃ reply, (empty.run steps)[index]? = some reply ∧
        (Shelf.empty.run steps)[index]? = some reply ∧ Answers (steps.take index) reply step) ∧
    (∀ name events (handle : Handler → Event → StateM σ Unit) state,
      (((desk.publisher name).publishAll (Publisher.noting handle) events).run
          (state, [])).2.2.map Publisher.Call.pair =
        events.flatMap fun event =>
          (chain steps.reverse name).map fun handler => (handler, event)) ∧
    (∀ name source handler,
      let derived := (desk.step (.derive name source handler)).1
      derived.publisher name = (desk.publisher source).withHandler handler ∧
        ∀ other, other ≠ name → derived.publisher other = desk.publisher other) ∧
    (∀ buffer, ∃ origins : List Nat, origins.Pairwise (· < ·) ∧
      (∀ place, place ∈ origins ↔ (∃ event, steps[place]? = some (.stage buffer event)) ∧
        ∀ later (step : Step Handler), place < later → steps[later]? = some step →
          step.removes buffer = false) ∧
      (desk.buffer buffer).events = origins.filterMap (eventAt? steps)) ∧
    (∀ step buffer, step.removes buffer = true →
      (desk.step step).1.buffers.lookup buffer = none ∧
        ∀ other, other ≠ buffer →
          (desk.step step).1.buffers.lookup other = desk.buffers.lookup other) ∧
    ∀ first second taking taken firstBuffer secondBuffer place,
      steps[first]? = some taking → taking.removes firstBuffer = true →
      steps[second]? = some taken → taken.removes secondBuffer = true →
      place ∈ places (steps.take first) firstBuffer →
      place ∈ places (steps.take second) secondBuffer → first = second := by
  intro desk
  refine ⟨fun index step hstep => ?_, fun name events handle state => ?_,
    fun name source handler => ?_, fun buffer => ?_, fun step buffer hremoves => ?_, ?_⟩
  · have hreply := getElem?_run hstep (empty : Desk Handler)
    exact ⟨_, hreply, Shelf.run_empty steps ▸ hreply, answers_step _ step⟩
  · rw [Publisher.publishAll_noting, ← calls_after]
    exact Publisher.map_pair_trace state _
  · exact ⟨publisher_keep_self .., fun other hother => publisher_keep_of_ne hother _⟩
  · refine ⟨places steps buffer, pairwise_places steps buffer, fun _ => mem_places_iff, ?_⟩
    exact congrArg Pending.events (buffer_after steps buffer)
  · rw [buffers_step_of_removes hremoves]
    exact ⟨lookup_without_self .., fun other hother => lookup_without_of_ne hother _⟩
  · intro first second taking taken firstBuffer secondBuffer place hfirst htaking hsecond htaken
      hplace hother
    exact Nat.le_antisymm (le_of_mem_places hsecond htaken hother hplace)
      (le_of_mem_places hfirst htaking hplace hother)

end Desk

end Herald
