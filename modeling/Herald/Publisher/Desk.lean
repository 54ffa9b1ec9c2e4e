import Herald.Publisher.Basic

/-!
Publishers and pending buffers kept under names, and the steps that make, use and empty them. Every
step answers with the calls it made.
-/

namespace Herald

structure Desk (Handler : Type) where
  publishers : List (String × Publisher Handler)
  buffers : List (String × Pending)
  deriving Repr

namespace Desk

variable {Handler : Type}

inductive Step (Handler : Type)
  | create (name : String)
  | derive (name source : String) (handler : Handler)
  | publish (name : String) (events : List Event)
  | stage (buffer : String) (event : Event)
  | look (buffer : String)
  | discard (buffer : String)
  | drain (buffer : String)
  | drainTo (buffer publisher : String)

inductive Reply (Handler : Type)
  | done
  | calls (calls : List (Handler × Event))
  | size (pending : Pending)
  | existed (existed : Bool)
  | events (events : List Event)

def empty : Desk Handler := ⟨[], []⟩

def put {α : Type} (entries : List (String × α)) (name : String) (value : α) : List (String × α) :=
  (name, value) :: entries.filter (·.1 ≠ name)

def without {α : Type} (entries : List (String × α)) (name : String) : List (String × α) :=
  entries.filter (·.1 ≠ name)

def publisher (desk : Desk Handler) (name : String) : Publisher Handler :=
  (desk.publishers.lookup name).getD .empty

def buffer (desk : Desk Handler) (name : String) : Pending :=
  (desk.buffers.lookup name).getD .empty

def keep (desk : Desk Handler) (name : String) (publisher : Publisher Handler) : Desk Handler :=
  { desk with publishers := put desk.publishers name publisher }

def fill (desk : Desk Handler) (name : String) (pending : Pending) : Desk Handler :=
  { desk with buffers := put desk.buffers name pending }

def clear (desk : Desk Handler) (name : String) : Desk Handler :=
  { desk with buffers := without desk.buffers name }

def step (desk : Desk Handler) : Step Handler → Desk Handler × Reply Handler
  | .create name => (desk.keep name .empty, .done)
  | .derive name source handler =>
    (desk.keep name ((desk.publisher source).withHandler handler), .done)
  | .publish name events => (desk, .calls ((desk.publisher name).calls events))
  | .stage name event =>
    let pending := (desk.buffer name).stage event
    (desk.fill name pending, .size pending)
  | .look name =>
    let pending := desk.buffer name
    (desk.fill name pending, .size pending)
  | .discard name => (desk.clear name, .existed (desk.buffers.lookup name).isSome)
  | .drain name => (desk.clear name, .events (desk.buffer name).events)
  | .drainTo name publisher =>
    (desk.clear name, .calls ((desk.publisher publisher).calls (desk.buffer name).events))

def run (desk : Desk Handler) : List (Step Handler) → List (Reply Handler)
  | [] => []
  | step :: steps =>
    let (desk, reply) := desk.step step
    reply :: desk.run steps

end Desk

end Herald
