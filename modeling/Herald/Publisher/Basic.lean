import Herald.Event.Basic

/-!
Publishers hand each event to their handlers in the order in which these were added. Deriving a
publisher leaves the one it comes from as it is. A pending buffer keeps the events of work that is
not committed yet.
-/

namespace Herald

structure Publisher (Handler : Type) where
  handlers : List Handler
  deriving Repr

namespace Publisher

variable {Handler : Type}

def empty : Publisher Handler := ⟨[]⟩

def withHandler (publisher : Publisher Handler) (handler : Handler) : Publisher Handler :=
  ⟨publisher.handlers ++ [handler]⟩

def calls (publisher : Publisher Handler) (events : List Event) : List (Handler × Event) :=
  events.flatMap fun event => publisher.handlers.map fun handler => (handler, event)

def publish {m : Type → Type} [Monad m] (handle : Handler → Event → m Unit)
    (publisher : Publisher Handler) (event : Event) : m Unit :=
  publisher.handlers.forM fun handler => handle handler event

def publishAll {m : Type → Type} [Monad m] (handle : Handler → Event → m Unit)
    (publisher : Publisher Handler) (events : List Event) : m Unit :=
  events.forM (publisher.publish handle)

end Publisher

structure Pending where
  events : List Event
  deriving DecidableEq, Repr

namespace Pending

def empty : Pending := ⟨[]⟩

def stage (pending : Pending) (event : Event) : Pending := ⟨pending.events ++ [event]⟩

def size (pending : Pending) : Nat := pending.events.length

def isEmpty (pending : Pending) : Bool := pending.events.isEmpty

end Pending

end Herald
