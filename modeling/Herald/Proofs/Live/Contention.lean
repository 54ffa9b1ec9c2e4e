import Herald.Proofs.Live.Expiry

/-!
Users of a registry who contend for its entries. Commands begin at any time, each with its first step,
and the calls that they leave are resumed in any order. Any queue may be registered, also one that was
registered before, that is full or that takes no more; and between two steps the other ends of the
queues may do anything to them.
-/

namespace Herald.Live

/-- What is asked of a registry. -/
inductive Command
  | register (user : Identifier) (key : QueueKey)
  | unregister (user : Identifier) (id : ConnectionId)
  | send (user : Identifier) (message : Message)
  | broadcast (message : Message) (order : Order)

def Command.begin (registry : Registry) : Command → Registry × Call
  | .register user key => ((registry.register user key).1, .finished)
  | .unregister user id => (Call.unregister user id).step registry
  | .send user message => (Call.send user message).step registry
  | .broadcast message order => (Call.broadcast message order).step registry

inductive Move
  | begin (command : Command)
  /-- The next step of a call that has begun; calls are numbered as they begin. -/
  | resume (index : Nat)
  /-- Whatever else happens to the queues: readers take, close or leave, and queues are made. -/
  | exchange (queues : List Queue)

namespace Traffic

def move (traffic : Traffic) : Move → Traffic
  | .begin command =>
    let (registry, rest) := command.begin traffic.registry
    ⟨registry, traffic.calls ++ [rest]⟩
  | .resume index => traffic.turn (.call index)
  | .exchange queues => { traffic with registry := { traffic.registry with queues } }

/-- A registry that was empty at first, and the calls in flight, after some moves. -/
def after (moves : List Move) : Traffic := moves.foldl move (start [])

/-- The user whose entry a move looks at or changes; taking copies of all entries changes none. -/
def userOf? (traffic : Traffic) : Move → Option Identifier
  | .begin (.register user _) | .begin (.unregister user _) | .begin (.send user _) => some user
  | .begin (.broadcast ..) | .exchange _ => none
  | .resume index =>
    match traffic.calls[index]? with
    | some (.settle user ..) | some (.push _ ((user, _) :: _)) => some user
    | _ => none

/-- The call whose push a move tries, and the connection that the push is meant for. -/
def tried? (traffic : Traffic) : Move → Option (Nat × Identifier × Connection)
  | .begin (.send user _) =>
    (traffic.registry.connection? user).map fun connection =>
      (traffic.calls.length, user, connection)
  | .resume index =>
    match traffic.calls[index]? with
    | some (.push _ (copy :: _)) => some (index, copy)
    | _ => none
  | _ => none

/-- The last step of a call so far was to try a push on a connection's own queue, which refused it. -/
def Refused (moves : List Move) (index : Nat) (user : Identifier) (connection : Connection) : Prop :=
  ∃ earlier move later, moves = earlier ++ move :: later ∧
    (after earlier).tried? move = some (index, user, connection) ∧
    (after earlier).registry.hasRoom connection.queue = false ∧ Move.resume index ∉ later

/-- The moves that may end a connection of a user. -/
inductive Ends (moves : List Move) (user : Identifier) (connection : Connection) : Move → Prop
  | unregister : Ends moves user connection (.begin (.unregister user connection.id))
  | register (key : QueueKey) : Ends moves user connection (.begin (.register user key))
  | settle {index : Nat} {message : Message} {copies : List (Identifier × Connection)}
      (hcall : (after moves).calls[index]? = some (.settle user connection.id false message copies))
      (hrefused : Refused moves index user connection) :
      Ends moves user connection (.resume index)

end Traffic

/-! Entries after each step. -/

namespace Registry

variable {registry : Registry} {user other : Identifier} {key : QueueKey} {message : Message}

theorem register_of_no_room (hroom : (registry.expire user).hasRoom key = false) :
    registry.register user key =
      (((registry.expire user).changeQueue key
        (·.push (.connected (ConnectionId.text ⟨registry.issued + 1⟩)))).remove user,
        .error ⟨⟨registry.issued + 1⟩⟩) := by
  rw [register, offer, hroom]
  rfl

theorem connection?_register (registry : Registry) (user other : Identifier) (key : QueueKey) :
    (registry.register user key).1.connection? other =
      if other = user then
        if (registry.expire user).hasRoom key = true then some ⟨⟨registry.issued + 1⟩, key⟩ else none
      else registry.connection? other := by
  cases hroom : (registry.expire user).hasRoom key with
  | true =>
      rw [register_of_room hroom, if_pos rfl, ← connection?_expire registry user other]
      exact connection?_install ..
  | false =>
      rw [register_of_no_room hroom, if_neg Bool.false_ne_true,
        ← connection?_expire registry user other]
      exact connection?_remove ..

theorem nodup_users_register (husers : registry.users.Nodup) (user : Identifier) (key : QueueKey) :
    (registry.register user key).1.users.Nodup := by
  rw [← users_expire registry user] at husers
  cases hroom : (registry.expire user).hasRoom key with
  | true =>
      rw [register_of_room hroom]
      exact nodup_users_install husers user _
  | false =>
      rw [register_of_no_room hroom]
      exact nodup_users_remove husers user

theorem issued_register (registry : Registry) (user : Identifier) (key : QueueKey) :
    (registry.register user key).1.issued =
      registry.issued + if (registry.expire user).hasRoom key = true then 1 else 0 := by
  cases hroom : (registry.expire user).hasRoom key with
  | true =>
      rw [register_of_room hroom, ← issued_expire registry user]
      rfl
  | false =>
      rw [register_of_no_room hroom, ← issued_expire registry user]
      rfl

theorem connection?_of_register {id : ConnectionId}
    (hid : (registry.register user key).2 = .ok id) :
    (registry.register user key).1.connection? user = some ⟨id, key⟩ := by
  cases hroom : (registry.expire user).hasRoom key with
  | true =>
      rw [register_of_room hroom] at hid
      rw [connection?_register, if_pos rfl, if_pos hroom]
      cases hid
      rfl
  | false =>
      rw [register_of_no_room hroom] at hid
      cases hid

theorem connection?_settle (registry : Registry) (user other : Identifier) (id : ConnectionId)
    (taken : Bool) :
    (registry.settle user id taken).1.connection? other =
      if taken = false ∧ other = user ∧ registry.IsConnection user id then none
      else registry.connection? other := by
  rw [settle]
  cases taken with
  | true => exact (if_neg fun hboth => Bool.noConfusion hboth.1).symm
  | false => simpa using connection?_unregister registry user other id

end Registry

end Herald.Live
