import Herald.Live.Registry
import Herald.Proofs.Identifier
import Mathlib.Data.List.Nodup

/-!
The entries and queues of a registry after each of its operations. Pushing a message on the queues of
some connections is one relation between registries, which sending and broadcasting both are cases
of.
-/

namespace Herald.Live.Registry

variable {registry : Registry} {user other : Identifier} {connection : Connection}
  {key : QueueKey} {message : Message}

/-! Entries. -/

def users (registry : Registry) : List Identifier := registry.entries.map Prod.fst

theorem lookup_filter_ne (entries : List (Identifier × Connection)) (user other : Identifier) :
    (entries.filter (·.1 ≠ user)).lookup other =
      if other = user then none else entries.lookup other := by
  induction entries with
  | nil => simp
  | cons entry entries ih =>
      obtain ⟨owner, connection⟩ := entry
      by_cases howner : owner = user
      · subst howner
        rw [List.filter_cons_of_neg (by simp), ih]
        split
        case isTrue => rfl
        case isFalse hother =>
          rw [List.lookup_cons, beq_false_of_ne hother]
      · rw [List.filter_cons_of_pos (by simpa using howner), List.lookup_cons, ih,
          List.lookup_cons]
        cases hbeq : other == owner with
        | true =>
            obtain rfl : other = owner := eq_of_beq hbeq
            simp only [if_neg howner]
        | false => rfl

theorem mem_entries_of_connection? (hconnection : registry.connection? user = some connection) :
    (user, connection) ∈ registry.entries := by
  obtain ⟨front, back, hentries, _⟩ := List.lookup_eq_some_iff.mp hconnection
  rw [hentries]
  exact List.mem_append_right front List.mem_cons_self

theorem connection?_of_mem_entries (husers : registry.users.Nodup)
    (hmem : (user, connection) ∈ registry.entries) :
    registry.connection? user = some connection := by
  obtain ⟨front, back, hentries⟩ := List.append_of_mem hmem
  rw [users, hentries, List.map_append, List.map_cons, List.nodup_middle,
    List.nodup_cons] at husers
  refine List.lookup_eq_some_iff.mpr ⟨front, back, hentries, ?_⟩
  intro entry hentry
  apply bne_iff_ne.mpr
  rintro rfl
  exact husers.1 (List.mem_append_left _ (List.mem_map.mpr ⟨entry, hentry, rfl⟩))

theorem mem_entries_iff (husers : registry.users.Nodup) {entry : Identifier × Connection} :
    entry ∈ registry.entries ↔ registry.connection? entry.1 = some entry.2 :=
  ⟨connection?_of_mem_entries husers, mem_entries_of_connection?⟩

theorem mem_users_iff (husers : registry.users.Nodup) :
    user ∈ registry.users ↔ (registry.connection? user).isSome = true := by
  rw [users, List.mem_map, Option.isSome_iff_exists]
  constructor
  · rintro ⟨entry, hentry, rfl⟩
    exact ⟨entry.2, connection?_of_mem_entries husers hentry⟩
  · rintro ⟨connection, hconnection⟩
    exact ⟨_, mem_entries_of_connection? hconnection, rfl⟩

theorem connection?_remove (registry : Registry) (user other : Identifier) :
    (registry.remove user).connection? other =
      if other = user then none else registry.connection? other :=
  lookup_filter_ne registry.entries user other

theorem connection?_install (registry : Registry) (user other : Identifier)
    (connection : Connection) :
    (registry.install user connection).connection? other =
      if other = user then some connection else registry.connection? other := by
  rw [connection?, install, List.lookup_append, lookup_filter_ne, List.lookup_cons,
    List.lookup_nil]
  by_cases hother : other = user
  · rw [if_pos hother, if_pos hother, Option.none_or, beq_iff_eq.mpr hother]
  · rw [if_neg hother, if_neg hother, beq_false_of_ne hother, Option.or_none]
    rfl

theorem users_remove (registry : Registry) (user : Identifier) :
    (registry.remove user).users = registry.users.filter (· ≠ user) := by
  rw [users, remove, users, List.filter_map]
  rfl

theorem nodup_users_remove (husers : registry.users.Nodup) (user : Identifier) :
    (registry.remove user).users.Nodup := by
  rw [users_remove]
  exact husers.filter _

theorem nodup_users_install (husers : registry.users.Nodup) (user : Identifier)
    (connection : Connection) : (registry.install user connection).users.Nodup := by
  have hinstall : (registry.install user connection).users =
      registry.users.filter (· ≠ user) ++ [user] := by
    rw [users, install, List.map_append, ← users_remove]
    rfl
  rw [hinstall, ← List.concat_eq_append, List.nodup_concat]
  refine ⟨fun hmem => ?_, husers.filter _⟩
  have hne := (List.mem_filter.mp hmem).2
  simp at hne

def IsConnection (registry : Registry) (user : Identifier) (id : ConnectionId) : Prop :=
  (registry.connection? user).map Connection.id = some id

instance (registry : Registry) (user : Identifier) (id : ConnectionId) :
    Decidable (registry.IsConnection user id) :=
  inferInstanceAs (Decidable (_ = _))

theorem isConnection_iff {id : ConnectionId} : registry.IsConnection user id ↔
    ∃ connection, registry.connection? user = some connection ∧ connection.id = id :=
  Option.map_eq_some_iff

theorem unregister_of_isConnection {id : ConnectionId} (hid : registry.IsConnection user id) :
    registry.unregister user id = (registry.remove user, true) := by
  obtain ⟨connection, hconnection, rfl⟩ := isConnection_iff.mp hid
  rw [unregister, hconnection]
  exact if_pos rfl

theorem unregister_of_not_isConnection {id : ConnectionId}
    (hid : ¬registry.IsConnection user id) : registry.unregister user id = (registry, false) := by
  rw [unregister]
  cases hconnection : registry.connection? user with
  | none => rfl
  | some connection => exact if_neg fun heq => hid (isConnection_iff.mpr ⟨connection, hconnection, heq⟩)

theorem connection?_unregister (registry : Registry) (user other : Identifier)
    (id : ConnectionId) :
    (registry.unregister user id).1.connection? other =
      if other = user ∧ registry.IsConnection user id then none
      else registry.connection? other := by
  by_cases hid : registry.IsConnection user id
  · rw [unregister_of_isConnection hid, connection?_remove]
    simp only [hid, and_true]
  · rw [unregister_of_not_isConnection hid]
    simp only [hid, and_false, if_false]

theorem nodup_users_unregister (husers : registry.users.Nodup) (user : Identifier)
    (id : ConnectionId) : (registry.unregister user id).1.users.Nodup := by
  by_cases hid : registry.IsConnection user id
  · rw [unregister_of_isConnection hid]
    exact nodup_users_remove husers user
  · rw [unregister_of_not_isConnection hid]
    exact husers

theorem issued_unregister (registry : Registry) (user : Identifier) (id : ConnectionId) :
    (registry.unregister user id).1.issued = registry.issued := by
  by_cases hid : registry.IsConnection user id
  · rw [unregister_of_isConnection hid]
    rfl
  · rw [unregister_of_not_isConnection hid]

/-! Queues. -/

theorem queues_unregister (registry : Registry) (user : Identifier) (id : ConnectionId) :
    (registry.unregister user id).1.queues = registry.queues := by
  by_cases hid : registry.IsConnection user id
  · rw [unregister_of_isConnection hid]
    rfl
  · rw [unregister_of_not_isConnection hid]

theorem queue?_unregister (registry : Registry) (user : Identifier) (id : ConnectionId)
    (key : QueueKey) : (registry.unregister user id).1.queue? key = registry.queue? key := by
  rw [queue?, queues_unregister, queue?]

theorem queue?_changeQueue (registry : Registry) (key other : QueueKey) (change : Queue → Queue) :
    (registry.changeQueue key change).queue? other =
      if key = other then (registry.queue? other).map change else registry.queue? other := by
  rw [queue?, changeQueue, List.getElem?_modify, queue?]
  by_cases hkey : key = other
  · simp only [if_pos hkey]
    rfl
  · simp only [if_neg hkey]
    exact id_map _

theorem length_queues_changeQueue (registry : Registry) (key : QueueKey)
    (change : Queue → Queue) :
    (registry.changeQueue key change).queues.length = registry.queues.length :=
  List.length_modify ..

theorem hasRoom_of_queue? {queue : Queue} (hqueue : registry.queue? key = some queue) :
    registry.hasRoom key = queue.hasRoom := by
  rw [hasRoom, hqueue]

theorem hasRoom_congr {after : Registry} (hqueue : after.queue? key = registry.queue? key) :
    after.hasRoom key = registry.hasRoom key := by
  rw [hasRoom, hqueue, hasRoom]

end Herald.Live.Registry
