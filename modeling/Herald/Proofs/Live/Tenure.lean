import Herald.Proofs.Live.Contention
import Mathlib.Data.List.Induction

/-!
How long a connection keeps its entry. Every id is granted once, and a call in flight remembers an id
together with the user and the queue that it was granted for. So a push that was refused costs only the
connection it was meant for, however many registrations came in between.
-/

namespace Herald.Live.Traffic

variable {moves : List Move} {granted : List (Identifier × Connection)} {index : Nat} {call : Call}
  {user : Identifier} {connection : Connection} {registry : Registry} {last : Move}

theorem after_append (moves : List Move) (last : Move) :
    after (moves ++ [last]) = (after moves).move last :=
  List.foldl_concat ..

/-! What the calls in flight remember. -/

theorem Refused.mono (hrefused : Refused moves index user connection)
    (hlast : last ≠ .resume index) : Refused (moves ++ [last]) index user connection := by
  obtain ⟨earlier, move, later, rfl, htried, hroom, hlater⟩ := hrefused
  refine ⟨earlier, move, later ++ [last], ?_, htried, hroom, ?_⟩
  · rw [List.append_assoc, List.cons_append]
  · intro hmem
    rcases List.mem_append.mp hmem with hmem | hmem
    · exact hlater hmem
    · exact hlast (List.mem_singleton.mp hmem).symm

theorem Refused.of_tried (htried : (after moves).tried? last = some (index, user, connection))
    (hroom : (after moves).registry.hasRoom connection.queue = false) :
    Refused (moves ++ [last]) index user connection :=
  ⟨moves, last, [], rfl, htried, hroom, List.not_mem_nil⟩

/-- A call past its first step, all of whose connections were granted. -/
inductive Underway (moves : List Move) (granted : List (Identifier × Connection)) (index : Nat) :
    Call → Prop
  | push {message : Message} {copies : List (Identifier × Connection)} (hcopies : copies ⊆ granted) :
      Underway moves granted index (.push message copies)
  | settle {user : Identifier} {connection : Connection} {taken : Bool} {message : Message}
      {copies : List (Identifier × Connection)} (hcopies : copies ⊆ granted)
      (hgranted : (user, connection) ∈ granted)
      (hrefused : taken = false → Refused moves index user connection) :
      Underway moves granted index (.settle user connection.id taken message copies)
  | finished : Underway moves granted index .finished

theorem Underway.mono {more : List (Identifier × Connection)}
    (hunderway : Underway moves granted index call) (hlast : last ≠ .resume index) :
    Underway (moves ++ [last]) (granted ++ more) index call := by
  have hmore : granted ⊆ granted ++ more := List.subset_append_left ..
  cases hunderway with
  | push hcopies => exact .push (List.Subset.trans hcopies hmore)
  | settle hcopies hgranted hrefused =>
      exact .settle (List.Subset.trans hcopies hmore) (hmore hgranted) fun htaken =>
        (hrefused htaken).mono hlast
  | finished => exact .finished

/-! The connections that were granted. -/

/-- The connection that a move makes, if it makes one. -/
def grants (registry : Registry) : Move → List (Identifier × Connection)
  | .begin (.register user key) =>
    if (registry.expire user).hasRoom key = true then [(user, ⟨⟨registry.issued + 1⟩, key⟩)] else []
  | _ => []

/-- The ids that were granted are distinct, and entries and calls in flight have no others. -/
structure Orderly (moves : List Move) (granted : List (Identifier × Connection)) : Prop where
  users : (after moves).registry.users.Nodup
  ids : (granted.map (·.2.id)).Nodup
  issued : ∀ entry ∈ granted, entry.2.id.number ≤ (after moves).registry.issued
  entries : (after moves).registry.entries ⊆ granted
  calls : ∀ index call, (after moves).calls[index]? = some call → Underway moves granted index call

theorem Orderly.entries_append (horderly : Orderly moves granted)
    (more : List (Identifier × Connection)) : (after moves).registry.entries ⊆ granted ++ more :=
  List.subset_append_of_subset_left more horderly.entries

/-- A step of a call past its first step: it removes an entry at most, and goes on as such a call. -/
theorem Orderly.resume (horderly : Orderly moves granted)
    (hcall : (after moves).calls[index]? = some call) :
    Registry.Shrinks (after moves).registry (call.step (after moves).registry).1 ∧
      (call.step (after moves).registry).1.users.Nodup ∧
      (call.step (after moves).registry).1.issued = (after moves).registry.issued ∧
      Underway (moves ++ [.resume index]) granted index (call.step (after moves).registry).2 := by
  cases horderly.calls index call hcall with
  | finished => exact ⟨.refl _, horderly.users, rfl, .finished⟩
  | @push message copies hcopies =>
      cases copies with
      | nil => exact ⟨.refl _, horderly.users, rfl, .finished⟩
      | cons copy copies =>
          obtain ⟨hgranted, hcopies⟩ := List.cons_subset.mp hcopies
          refine ⟨Registry.shrinks_changeQueue .., horderly.users, rfl, ?_⟩
          refine .settle hcopies hgranted fun hroom => Refused.of_tried ?_ hroom
          rw [tried?, hcall]
  | @settle user connection taken message copies hcopies hgranted hrefused =>
      refine ⟨Registry.shrinks_settle .., ?_, ?_, .push hcopies⟩
      · cases taken with
        | true => exact horderly.users
        | false => exact Registry.nodup_users_unregister horderly.users ..
      · cases taken with
        | true => rfl
        | false => exact Registry.issued_unregister ..

/-- The first step of a command: only a registration adds an entry. -/
theorem Orderly.begin (horderly : Orderly moves granted) (command : Command) :
    let more := grants (after moves).registry (.begin command)
    (command.begin (after moves).registry).1.entries ⊆ granted ++ more ∧
      (command.begin (after moves).registry).1.users.Nodup ∧
      (command.begin (after moves).registry).1.issued =
        (after moves).registry.issued + more.length ∧
      Underway (moves ++ [.begin command]) (granted ++ more) (after moves).calls.length
        (command.begin (after moves).registry).2 := by
  have hkeep := horderly.entries_append []
  cases command with
  | register user key =>
      refine ⟨?_, Registry.nodup_users_register horderly.users user key, ?_, .finished⟩
      · intro entry hentry
        rw [Command.begin, Registry.entries_register] at hentry
        rcases List.mem_append.mp hentry with hearlier | hnew
        · exact horderly.entries_append _ (List.mem_filter.mp hearlier).1
        · exact List.mem_append_right _ hnew
      · refine (Registry.issued_register ..).trans ?_
        rw [grants]
        split
        · rfl
        · rfl
  | unregister user id =>
      refine ⟨?_, Registry.nodup_users_unregister horderly.users user id,
        Registry.issued_unregister .., .finished⟩
      exact List.Subset.trans (Registry.shrinks_unregister ..).entries.subset hkeep
  | send user message =>
      cases hconnection : (after moves).registry.connection? user with
      | none =>
          rw [Command.begin, Call.step, hconnection]
          exact ⟨hkeep, horderly.users, rfl, .finished⟩
      | some connection =>
          rw [Command.begin, Call.step, hconnection]
          refine ⟨hkeep, horderly.users, rfl, .settle (List.nil_subset _) ?_ ?_⟩
          · exact hkeep (Registry.mem_entries_of_connection? hconnection)
          · intro hroom
            refine Refused.of_tried ?_ hroom
            rw [tried?, hconnection]
            rfl
  | broadcast message order =>
      refine ⟨hkeep, horderly.users, rfl, .push ?_⟩
      exact List.Subset.trans (order.perm _).subset hkeep

/-- The id of a new connection is above all that were granted. -/
theorem Orderly.ids_grants (horderly : Orderly moves granted) (move : Move) :
    ((granted ++ grants (after moves).registry move).map (·.2.id)).Nodup ∧
      ∀ entry ∈ granted ++ grants (after moves).registry move, entry.2.id.number ≤
        (after moves).registry.issued + (grants (after moves).registry move).length := by
  have hnone : (∃ user key, move = .begin (.register user key) ∧
      grants (after moves).registry move =
        [(user, ⟨⟨(after moves).registry.issued + 1⟩, key⟩)]) ∨
      grants (after moves).registry move = [] := by
    rcases move with (⟨user, key⟩ | _ | _ | _) | _ | _
    · by_cases hroom : ((after moves).registry.expire user).hasRoom key = true
      · exact .inl ⟨user, key, rfl, if_pos hroom⟩
      · exact .inr (if_neg hroom)
    all_goals exact .inr rfl
  rcases hnone with ⟨user, key, rfl, hgrants⟩ | hgrants
  · rw [hgrants, List.map_append, List.nodup_append]
    refine ⟨⟨horderly.ids, List.nodup_singleton _, ?_⟩, ?_⟩
    · rintro id hid other hother rfl
      obtain ⟨entry, hentry, rfl⟩ := List.mem_map.mp hid
      have hle := horderly.issued entry hentry
      rw [List.mem_singleton.mp hother] at hle
      exact Nat.not_succ_le_self _ hle
    · intro entry hentry
      rcases List.mem_append.mp hentry with hearlier | hnew
      · exact Nat.le_succ_of_le (horderly.issued entry hearlier)
      · rw [List.mem_singleton.mp hnew]
        exact Nat.le_refl _
  · rw [hgrants, List.append_nil]
    exact ⟨horderly.ids, horderly.issued⟩

theorem Orderly.registry_move (horderly : Orderly moves granted) (move : Move) :
    let registry := ((after moves).move move).registry
    let more := grants (after moves).registry move
    registry.entries ⊆ granted ++ more ∧ registry.users.Nodup ∧
      registry.issued = (after moves).registry.issued + more.length := by
  have hkeep := horderly.entries_append []
  cases move with
  | begin command =>
      obtain ⟨hentries, husers, hissued, _⟩ := horderly.begin command
      exact ⟨hentries, husers, hissued⟩
  | resume index =>
      cases hcall : (after moves).calls[index]? with
      | none =>
          rw [Traffic.move, turn_of_none hcall]
          exact ⟨hkeep, horderly.users, rfl⟩
      | some call =>
          obtain ⟨hshrinks, husers, hissued, _⟩ := horderly.resume hcall
          rw [Traffic.move, turn_call hcall]
          exact ⟨List.Subset.trans hshrinks.entries.subset hkeep, husers, hissued⟩
  | exchange queues => exact ⟨hkeep, horderly.users, rfl⟩

theorem Orderly.calls_move (horderly : Orderly moves granted) (move : Move)
    (hcall : ((after moves).move move).calls[index]? = some call) :
    Underway (moves ++ [move]) (granted ++ grants (after moves).registry move) index call := by
  cases move with
  | begin command =>
      rw [Traffic.move, List.getElem?_append] at hcall
      by_cases hindex : index < (after moves).calls.length
      · rw [if_pos hindex] at hcall
        exact (horderly.calls index call hcall).mono (by simp)
      · rw [if_neg hindex, List.getElem?_singleton, Option.ite_none_right_eq_some] at hcall
        obtain ⟨hzero, hrest⟩ := hcall
        obtain rfl : index = (after moves).calls.length := by omega
        cases hrest
        exact (horderly.begin command).2.2.2
  | resume resumed =>
      have hother {rest : Call} (hne : resumed ≠ index)
          (hrest : (after moves).calls[index]? = some rest) :
          Underway (moves ++ [.resume resumed]) (granted ++ []) index rest :=
        (horderly.calls index rest hrest).mono (by simpa using hne)
      cases hresumed : (after moves).calls[resumed]? with
      | none =>
          rw [Traffic.move, turn_of_none hresumed] at hcall
          refine hother ?_ hcall
          rintro rfl
          cases hresumed.symm.trans hcall
      | some stepped =>
          rw [Traffic.move, turn_call hresumed] at hcall
          by_cases hindex : resumed = index
          · subst hindex
            rw [List.getElem?_set_self (List.getElem?_eq_some_iff.mp hresumed).1] at hcall
            cases hcall
            exact (List.append_nil granted).symm ▸ (horderly.resume hresumed).2.2.2
          · rw [List.getElem?_set_ne hindex] at hcall
            exact hother hindex hcall
  | exchange queues => exact (horderly.calls index call hcall).mono (by simp)

theorem Orderly.move (horderly : Orderly moves granted) (move : Move) :
    Orderly (moves ++ [move]) (granted ++ grants (after moves).registry move) := by
  obtain ⟨hids, hissued⟩ := horderly.ids_grants move
  obtain ⟨hentries, husers, hnumber⟩ := horderly.registry_move move
  rw [← hnumber] at hissued
  rw [← after_append] at hentries husers hissued
  refine ⟨husers, hids, hissued, hentries, ?_⟩
  intro index call hcall
  rw [after_append] at hcall
  exact horderly.calls_move move hcall

theorem exists_orderly (moves : List Move) : ∃ granted, Orderly moves granted := by
  induction moves using List.reverseRecOn with
  | nil =>
      refine ⟨[], List.nodup_nil, List.nodup_nil, ?_, List.nil_subset _, ?_⟩
      · intro entry hentry
        cases hentry
      · intro index call hcall
        cases hcall
  | append_singleton moves move ih =>
      obtain ⟨granted, horderly⟩ := ih
      exact ⟨_, horderly.move move⟩

/-! What ends a connection. -/

/-- An entry changes only by a registration, a removal or a settlement of its own user. -/
theorem Orderly.cases_of_changed (horderly : Orderly moves granted) {move : Move}
    (hchanged : ((after moves).move move).registry.connection? user ≠
      (after moves).registry.connection? user) :
    (∃ key, move = .begin (.register user key)) ∨
      ∃ id, (after moves).registry.IsConnection user id ∧
        (move = .begin (.unregister user id) ∨
          ∃ index message copies, move = .resume index ∧
            (after moves).calls[index]? = some (.settle user id false message copies)) := by
  cases move with
  | begin command =>
      cases command with
      | register other key =>
          by_cases huser : user = other
          · exact .inl ⟨key, huser ▸ rfl⟩
          · exact absurd ((Registry.connection?_register ..).trans (if_neg huser)) hchanged
      | unregister other id =>
          by_cases hboth : user = other ∧ (after moves).registry.IsConnection other id
          · obtain ⟨rfl, hid⟩ := hboth
            exact .inr ⟨id, hid, .inl rfl⟩
          · exact absurd ((Registry.connection?_unregister ..).trans (if_neg hboth)) hchanged
      | send other message =>
          refine absurd ?_ hchanged
          rw [Traffic.move, Command.begin, Call.step]
          cases (after moves).registry.connection? other with
          | none => rfl
          | some connection => rfl
      | broadcast message order => exact absurd rfl hchanged
  | resume index =>
      cases hcall : (after moves).calls[index]? with
      | none =>
          rw [Traffic.move, turn_of_none hcall] at hchanged
          exact absurd rfl hchanged
      | some call =>
          rw [Traffic.move, turn_call hcall] at hchanged
          cases horderly.calls index call hcall with
          | finished => exact absurd rfl hchanged
          | @push message copies _ =>
              cases copies with
              | nil => exact absurd rfl hchanged
              | cons copy copies => exact absurd rfl hchanged
          | @settle other connection taken message copies _ _ _ =>
              by_cases hall : taken = false ∧ user = other ∧
                  (after moves).registry.IsConnection other connection.id
              · obtain ⟨rfl, rfl, hid⟩ := hall
                exact .inr ⟨_, hid, .inr ⟨index, message, copies, rfl, hcall⟩⟩
              · exact absurd ((Registry.connection?_settle ..).trans (if_neg hall)) hchanged
  | exchange queues => exact absurd rfl hchanged

/-- The push that a settlement of a current connection follows was tried on that connection. -/
theorem Orderly.refused_of_settle (horderly : Orderly moves granted)
    (hconnection : (after moves).registry.connection? user = some connection)
    {message : Message} {copies : List (Identifier × Connection)}
    (hcall : (after moves).calls[index]? =
      some (.settle user connection.id false message copies)) :
    Refused moves index user connection := by
  have hcurrent := horderly.entries (Registry.mem_entries_of_connection? hconnection)
  generalize hid : connection.id = id at hcall
  cases horderly.calls index _ hcall with
  | @settle _ tried _ _ _ _ hgranted hrefused =>
      have hsame := List.inj_on_of_nodup_map horderly.ids hcurrent hgranted hid
      cases hsame
      exact hrefused rfl

theorem Orderly.ends (horderly : Orderly moves granted) {move : Move}
    (hconnection : (after moves).registry.connection? user = some connection)
    (hended : ((after moves).move move).registry.connection? user ≠ some connection) :
    Ends moves user connection move := by
  have hcurrent {id : ConnectionId} (hid : (after moves).registry.IsConnection user id) :
      connection.id = id := by
    rw [Registry.IsConnection, hconnection] at hid
    exact Option.some.inj hid
  rcases horderly.cases_of_changed (hconnection ▸ hended) with
    ⟨key, rfl⟩ | ⟨id, hid, rfl | ⟨index, message, copies, rfl, hcall⟩⟩
  · exact .register key
  · exact hcurrent hid ▸ .unregister
  · rw [← hcurrent hid] at hcall
    exact .settle hcall (horderly.refused_of_settle hconnection hcall)

/-- Neither removing an older connection nor a push that failed on it ends a newer one. -/
theorem Orderly.spared (horderly : Orderly moves granted) {older : ConnectionId} {move : Move}
    (hconnection : (after moves).registry.connection? user = some connection)
    (holder : older ≠ connection.id)
    (hstale : move = .begin (.unregister user older) ∨ ∃ index message copies,
      move = .resume index ∧
        (after moves).calls[index]? = some (.settle user older false message copies)) :
    ((after moves).move move).registry.connection? user = some connection := by
  by_contra hended
  have hends := horderly.ends hconnection hended
  rcases hstale with rfl | ⟨index, message, copies, rfl, hcall⟩
  · cases hends
    exact holder rfl
  · cases hends with
    | settle hown _ =>
        rw [hcall] at hown
        cases hown
        exact holder rfl

theorem Orderly.connection?_move_of_ne (horderly : Orderly moves granted) {move : Move}
    (huser : (after moves).userOf? move ≠ some user) :
    ((after moves).move move).registry.connection? user =
      (after moves).registry.connection? user := by
  by_contra hchanged
  rcases horderly.cases_of_changed hchanged with
    ⟨key, rfl⟩ | ⟨id, _, rfl | ⟨index, message, copies, rfl, hcall⟩⟩
  · exact huser rfl
  · exact huser rfl
  · refine huser ?_
    rw [userOf?, hcall]

/--
Whatever registrations, removals, sendings and broadcasts do between each other's steps: a user has
one entry at most, and a registration that succeeds puts its connection there. A connection ends only by its
own removal, by a refused push on its own queue, or by another registration of its user. So what
happens to an older connection leaves a newer one alone, as does all that is done for other users.
-/
theorem stale_failure_spares_entry (moves : List Move) :
    let traffic := after moves
    traffic.registry.users.Nodup ∧
      (∀ user key id, (traffic.registry.register user key).2 = .ok id →
        (traffic.move (.begin (.register user key))).registry.connection? user = some ⟨id, key⟩) ∧
      (∀ user connection move, traffic.registry.connection? user = some connection →
        (traffic.move move).registry.connection? user ≠ some connection →
          Ends moves user connection move) ∧
      (∀ user connection older, traffic.registry.connection? user = some connection →
        older ≠ connection.id →
          (traffic.move (.begin (.unregister user older))).registry.connection? user =
              some connection ∧
            ∀ index message copies,
              traffic.calls[index]? = some (.settle user older false message copies) →
                (traffic.move (.resume index)).registry.connection? user = some connection) ∧
      ∀ user move, traffic.userOf? move ≠ some user →
        (traffic.move move).registry.connection? user = traffic.registry.connection? user := by
  intro traffic
  obtain ⟨granted, horderly⟩ := exists_orderly moves
  refine ⟨horderly.users, fun _ _ _ => Registry.connection?_of_register,
    fun _ _ _ => horderly.ends, ?_, fun _ _ => horderly.connection?_move_of_ne⟩
  intro user connection older hconnection holder
  constructor
  · exact horderly.spared hconnection holder (.inl rfl)
  · intro index message copies hcall
    exact horderly.spared hconnection holder (.inr ⟨index, message, copies, rfl, hcall⟩)

/-- A push on a full queue fails, and its user registers again before the failure is settled. -/
theorem stale_failure_spares_entry_of_replaced :
    let user : Identifier := .ofNat 7
    let moves : List Move :=
      [.exchange [.ofCapacity 1, .ofCapacity 8], .begin (.register user 0),
        .begin (.send user .heartbeat), .begin (.register user 1)]
    (after moves).registry.connection? user = some ⟨⟨2⟩, 1⟩ ∧
      (after moves).calls[1]? = some (.settle user ⟨1⟩ false .heartbeat []) ∧
      ((after moves).move (.resume 1)).registry.connection? user = some ⟨⟨2⟩, 1⟩ := by
  intro user moves
  have hconnection : (after moves).registry.connection? user = some ⟨⟨2⟩, 1⟩ := by decide
  have hcall : (after moves).calls[1]? = some (.settle user ⟨1⟩ false .heartbeat []) := rfl
  obtain ⟨_, _, _, hspared, _⟩ := stale_failure_spares_entry moves
  exact ⟨hconnection, hcall, (hspared user _ ⟨1⟩ hconnection (by decide)).2 1 _ _ hcall⟩

end Herald.Live.Traffic
