import Herald.Proofs.Live.Gains

/-!
Queues whose connection has left the registry. A queue that has no entry gets none again, since every
registration makes a queue of its own.
-/

namespace Herald.Live.Registry

variable {registry : Registry} {user : Identifier} {key : QueueKey}

/-- Whether no two entries share a queue, and all have queues of the registry. -/
structure Distinct (registry : Registry) : Prop where
  keys : registry.allKeys.Nodup
  covered : ∀ key ∈ registry.allKeys, key < registry.queues.length

/-- Whether a queue of the registry has no entry. -/
structure Retired (registry : Registry) (key : QueueKey) : Prop where
  known : key < registry.queues.length
  not_mem : key ∉ registry.allKeys

theorem mem_allKeys_of_mem_keyOf (hkey : key ∈ registry.keyOf user) : key ∈ registry.allKeys := by
  rw [keyOf, Option.mem_toList, Option.map_eq_some_iff] at hkey
  obtain ⟨connection, hconnection, rfl⟩ := hkey
  exact List.mem_map.mpr ⟨_, mem_entries_of_connection? hconnection, rfl⟩

/-! Steps that add no entry. -/

/-- Entries may be gone, and the queues are the same ones. -/
structure Shrinks (before after : Registry) : Prop where
  entries : after.entries.Sublist before.entries
  length : after.queues.length = before.queues.length

theorem Shrinks.refl (registry : Registry) : Shrinks registry registry := ⟨List.Sublist.refl _, rfl⟩

theorem shrinks_changeQueue (registry : Registry) (key : QueueKey) (change : Queue → Queue) :
    Shrinks registry (registry.changeQueue key change) :=
  ⟨List.Sublist.refl _, length_queues_changeQueue ..⟩

theorem shrinks_unregister (registry : Registry) (user : Identifier) (id : ConnectionId) :
    Shrinks registry (registry.unregister user id).1 := by
  refine ⟨?_, congrArg List.length (queues_unregister ..)⟩
  by_cases hid : registry.IsConnection user id
  · rw [unregister_of_isConnection hid]
    exact List.filter_sublist
  · rw [unregister_of_not_isConnection hid]

theorem shrinks_settle (registry : Registry) (user : Identifier) (id : ConnectionId)
    (taken : Bool) : Shrinks registry (registry.settle user id taken).1 := by
  rw [settle]
  cases taken with
  | true => exact Shrinks.refl registry
  | false => exact shrinks_unregister registry user id

theorem shrinks_take (registry : Registry) (key : QueueKey) :
    Shrinks registry (registry.take key).1 := by
  rw [take]
  cases registry.queue? key with
  | none => exact Shrinks.refl registry
  | some queue => exact shrinks_changeQueue ..

theorem Shrinks.allKeys {after : Registry} (hshrinks : Shrinks registry after) :
    after.allKeys.Sublist registry.allKeys :=
  hshrinks.entries.map _

theorem Shrinks.distinct {after : Registry} (hshrinks : Shrinks registry after)
    (hdistinct : registry.Distinct) : after.Distinct where
  keys := hdistinct.keys.sublist hshrinks.allKeys
  covered key hkey := hshrinks.length ▸ hdistinct.covered key (hshrinks.allKeys.subset hkey)

theorem Shrinks.retired {after : Registry} (hshrinks : Shrinks registry after)
    (hretired : registry.Retired key) : after.Retired key where
  known := hshrinks.length ▸ hretired.known
  not_mem hkey := hretired.not_mem (hshrinks.allKeys.subset hkey)

/-! Registering. -/

theorem entries_expire (registry : Registry) (user : Identifier) :
    (registry.expire user).entries = registry.entries := by
  rw [expire]
  cases registry.connection? user with
  | none => rfl
  | some connection => rfl

theorem entries_register (registry : Registry) (user : Identifier) (key : QueueKey) :
    (registry.register user key).1.entries = registry.entries.filter (·.1 ≠ user) ++
      if (registry.expire user).hasRoom key = true then
        [(user, ⟨⟨registry.issued + 1⟩, key⟩)]
      else [] := by
  rw [register, offer, ← entries_expire registry user]
  cases (registry.expire user).hasRoom key with
  | true => rfl
  | false => exact (List.append_nil _).symm

theorem mem_allKeys_register {other : QueueKey}
    (hkey : other ∈ (registry.register user key).1.allKeys) :
    other = key ∨ ∃ entry ∈ registry.entries, entry.1 ≠ user ∧ entry.2.queue = other := by
  rw [allKeys, entries_register, List.map_append, List.mem_append] at hkey
  rcases hkey with hearlier | hnew
  · obtain ⟨entry, hentry, rfl⟩ := List.mem_map.mp hearlier
    obtain ⟨hmem, hne⟩ := List.mem_filter.mp hentry
    exact .inr ⟨entry, hmem, of_decide_eq_true hne, rfl⟩
  · split at hnew
    · exact .inl (List.mem_singleton.mp hnew)
    · exact absurd hnew List.not_mem_nil

/-- Registers a new queue. -/
def enroll (registry : Registry) (user : Identifier) (capacity : Nat) : Registry :=
  ((registry.openQueue capacity).1.register user registry.queues.length).1

theorem length_queues_enroll (registry : Registry) (user : Identifier) (capacity : Nat) :
    (registry.enroll user capacity).queues.length = registry.queues.length + 1 := by
  rw [enroll, queues_register, length_queues_changeQueue, length_queues_expire]
  exact List.length_append

theorem mem_allKeys_enroll {capacity : Nat}
    (hkey : key ∈ (registry.enroll user capacity).allKeys) :
    key = registry.queues.length ∨
      ∃ entry ∈ registry.entries, entry.1 ≠ user ∧ entry.2.queue = key := by
  rw [enroll] at hkey
  have hregister := mem_allKeys_register hkey
  exact hregister

theorem Distinct.enroll (hdistinct : registry.Distinct) (user : Identifier) (capacity : Nat) :
    (registry.enroll user capacity).Distinct where
  keys := by
    rw [allKeys, Registry.enroll, entries_register, List.map_append, List.nodup_append]
    refine ⟨hdistinct.keys.sublist (List.filter_sublist.map _), ?_, ?_⟩
    · split
      · exact List.nodup_singleton _
      · exact List.nodup_nil
    · rintro key hearlier other hnew rfl
      have hlt := hdistinct.covered key ((List.filter_sublist.map _).subset hearlier)
      split at hnew
      · exact Nat.ne_of_lt hlt (List.mem_singleton.mp hnew)
      · exact absurd hnew List.not_mem_nil
  covered := by
    intro key hkey
    rw [length_queues_enroll]
    rcases mem_allKeys_enroll hkey with rfl | ⟨entry, hentry, _, rfl⟩
    · exact Nat.lt_succ_self _
    · exact Nat.lt_succ_of_lt (hdistinct.covered _ (List.mem_map_of_mem hentry))

theorem Retired.enroll (hretired : registry.Retired key) (user : Identifier) (capacity : Nat) :
    (registry.enroll user capacity).Retired key where
  known := by
    rw [length_queues_enroll]
    exact Nat.lt_succ_of_lt hretired.known
  not_mem := by
    intro hkey
    rcases mem_allKeys_enroll hkey with rfl | ⟨entry, hentry, _, rfl⟩
    · exact Nat.lt_irrefl _ hretired.known
    · exact hretired.not_mem (List.mem_map_of_mem hentry)

/-- The queue that a registration replaces has no entry afterwards. -/
theorem Distinct.retired_enroll (hdistinct : registry.Distinct) (hkey : key ∈ registry.keyOf user)
    (capacity : Nat) : (registry.enroll user capacity).Retired key where
  known := by
    rw [length_queues_enroll]
    exact Nat.lt_succ_of_lt (hdistinct.covered key (mem_allKeys_of_mem_keyOf hkey))
  not_mem := by
    intro hafter
    have hlt := hdistinct.covered key (mem_allKeys_of_mem_keyOf hkey)
    rw [keyOf, Option.mem_toList, Option.map_eq_some_iff] at hkey
    obtain ⟨connection, hconnection, rfl⟩ := hkey
    rcases mem_allKeys_enroll hafter with hlength | ⟨entry, hentry, huser, hqueue⟩
    · exact Nat.ne_of_lt hlt hlength
    · have hsame := List.inj_on_of_nodup_map hdistinct.keys hentry
        (mem_entries_of_connection? hconnection) hqueue
      exact huser (congrArg Prod.fst hsame)

/-! What a registration queues on a queue that it does not make. -/

theorem queue?_enroll (hkey : key < registry.queues.length) (user : Identifier) (capacity : Nat) :
    (registry.enroll user capacity).queue? key =
      if key ∈ registry.keyOf user then (registry.queue? key).map (·.push .sessionExpired)
      else registry.queue? key := by
  rw [enroll, queue?_register, queue?_changeQueue, if_neg (Nat.ne_of_gt hkey), queue?_expire,
    keyOf_openQueue, queue?_openQueue_of_lt capacity hkey]

theorem gained_enroll (hkey : key < registry.queues.length) (user : Identifier) (capacity : Nat) :
    gained key registry (registry.enroll user capacity) =
      if key ∈ registry.keyOf user ∧ registry.hasRoom key = true then [.sessionExpired] else [] := by
  apply gained_of_append
  have hroom : (registry.openQueue capacity).1.hasRoom key = registry.hasRoom key :=
    hasRoom_congr (queue?_openQueue_of_lt capacity hkey)
  rw [enroll, waitingOn_register, if_neg (fun hboth => Nat.ne_of_gt hkey hboth.1), List.append_nil,
    waitingOn_expire, waitingOn_openQueue, keyOf_openQueue, hroom]

end Herald.Live.Registry
