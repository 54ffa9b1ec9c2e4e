import Herald.Proofs.Live.SessionSteps
import Mathlib.Data.Finset.Card

/-!
One session for each user: what the registry of a manager holds after any run, and when the reader of
a subscription learns that it has ended.
-/

namespace Herald.Live.Ledger

variable {ledger : Ledger} {holding : Holding}

/-- The users whose latest subscription was neither dropped nor refused a push. -/
def liveUsers (ledger : Ledger) : Finset Identifier :=
  (ledger.holdings.map (·.subscription.user)).toFinset.filter fun user =>
    (ledger.live? user).isSome

theorem mem_liveUsers_iff (user : Identifier) :
    user ∈ ledger.liveUsers ↔ (ledger.live? user).isSome = true := by
  rw [liveUsers, Finset.mem_filter, List.mem_toFinset]
  refine ⟨And.right, fun hlive => ⟨?_, hlive⟩⟩
  obtain ⟨holding, hholding⟩ := Option.isSome_iff_exists.mp hlive
  obtain ⟨hmem, huser⟩ := latest?_eq_some (live?_eq_some hholding).1
  exact List.mem_map.mpr ⟨holding, hmem, huser⟩

theorem Inv.count_eq (hinv : ledger.Inv) : ledger.manager.count = ledger.liveUsers.card := by
  have husers : ledger.manager.registry.users.toFinset = ledger.liveUsers := by
    ext user
    rw [List.mem_toFinset, Registry.mem_users_iff hinv.users, hinv.live, Option.isSome_map,
      mem_liveUsers_iff]
  rw [← husers, List.toFinset_card_of_nodup hinv.users, Registry.users, List.length_map]
  rfl

theorem Inv.entries_drop_of_not_latest (hinv : ledger.Inv) (hholding : holding ∈ ledger.holdings)
    (hlatest : ledger.latest? holding.subscription.user ≠ some holding) :
    (ledger.manager.drop holding.subscription).registry.entries =
      ledger.manager.registry.entries := by
  have hid : ¬(ledger.manager.registry.changeQueue holding.subscription.queue
      Queue.dropReceiver).IsConnection holding.subscription.user holding.subscription.id :=
    fun hconnection => hlatest (hinv.latest?_of_connection hholding hconnection).1
  rw [Manager.drop, Registry.unregister_of_not_isConnection hid]
  rfl

theorem Inv.isEnded_iff (hinv : ledger.Inv) (hholding : holding ∈ ledger.holdings) :
    ledger.manager.registry.isEnded holding.subscription.queue = true ↔
      ¬ledger.manager.registry.IsConnection holding.subscription.user
        holding.subscription.id := by
  obtain ⟨queue, hqueue, hfits⟩ := hinv.queue holding hholding
  rw [Registry.isEnded_of_queue? hqueue hfits.isHeld]
  constructor
  · rintro hended hid
    obtain ⟨connection, hconnection, hid⟩ := Registry.isConnection_iff.mp hid
    obtain ⟨held, _, hlive, hheld, _, rfl⟩ := hinv.exists_holding hconnection
    obtain rfl := hinv.eq_of_id_eq hheld hholding hid
    rcases hended with hreceiver | hentries
    · rw [Holding.isLive, Bool.and_eq_true, Bool.not_eq_true'] at hlive
      rw [hfits.receiver, hlive.1] at hreceiver
      exact hreceiver rfl
    · exact hentries _ (Registry.mem_entries_of_connection? hconnection) rfl
  · intro hid
    refine .inr ?_
    rintro ⟨user, connection⟩ hentry hkey
    have hconnection := Registry.connection?_of_mem_entries hinv.users hentry
    obtain ⟨held, _, _, hheld, rfl, rfl⟩ := hinv.exists_holding hconnection
    obtain rfl := hinv.eq_of_queue_eq hheld hholding hkey
    exact hid (Registry.isConnection_iff.mpr ⟨_, hconnection, rfl⟩)

theorem Inv.receive_eq_ended_iff (hinv : ledger.Inv) (hholding : holding ∈ ledger.holdings)
    {queue : Queue}
    (hqueue : ledger.manager.registry.queue? holding.subscription.queue = some queue) :
    (ledger.manager.receive holding.subscription).2 = .ended ↔
      ¬ledger.manager.registry.IsConnection holding.subscription.user holding.subscription.id ∧
        queue.waiting = [] := by
  rw [← hinv.isEnded_iff hholding]
  cases hwaiting : queue.waiting with
  | nil =>
      rw [Manager.receive_of_nil hqueue hwaiting]
      cases ledger.manager.registry.isEnded holding.subscription.queue with
      | true => exact ⟨fun _ => ⟨rfl, rfl⟩, fun _ => rfl⟩
      | false => exact ⟨nofun, fun hboth => nomatch hboth.1⟩
  | cons message rest =>
      rw [Manager.receive_of_cons hqueue hwaiting]
      exact ⟨nofun, fun hboth => nomatch hboth.2⟩

/--
After any operations on a manager: each user has at most one entry, which is that of the user's
latest subscription, and has none exactly if that one was dropped or found full; dropping another
one leaves the entries as they are; the next handshake succeeds; and readers learn of the end of a
subscription once it is not the user's connection and all that was queued is read.
-/
theorem single_session (capacity : Nat) (operations : List Operation) :
    let ledger := (Ledger.start capacity).run operations
    let manager := ledger.manager
    (manager.registry.entries.map Prod.fst).Nodup ∧
      (∀ user, (manager.registry.connection? user).map Connection.id =
        (ledger.live? user).map (·.subscription.id)) ∧
      manager.count = ledger.liveUsers.card ∧
      (∀ holding ∈ ledger.holdings, ledger.latest? holding.subscription.user ≠ some holding →
        (manager.drop holding.subscription).registry.entries = manager.registry.entries) ∧
      (∀ user, ∃ subscription, (manager.subscribe user).2 = .ok subscription) ∧
      ∀ holding ∈ ledger.holdings, ∃ queue,
        manager.registry.queue? holding.subscription.queue = some queue ∧
        ((manager.receive holding.subscription).2 = .ended ↔
          ¬manager.registry.IsConnection holding.subscription.user holding.subscription.id ∧
            queue.waiting = []) ∧
        (manager.receiveAll holding.subscription).2 = (queue.waiting,
          decide ¬manager.registry.IsConnection holding.subscription.user
            holding.subscription.id) := by
  intro ledger manager
  have hinv : ledger.Inv := inv_run capacity operations
  refine ⟨hinv.users, ?_, hinv.count_eq, ?_, ?_, ?_⟩
  · intro user
    rw [hinv.live, Option.map_map]
    rfl
  · intro holding hholding
    exact hinv.entries_drop_of_not_latest hholding
  · intro user
    rw [Manager.subscribe_eq hinv.capacity hinv.covered]
    exact ⟨_, rfl⟩
  · intro holding hholding
    obtain ⟨queue, hqueue, _⟩ := hinv.queue holding hholding
    refine ⟨queue, hqueue, hinv.receive_eq_ended_iff hholding hqueue, ?_⟩
    rw [Manager.receiveAll_of_queue? hqueue]
    refine Prod.ext rfl ?_
    rw [Bool.eq_iff_iff, decide_eq_true_eq]
    exact hinv.isEnded_iff hholding

end Herald.Live.Ledger
