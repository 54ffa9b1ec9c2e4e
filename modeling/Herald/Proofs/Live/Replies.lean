import Herald.Proofs.Live.Acceptance

/-!
What the replies of a registry say. A send says whether the message was queued and whether the user still
has a connection; the count of a broadcast is that of the copies which were queued and that of the
entries which are left, in whatever order the broadcast visits them. Where no two entries share a queue,
the order makes no difference at all.
-/

namespace Herald.Live

namespace Registry

variable {registry before after : Registry} {message : Message}
  {accepted : List (QueueKey × Message)}

theorem entries_broadcastIn_perm (husers : registry.users.Nodup) (order : Order)
    (message : Message) :
    (registry.broadcastIn order message).1.entries.Perm
      (visited true (visits message (order.arrange registry.entries) registry)) := by
  have hentries : registry.entries.Perm (order.arrange registry.entries ++ []) := by
    simpa using (order.perm registry.entries).symm
  rw [broadcastIn]
  simpa using entries_broadcastTo_perm husers hentries message

/-! Sending. -/

/-- What a reply to a send says of the queues and of the user's entry. -/
structure SendReport (registry : Registry) (user : Identifier) (message : Message) : Prop where
  notConnected : (registry.send user message).2 = .notConnected ↔ registry.connection? user = none
  sent : (registry.send user message).2 = .sent ↔
    ∃ connection, registry.connection? user = some connection ∧
      (registry.send user message).1.waitingOn connection.queue =
        registry.waitingOn connection.queue ++ [message]
  unsent : (registry.send user message).2 ≠ .sent →
    ∀ key, (registry.send user message).1.waitingOn key = registry.waitingOn key
  evicted : (registry.send user message).2 = .evicted →
    (registry.send user message).1.connection? user = none

theorem sendReport (registry : Registry) (user : Identifier) (message : Message) :
    registry.SendReport user message := by
  cases hconnection : registry.connection? user with
  | none =>
      have hsend : registry.send user message = (registry, .notConnected) :=
        send_of_not_connected hconnection
      constructor <;> simp [hsend, hconnection]
  | some connection =>
      have hwaiting := waitingOn_send hconnection message
      cases hroom : registry.hasRoom connection.queue with
      | true =>
          have hreply : (registry.send user message).2 = .sent := by
            rw [send_of_connected hconnection, deliver_of_room hroom]
          constructor <;> simp [hreply, hconnection, hwaiting, hroom]
      | false =>
          have hsend : registry.send user message =
              ((registry.changeQueue connection.queue (·.push message)).remove user, .evicted) := by
            rw [send_of_connected hconnection, deliver_of_no_room hconnection hroom]
          have hsame : ∀ key, (registry.send user message).1.waitingOn key =
              registry.waitingOn key := by
            intro key
            rw [hwaiting, if_neg, List.append_nil]
            rintro ⟨rfl, hkey⟩
            simp [hroom] at hkey
          have hreply : (registry.send user message).2 = .evicted := congrArg Prod.snd hsend
          constructor
          case notConnected => simp [hreply, hconnection]
          case sent => simp [hreply, hconnection, hsame]
          case unsent => exact fun _ => hsame
          case evicted => simp [hsend, connection?_remove]

theorem flatMap_messagesFor_perm (keys : List QueueKey) (hkeys : keys.Nodup)
    (hcovered : ∀ posted ∈ accepted, posted.1 ∈ keys) :
    (keys.flatMap fun key => messagesFor key accepted).Perm (accepted.map (·.2)) := by
  induction accepted with
  | nil => simp
  | cons posted rest ih =>
      obtain ⟨key, message⟩ := posted
      have hone : (keys.flatMap fun other => if key = other then [message] else []) = [message] := by
        have hsublist := flatMap_singleton_sublist hkeys key (fun _ => true) message
        have hmem : message ∈ keys.flatMap fun other => if key = other then [message] else [] :=
          List.mem_flatMap.mpr ⟨key, hcovered _ List.mem_cons_self, by simp⟩
        simp only [and_true] at hsublist
        obtain hnil | hone := List.sublist_singleton.mp hsublist
        · simp [hnil] at hmem
        · exact hone
      have hsplit := List.flatMap_append_perm keys
        (fun other => if key = other then [message] else []) (fun other => messagesFor other rest)
      rw [hone] at hsplit
      simp only [messagesFor_cons]
      exact hsplit.symm.trans ((ih fun posted hposted => hcovered posted (by simp [hposted])).cons message)

/-- What is added to all queues is what they accepted. -/
theorem Accepts.gains_perm (haccepts : Accepts accepted before after) :
    (gains before after).Perm (accepted.map (·.2)) := by
  have hgained : ∀ key, gained key before after = messagesFor key accepted :=
    fun key => gained_of_append (haccepts.waitingOn key)
  simp only [gains, hgained]
  apply flatMap_messagesFor_perm _ List.nodup_range
  rintro ⟨key, message⟩ hposted
  rw [List.mem_range]
  by_contra hkey
  have hnone : before.queue? key = none := by
    have hafter : after.queue? key = none := List.getElem?_eq_none (Nat.le_of_not_lt hkey)
    simpa [haccepts.queue] using hafter
  have hmem : message ∈ messagesFor key accepted := by
    simp [messagesFor, hposted]
  simp [haccepts.missing key hnone] at hmem

/-- What a broadcast's count says of the queues and of the entries. -/
structure BroadcastReport (registry : Registry) (message : Message) (order : Order) : Prop where
  /-- As many copies were added to all queues, and nothing else. -/
  copies : gains registry (registry.broadcastIn order message).1 =
    List.replicate (registry.broadcastIn order message).2 message
  size : (registry.broadcastIn order message).1.size = (registry.broadcastIn order message).2
  entries : (registry.broadcastIn order message).1.entries.Sublist registry.entries
  /-- The entries that are gone are those whose queues refused, each in its turn. -/
  refused : ∀ entry ∈ registry.entries, entry ∉ (registry.broadcastIn order message).1.entries ↔
    (entry, false) ∈ visits message (order.arrange registry.entries) registry

theorem mem_visited_iff {taken : Bool} {visits : List ((Identifier × Connection) × Bool)}
    {entry : Identifier × Connection} :
    entry ∈ visited taken visits ↔ (entry, taken) ∈ visits := by
  simp [visited]

theorem broadcastReport (husers : registry.users.Nodup) (message : Message) (order : Order) :
    registry.BroadcastReport message order := by
  have haccepts := accepts_broadcastTo message (order.arrange registry.entries) registry
  have hcount := broadcastTo_snd message (order.arrange registry.entries) registry
  have hleft := registry.entries_broadcastIn_perm husers order message
  have hall := visited_perm message (order.arrange registry.entries) registry
  constructor
  case copies =>
    have hreplicate : (copies message
        (visits message (order.arrange registry.entries) registry)).map (·.2) =
        List.replicate (registry.broadcastIn order message).2 message := by
      rw [broadcastIn, hcount]
      simp [copies, Function.comp_def]
    apply List.perm_replicate.mp
    rw [← hreplicate]
    exact haccepts.gains_perm
  case size => exact hleft.length_eq.trans hcount.symm
  case entries => exact (shrinks_broadcastTo message _ registry).entries
  case refused =>
    intro entry hentry
    have hvisited := hall.trans (order.perm registry.entries)
    have hnodup := hvisited.nodup_iff.mpr (List.Nodup.of_map _ husers)
    have hmem := List.mem_append.mp (hvisited.mem_iff.mpr hentry)
    rw [hleft.mem_iff, ← mem_visited_iff]
    constructor
    · exact hmem.resolve_left
    · intro hrefused htaken
      exact (List.nodup_append.mp hnodup).2.2 entry htaken entry hrefused rfl

/-! The order of the visits. -/

/-- Entries that are left keep their order, so that lookups tell which they are. -/
theorem entries_eq_of_connection? {other : Registry} (husers : before.users.Nodup)
    (hafter : after.entries.Sublist before.entries)
    (hother : other.entries.Sublist before.entries)
    (hsame : ∀ user, after.connection? user = other.connection? user) :
    after.entries = other.entries := by
  have hnodup : before.entries.Nodup := List.Nodup.of_map _ husers
  apply (hnodup.perm_iff_eq_of_sublist hafter hother).mp
  apply (List.perm_ext_iff_of_nodup (hnodup.sublist hafter) (hnodup.sublist hother)).mpr
  intro entry
  rw [mem_entries_iff (husers.sublist (hafter.map _)), hsame]
  exact (mem_entries_iff (husers.sublist (hother.map _))).symm

/-- Where no two entries share a queue, it makes no difference in which order they are visited. -/
theorem broadcastIn_eq_broadcast (husers : registry.users.Nodup) (hseparate : registry.Separate)
    (order : Order) (message : Message) :
    registry.broadcastIn order message = registry.broadcast message := by
  have hpushed := broadcastIn_pushed husers hseparate order message
  have hmade := broadcast_pushed husers hseparate message
  have hreport := broadcastReport husers message order
  have hreportMade := broadcastReport husers message .inserted
  have hsame : (registry.broadcastIn order message).1 = (registry.broadcast message).1 := by
    rw [mk.injEq]
    refine ⟨?_, ?_, hpushed.issued.trans hmade.issued.symm⟩
    · apply List.ext_getElem?
      intro key
      exact (hpushed.queue key).trans (hmade.queue key).symm
    · apply entries_eq_of_connection? husers hreport.entries hreportMade.entries
      intro user
      exact (hpushed.connection user).trans (hmade.connection user).symm
  exact Prod.ext hsame ((hreport.size.symm.trans (congrArg size hsame)).trans hreportMade.size)

end Registry

end Herald.Live
