import Herald.Proofs.Channel.Operations

/-!
Topics as rings. The subscriptions to a topic share its latest payloads and differ in the place that
they have reached. A subscription that has fallen behind the oldest payload is told how many it
missed, and goes on from there. Seen from outside, this is the same as if every subscription had the
payloads that wait for it to itself.
-/

namespace Herald.Channel

structure Ring where
  capacity : Nat
  /-- The payloads that are kept, oldest first. -/
  kept : List String
  sent : Nat
  length_kept_le : kept.length ≤ sent

namespace Ring

inductive Reading
  | payload (payload : String)
  | lagged (missed : Nat)
  | empty

def ofCapacity (capacity : Nat) : Ring := ⟨capacity, [], 0, Nat.le_refl 0⟩

def send (ring : Ring) (payload : String) : Ring where
  capacity := ring.capacity
  kept := latest ring.capacity (ring.kept ++ [payload])
  sent := ring.sent + 1
  length_kept_le := by
    have hkept := ring.length_kept_le
    rw [length_latest, List.length_append, List.length_singleton]
    omega

/-- The place of the oldest payload that is kept. -/
def oldest (ring : Ring) : Nat := ring.sent - ring.kept.length

/-- What is at a place, and the place to go on from. -/
def read (ring : Ring) (place : Nat) : Reading × Nat :=
  if place < ring.oldest then (.lagged (ring.oldest - place), ring.oldest)
  else
    match ring.kept[place - ring.oldest]? with
    | some payload => (.payload payload, place + 1)
    | none => (.empty, place)

/-- What waits for a reader at a place. -/
def waiting (ring : Ring) (place : Nat) : List String := ring.kept.drop (place - ring.oldest)

variable {ring : Ring} {place : Nat}

/-- A reader has fallen behind, or gets the first of what waits for it, or is at the end. -/
theorem read_cases (ring : Ring) (place : Nat) :
    (place < ring.oldest ∧ ring.read place = (.lagged (ring.oldest - place), ring.oldest)) ∨
      (place < ring.sent ∧ ∃ payload,
        ring.waiting place = payload :: ring.waiting (place + 1) ∧
          ring.read place = (.payload payload, place + 1)) ∨
      (ring.sent ≤ place ∧ ring.waiting place = [] ∧ ring.read place = (.empty, place)) := by
  have hlength := ring.length_kept_le
  by_cases hplace : place < ring.oldest
  · exact .inl ⟨hplace, if_pos hplace⟩
  · have hold : ring.oldest ≤ place := Nat.not_lt.mp hplace
    have hread : ring.read place = match ring.kept[place - ring.oldest]? with
      | some payload => (.payload payload, place + 1)
      | none => (.empty, place) := if_neg hplace
    cases hkept : ring.kept[place - ring.oldest]? with
    | none =>
        have hend := List.getElem?_eq_none_iff.mp hkept
        refine .inr (.inr ⟨?_, List.drop_eq_nil_iff.mpr hend, hread.trans (by rw [hkept])⟩)
        unfold oldest at hend hold
        omega
    | some payload =>
        obtain ⟨hlt, hpayload⟩ := List.getElem?_eq_some_iff.mp hkept
        refine .inr (.inl ⟨?_, payload, ?_, hread.trans (by rw [hkept])⟩)
        · unfold oldest at hlt hold
          omega
        · rw [waiting, waiting, List.drop_eq_getElem_cons hlt, hpayload, Nat.succ_sub hold]

/-- Whoever reads anything at all gets further on, but not past the end. -/
theorem read_advances (hread : (ring.read place).1 ≠ .empty) :
    place < (ring.read place).2 ∧ (ring.read place).2 ≤ ring.sent := by
  obtain ⟨hplace, hcase⟩ | ⟨hplace, payload, -, hcase⟩ | ⟨-, -, hcase⟩ := ring.read_cases place
  · rw [hcase]
    exact ⟨hplace, Nat.sub_le ..⟩
  · rw [hcase]
    exact ⟨Nat.lt_succ_self place, hplace⟩
  · rw [hcase] at hread
    exact absurd rfl hread

/-- Reads on until nothing is left. -/
def readAll (ring : Ring) (place : Nat) : List String × Nat :=
  match _hread : ring.read place with
  | (.payload payload, next) =>
    let (payloads, last) := ring.readAll next
    (payload :: payloads, last)
  | (.lagged _, next) => ring.readAll next
  | (.empty, next) => ([], next)
termination_by ring.sent - place
decreasing_by
  all_goals
    have hnext := @read_advances ring place (by rw [_hread]; exact nofun)
    rw [_hread] at hnext
    exact Nat.sub_lt_sub_left (Nat.lt_of_lt_of_le hnext.1 hnext.2) hnext.1

/-- A reader gets all that waits for it, and is then at the end. -/
theorem readAll_eq (hplace : place ≤ ring.sent) :
    ring.readAll place = (ring.waiting place, ring.sent) := by
  fun_induction readAll ring place with
  | case1 place payload next hread payloads last hrest ih =>
      obtain ⟨-, hcase⟩ | ⟨hlt, first, hwaiting, hcase⟩ | ⟨-, -, hcase⟩ := ring.read_cases place
      · nomatch hcase.symm.trans hread
      · cases hcase.symm.trans hread
        cases hrest.symm.trans (ih hlt)
        rw [hwaiting]
      · nomatch hcase.symm.trans hread
  | case2 place missed next hread ih =>
      obtain ⟨hlagged, hcase⟩ | ⟨-, first, -, hcase⟩ | ⟨-, -, hcase⟩ := ring.read_cases place
      · cases hcase.symm.trans hread
        have hkept : ring.waiting ring.oldest = ring.waiting place := by
          simp [waiting, Nat.sub_eq_zero_of_le (Nat.le_of_lt hlagged)]
        rw [ih (Nat.sub_le ..), hkept]
      · nomatch hcase.symm.trans hread
      · nomatch hcase.symm.trans hread
  | case3 place next hread =>
      obtain ⟨-, hcase⟩ | ⟨-, first, -, hcase⟩ | ⟨hend, hwaiting, hcase⟩ := ring.read_cases place
      · nomatch hcase.symm.trans hread
      · nomatch hcase.symm.trans hread
      · cases hcase.symm.trans hread
        rw [hwaiting, Nat.le_antisymm hplace hend]

theorem waiting_sent (ring : Ring) : ring.waiting ring.sent = [] := by
  have hlength := ring.length_kept_le
  apply List.drop_eq_nil_of_le
  unfold oldest
  omega

theorem kept_send (ring : Ring) (payload : String) :
    (ring.send payload).kept = latest ring.capacity (ring.kept ++ [payload]) := rfl

theorem sent_send (ring : Ring) (payload : String) : (ring.send payload).sent = ring.sent + 1 := rfl

/-- Sending offers the payload to every reader. -/
theorem waiting_send (hplace : place ≤ ring.sent) (payload : String) :
    (ring.send payload).waiting place =
      latest ring.capacity (ring.waiting place ++ [payload]) := by
  have hlength := ring.length_kept_le
  have hbehind : place - ring.oldest ≤ ring.kept.length := by
    unfold oldest
    omega
  have hkept : ring.waiting place ++ [payload] =
      (ring.kept ++ [payload]).drop (place - ring.oldest) :=
    (List.drop_append_of_le_length hbehind).symm
  have hcount : (ring.send payload).kept.length =
      min (ring.kept ++ [payload]).length ring.capacity := by
    rw [kept_send, length_latest]
  rw [hkept, waiting, oldest, hcount, kept_send, sent_send, latest, latest, List.drop_drop,
    List.drop_drop, List.length_drop]
  congr 1
  rw [List.length_append, List.length_singleton]
  unfold oldest
  omega

end Ring

/-! Topics over rings. -/

structure Reader where
  key : Nat
  topic : String
  place : Nat

structure Rings where
  ring : String → Ring
  readers : List Reader
  made : Nat

namespace Rings

def empty : Rings := ⟨fun _ => .ofCapacity Subscription.capacity, [], 0⟩

def send (rings : Rings) (topic payload : String) : Rings :=
  { rings with
    ring := fun other =>
      if other = topic then (rings.ring other).send payload else rings.ring other }

/-- What a reader gets when it reads until it is idle, and the place it has reached then. -/
def readAll (rings : Rings) (reader : Reader) : List String × Nat :=
  (rings.ring reader.topic).readAll reader.place

def step (rings : Rings) : Operation → Rings × Reply
  | .subscribe topic =>
    ({ rings with
        readers := rings.readers ++ [⟨rings.made, topic, (rings.ring topic).sent⟩]
        made := rings.made + 1 },
      .subscribed rings.made)
  | .abort key => ({ rings with readers := rings.readers.filter (·.key ≠ key) }, .aborted)
  | .publish topic event => (rings.send topic event.encode, .published (.ok ()))
  | .turn key =>
    ({ rings with
        readers := rings.readers.map fun reader =>
          if reader.key = key then { reader with place := (rings.readAll reader).2 } else reader },
      .received (match rings.readers.find? (·.key = key) with
        | some reader => Topics.received (rings.readAll reader).1
        | none => []))

def replies : Rings → List Operation → List Reply
  | _, [] => []
  | rings, operation :: rest =>
    (rings.step operation).2 :: (rings.step operation).1.replies rest

/-- What a reader is to the outside. -/
def shown (ring : String → Ring) (reader : Reader) : Subscription :=
  ⟨reader.key, reader.topic, (ring reader.topic).waiting reader.place⟩

/-- The rings show as the topics. -/
structure ShowAs (rings : Rings) (topics : Topics) : Prop where
  subscriptions : topics.subscriptions = rings.readers.map (shown rings.ring)
  made : topics.made = rings.made
  capacity : ∀ topic, (rings.ring topic).capacity = Subscription.capacity
  places : ∀ reader ∈ rings.readers, reader.place ≤ (rings.ring reader.topic).sent

variable {rings : Rings} {topics : Topics}

theorem showAs_empty (limit : Nat) : empty.ShowAs (.withHistoryLimit limit) :=
  ⟨rfl, rfl, fun _ => rfl, nofun⟩

/-- A publish is to a reader what it is to the subscription that the reader shows as. -/
theorem ShowAs.offer_shown (hshow : rings.ShowAs topics) {reader : Reader}
    (hreader : reader ∈ rings.readers) (topic : String) (event : Event) :
    (shown rings.ring reader).offer topic event.encode =
      shown (rings.send topic event.encode).ring reader := by
  by_cases htopic : reader.topic = topic
  · have hwaiting := Ring.waiting_send (hshow.places reader hreader) event.encode
    rw [hshow.capacity] at hwaiting
    subst htopic
    simp [shown, send, Subscription.offer, hwaiting]
  · simp [shown, send, Subscription.offer, htopic]

theorem ShowAs.emptied_shown (hshow : rings.ShowAs topics) {reader : Reader}
    (hreader : reader ∈ rings.readers) (key : Nat) :
    (if (shown rings.ring reader).key = key then { shown rings.ring reader with waiting := [] }
      else shown rings.ring reader) =
      shown rings.ring
        (if reader.key = key then { reader with place := (rings.readAll reader).2 } else reader) := by
  by_cases hkey : reader.key = key
  · rw [if_pos hkey, readAll, Ring.readAll_eq (hshow.places reader hreader)]
    simp [shown, hkey, Ring.waiting_sent]
  · rw [if_neg hkey]
    exact if_neg hkey

theorem ShowAs.step (hshow : rings.ShowAs topics) (operation : Operation) :
    (rings.step operation).1.ShowAs (topics.step operation).1 ∧
      (rings.step operation).2 = (topics.step operation).2 := by
  cases operation with
  | subscribe topic =>
      refine ⟨⟨?_, congrArg (· + 1) hshow.made, hshow.capacity, ?_⟩,
        congrArg Reply.subscribed hshow.made.symm⟩
      · simp [Topics.step, Topics.subscribe, Rings.step, hshow.subscriptions, hshow.made, shown,
          Ring.waiting_sent]
      · intro reader hreader
        rcases List.mem_append.mp hreader with hearlier | hnew
        · exact hshow.places reader hearlier
        · rw [List.mem_singleton.mp hnew]
          exact Nat.le_refl _
  | abort key =>
      refine ⟨⟨?_, hshow.made, hshow.capacity, ?_⟩, rfl⟩
      · change topics.subscriptions.filter _ = _
        rw [hshow.subscriptions, List.filter_map]
        rfl
      · exact fun reader hreader => hshow.places reader (List.mem_filter.mp hreader).1
  | publish topic event =>
      refine ⟨⟨?_, hshow.made, ?_, ?_⟩, rfl⟩
      · change topics.subscriptions.map _ = rings.readers.map _
        rw [hshow.subscriptions, List.map_map]
        exact List.map_congr_left fun reader hreader => hshow.offer_shown hreader topic event
      · intro other
        change (if other = topic then _ else _ : Ring).capacity = _
        split
        · exact hshow.capacity other
        · exact hshow.capacity other
      · intro reader hreader
        have hplace := hshow.places reader hreader
        change _ ≤ (if reader.topic = topic then _ else _ : Ring).sent
        split
        · exact Nat.le_succ_of_le hplace
        · exact hplace
  | turn key =>
      refine ⟨⟨?_, hshow.made, hshow.capacity, ?_⟩, ?_⟩
      · change topics.subscriptions.map _ = (rings.readers.map _).map _
        rw [hshow.subscriptions, List.map_map, List.map_map]
        exact List.map_congr_left fun reader hreader => hshow.emptied_shown hreader key
      · intro reader hreader
        obtain ⟨before, hbefore, rfl⟩ := List.mem_map.mp hreader
        have hplace := hshow.places before hbefore
        split
        · rw [readAll, Ring.readAll_eq hplace]
          exact Nat.le_refl _
        · exact hplace
      · rw [Topics.reply_turn, Topics.subscription?, hshow.subscriptions, List.find?_map]
        change Reply.received (match rings.readers.find? (·.key = key) with
          | some reader => Topics.received (rings.readAll reader).1
          | none => []) = .received (Topics.received (((
            (rings.readers.find? (·.key = key)).map (shown rings.ring)).map
              Subscription.waiting).getD []))
        cases hfound : rings.readers.find? (·.key = key) with
        | none => rfl
        | some reader =>
            have hplace := hshow.places reader (List.mem_of_find?_eq_some hfound)
            simp only [readAll, Ring.readAll_eq hplace]
            rfl

/-- Rings give the same replies as topics. -/
theorem ShowAs.replies (hshow : rings.ShowAs topics) (operations : List Operation) :
    rings.replies operations = topics.replies operations := by
  induction operations generalizing rings topics with
  | nil => rfl
  | cons operation rest ih =>
      obtain ⟨hstep, hreply⟩ := hshow.step operation
      rw [Rings.replies, Topics.replies, hreply, ih hstep]

end Rings

end Herald.Channel
