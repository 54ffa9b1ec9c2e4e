import Herald.Proofs.Json.Reads

/-!
Readers that follow another reader. Wherever the other one gives a value, a follower gives what that
value means and leaves the same octets unread, or it fails if the value means nothing. Folds over lists
and records follow the reader of any value if each of their steps does.
-/

namespace Herald.Json

open Text (ascii)

variable {α β γ : Type}

/-- The outcome is what something means, or a fault if it means nothing. -/
def Outcome.Means (outcome : Outcome α) (meaning : Option α) (rest : List UInt8) : Prop :=
  match meaning with
  | some value => outcome = .done value rest
  | none => ∃ fault left, outcome = .fault fault left

def Follows (leader : Reader β) (reader : Reader α) (meaning : β → Option α) : Prop :=
  ∀ input value rest, leader input = .done value rest → (reader input).Means (meaning value) rest

/-! Readers that only ever fail. -/

namespace Reader

theorem bind_apply (reader : Reader α) (next : α → Reader β) (input : List UInt8) :
    (reader >>= next) input =
      match reader input with
      | .done value rest => next value rest
      | .fault problem rest => .fault problem rest := rfl

theorem bind_fault {reader : Reader α} {input left : List UInt8} {fault : Fault}
    (hfault : reader input = .fault fault left) (next : α → Reader β) :
    (reader >>= next) input = .fault fault left := by
  rw [bind_apply, hfault]

/-- What a sequence gives came through both of its parts. -/
theorem bind_eq_done {reader : Reader α} {next : α → Reader β} {input rest : List UInt8}
    {result : β} (hdone : (reader >>= next) input = .done result rest) :
    ∃ value between, reader input = .done value between ∧ next value between = .done result rest := by
  rw [bind_apply] at hdone
  cases hreader : reader input with
  | done value between =>
      rw [hreader] at hdone
      exact ⟨value, between, rfl, hdone⟩
  | fault problem left =>
      rw [hreader] at hdone
      cases hdone

theorem map_eq_done {reader : Reader α} {change : α → β} {input rest : List UInt8} {result : β}
    (hdone : (reader >>= fun value => pure (change value)) input = .done result rest) :
    ∃ value, reader input = .done value rest ∧ change value = result := by
  obtain ⟨value, between, hreader, hpure⟩ := bind_eq_done hdone
  cases hpure
  exact ⟨value, hreader, rfl⟩

theorem under_eq_done {reader : Reader α} {segment : Segment} {input rest : List UInt8} {result : α}
    (hdone : under segment reader input = .done result rest) : reader input = .done result rest := by
  rw [under] at hdone
  cases hreader : reader input with
  | done value left =>
      rw [hreader] at hdone
      exact hdone
  | fault problem left =>
      rw [hreader] at hdone
      cases hdone

def Fails (reader : Reader α) : Prop := ∀ input, ∃ fault left, reader input = .fault fault left

theorem Fails.failNext (cause : Cause) : Fails (Reader.failNext cause : Reader α) :=
  fun _ => ⟨_, _, rfl⟩

theorem Fails.refuse (mismatch : Mismatch) : Fails (Reader.refuse mismatch : Reader α) :=
  fun _ => ⟨_, _, rfl⟩

theorem Fails.bind {next : α → Reader β} (hnext : ∀ value, Fails (next value)) (reader : Reader α) :
    Fails (reader >>= next) := by
  intro input
  cases hreader : reader input with
  | done value rest =>
      rw [bind_done hreader]
      exact hnext value rest
  | fault problem left => exact ⟨problem, left, bind_fault hreader next⟩

theorem Fails.placed {reader : Reader α} (hfails : Fails reader) : Fails (Reader.placed reader) := by
  intro input
  obtain ⟨fault, left, hfault⟩ := hfails input
  rw [Reader.placed, hfault]
  exact ⟨_, _, rfl⟩

theorem Fails.unexpected (expected : String) : Fails (Shape.unexpected expected : Reader α) := by
  apply Fails.placed
  apply Fails.bind
  intro first
  cases first with
  | none => exact .failNext _
  | some octet =>
      have hword (letters : List Char) (found : Found) : Fails (do
          advance
          word letters
          (Reader.refuse (.wrongType found expected) : Reader α)) :=
        .bind (fun _ => .bind (fun _ => .refuse _) _) _
      change Fails (if octet = ascii 'n' then _ else _)
      split
      · exact hword _ _
      split
      · exact hword _ _
      split
      · exact hword _ _
      split
      · exact .bind (fun _ => .refuse _) _
      split
      · exact .bind (fun _ => .refuse _) _
      split
      · exact .refuse _
      split
      · exact .refuse _
      · exact .failNext _

end Reader

/-! Followers of parts. -/

namespace Outcome.Means

variable {outcome : Outcome α} {meaning : Option α} {rest : List UInt8}

theorem mapFault (hmeans : outcome.Means meaning rest) (change : Fault → Fault) :
    (outcome.mapFault change).Means meaning rest := by
  cases meaning with
  | some value =>
      have hdone : outcome = .done value rest := hmeans
      rw [hdone]
      rfl
  | none =>
      obtain ⟨fault, left, hfault⟩ := hmeans
      rw [hfault]
      exact ⟨_, _, rfl⟩

/-- What comes next starts from what was meant. -/
theorem bind {reader : Reader α} {input : List UInt8} (hmeans : (reader input).Means meaning rest)
    {next : α → Reader β} {after : α → Option β} {left : List UInt8}
    (hnext : ∀ value, meaning = some value → (next value rest).Means (after value) left) :
    ((reader >>= next) input).Means (meaning.bind after) left := by
  cases meaning with
  | some value =>
      rw [Reader.bind_done hmeans]
      exact hnext value rfl
  | none =>
      obtain ⟨fault, left, hfault⟩ := hmeans
      exact ⟨fault, left, Reader.bind_fault hfault next⟩

end Outcome.Means

namespace Follows

variable {leader : Reader β} {reader : Reader α} {meaning : β → Option α}

theorem bind_left {leader : γ → Reader β} {reader : γ → Reader α}
    (hfollows : ∀ value, Follows (leader value) (reader value) meaning) (front : Reader γ) :
    Follows (front >>= leader) (front >>= reader) meaning := by
  intro input value rest hdone
  obtain ⟨found, between, hfront, hleader⟩ := Reader.bind_eq_done hdone
  rw [Reader.bind_done hfront]
  exact hfollows found between value rest hleader

/-- A follower goes on with something that takes up nothing more. -/
theorem bind {next : α → Reader γ} {after : α → Option γ} (hfollows : Follows leader reader meaning)
    (hnext : ∀ value input, (next value input).Means (after value) input) :
    Follows leader (reader >>= next) fun value => (meaning value).bind after := by
  intro input value rest hdone
  exact (hfollows input value rest hdone).bind fun meant _ => hnext meant rest

theorem map (hfollows : Follows leader reader meaning) (change : α → γ) :
    Follows leader (reader >>= fun value => pure (change value))
      fun value => (meaning value).map change := by
  have hpure (meant : α) (input : List UInt8) :
      ((pure (change meant) : Reader γ) input).Means (some (change meant)) input := rfl
  have hmap := hfollows.bind hpure
  intro input value rest hdone
  change Outcome.Means _ (Option.map change (meaning value)) rest
  rw [Option.map_eq_bind]
  exact hmap input value rest hdone

theorem under (hfollows : Follows leader reader meaning) (segment : Segment) :
    Follows (Reader.under segment leader) (Reader.under segment reader) meaning := by
  intro input value rest hdone
  exact (hfollows input value rest (Reader.under_eq_done hdone)).mapFault _

theorem member (hfollows : Follows leader reader meaning) (name : String) :
    Follows (Reader.member name leader) (Reader.member name reader) meaning :=
  (bind_left (fun _ => hfollows) Reader.colon).under (.member name)

theorem enclosed (hfollows : Follows leader reader meaning) (close : Reader Unit) :
    Follows (Reader.enclosed leader close) (Reader.enclosed reader close) meaning := by
  intro input value rest hdone
  rw [Reader.enclosed] at hdone
  cases hleader : leader input with
  | fault problem left =>
      rw [hleader] at hdone
      cases hdone
  | done found between =>
      simp only [hleader] at hdone
      have hmeans := hfollows input found between hleader
      cases hclose : close between with
      | fault problem left =>
          rw [hclose] at hdone
          cases hdone
      | done closed left =>
          rw [hclose] at hdone
          cases hdone
          rw [Reader.enclosed]
          cases hmeaning : meaning value with
          | some meant =>
              rw [hmeaning] at hmeans
              have hreader : reader input = .done meant between := hmeans
              simp only [hreader, hclose]
              rfl
          | none =>
              rw [hmeaning] at hmeans
              obtain ⟨fault, stopped, hfault⟩ := hmeans
              simp only [hfault]
              exact ⟨_, _, rfl⟩

theorem inList (hfollows : Follows leader reader meaning) :
    Follows (Reader.inList leader) (Reader.inList reader) meaning :=
  bind_left (fun _ => hfollows.enclosed Reader.closeList) Reader.advance

theorem inRecord (hfollows : Follows leader reader meaning) :
    Follows (Reader.inRecord leader) (Reader.inRecord reader) meaning :=
  bind_left (fun _ => hfollows.enclosed Reader.closeRecord) Reader.advance

/-- After the whole of an input that the leader reads, the follower is at its end as well. -/
theorem whole (hfollows : Follows leader reader meaning) :
    Follows (Reader.whole leader) (Reader.whole reader) meaning := by
  intro input value rest hdone
  obtain ⟨found, between, hleader, hend⟩ := Reader.bind_eq_done hdone
  obtain ⟨_, left, hfinished, hpure⟩ := Reader.bind_eq_done hend
  cases hpure
  have hrest (meant : α) (_ : meaning value = some meant) :
      ((do Reader.finished; pure meant : Reader α) between).Means (some meant) rest := by
    rw [Reader.bind_done hfinished]
    rfl
  have hmeans := (hfollows input value between hleader).bind hrest
  rwa [Option.bind_fun_some] at hmeans

end Follows

/-! Folds. -/

variable {depth : Nat} {step : α → String → Reader α} {advance : α → String × Value → Option α}

def gatherMember (depth : Nat) (members : List (String × Value)) (name : String) :
    Reader (List (String × Value)) := do
  let value ← Reader.member name (Value.read depth)
  pure ((name, value) :: members)

def gatherItem (depth : Nat) (items : List Value) : Reader (List Value) := do
  let item ← Value.read depth
  pure (item :: items)

/-- Gathers the members of a record with what the reader makes of their values. -/
def gather (value : Reader γ) (members : List (String × γ)) (name : String) :
    Reader (List (String × γ)) := do
  let found ← Reader.member name value
  pure ((name, found) :: members)

/--
Each member that is gathered has been read from some place. Turn by turn, a fold follows the one
that gathers the members, if it does so at each of them.
-/
theorem means_loop_gather (step : α → String → Reader α) (advance : α → String × γ → Option α)
    {value : Reader γ} {fuel input rest : List UInt8} {first : Bool}
    {gathered members : List (String × γ)}
    (hdone : Reader.foldMembers.loop Quotation.quoted (gather value) fuel first gathered input =
      .done members rest) :
    ∃ found : List (String × γ), members = found.reverse ++ gathered ∧
      (∀ member ∈ found, ∃ input rest, Reader.member member.1 value input = .done member.2 rest) ∧
      ((∀ member ∈ found, ∀ state input rest,
        Reader.member member.1 value input = .done member.2 rest →
          (step state member.1 input).Means (advance state member) rest) →
      ∀ state, (Reader.foldMembers.loop Quotation.quoted step fuel first state input).Means
        (found.foldlM advance state) rest) := by
  induction fuel generalizing first gathered input with
  | nil => cases hdone
  | cons unit fuel ih =>
      rw [Reader.foldMembers.loop] at hdone
      obtain ⟨more, behindSeparator, hmore, hdone⟩ := Reader.bind_eq_done hdone
      cases more with
      | false =>
          cases hdone
          refine ⟨[], rfl, List.forall_mem_nil _, fun _ state => ?_⟩
          rw [Reader.foldMembers.loop, Reader.bind_done hmore]
          rfl
      | true =>
          obtain ⟨name, behindName, hname, hdone⟩ := Reader.bind_eq_done hdone
          obtain ⟨later, behindValue, hlater, hdone⟩ := Reader.bind_eq_done hdone
          obtain ⟨found, hfound, rfl⟩ := Reader.map_eq_done hlater
          obtain ⟨others, hothers, hread, hmeans⟩ := ih hdone
          refine ⟨(name, found) :: others, ?_, ?_, fun hstep state => ?_⟩
          · rw [hothers, List.reverse_cons, List.append_assoc, List.singleton_append]
          · exact List.forall_mem_cons.mpr ⟨⟨behindName, behindValue, hfound⟩, hread⟩
          · rw [List.forall_mem_cons] at hstep
            rw [Reader.foldMembers.loop, Reader.bind_done hmore, if_pos rfl, Reader.bind_done hname]
            exact (hstep.1 state behindName behindValue hfound).bind fun next _ =>
              hmeans hstep.2 next

/-- Turn by turn, a fold follows the one that gathers the members. -/
theorem means_loop_members
    (hstep : ∀ state name, Follows (Reader.member name (Value.read depth)) (step state name)
      fun value => advance state (name, value))
    {fuel input rest : List UInt8} {first : Bool} {gathered members : List (String × Value)}
    (hdone : Reader.foldMembers.loop Quotation.quoted (gatherMember depth) fuel first gathered input =
      .done members rest) :
    ∃ found : List (String × Value), members = found.reverse ++ gathered ∧ ∀ state,
      (Reader.foldMembers.loop Quotation.quoted step fuel first state input).Means
        (found.foldlM advance state) rest := by
  obtain ⟨found, hfound, -, hmeans⟩ := means_loop_gather step advance hdone
  refine ⟨found, hfound, hmeans fun member _ state input rest hmember => ?_⟩
  exact hstep state member.1 input member.2 rest hmember

theorem Follows.foldMembers
    (hstep : ∀ state name, Follows (Reader.member name (Value.read depth)) (step state name)
      fun value => advance state (name, value)) (state : α) :
    Follows (Reader.foldMembers Quotation.quoted (gatherMember depth) [])
      (Reader.foldMembers Quotation.quoted step state)
      fun members => members.reverse.foldlM advance state := by
  intro input members rest hdone
  obtain ⟨found, rfl, hmeans⟩ := means_loop_members hstep hdone
  change Outcome.Means _ ((found.reverse ++ []).reverse.foldlM advance state) rest
  rw [List.append_nil, List.reverse_reverse]
  exact hmeans state

theorem means_loop_items {step : α → Reader α} {advance : α → Value → Option α}
    (hstep : ∀ state, Follows (Value.read depth) (step state) (advance state))
    {fuel input rest : List UInt8} {index : Nat} {gathered items : List Value}
    (hdone : Reader.foldItems.loop (gatherItem depth) fuel index gathered input =
      .done items rest) :
    ∃ found : List Value, items = found.reverse ++ gathered ∧ ∀ state,
      (Reader.foldItems.loop step fuel index state input).Means (found.foldlM advance state) rest := by
  induction fuel generalizing index gathered input with
  | nil => cases hdone
  | cons unit fuel ih =>
      rw [Reader.foldItems.loop] at hdone
      obtain ⟨more, behindSeparator, hmore, hdone⟩ := Reader.bind_eq_done hdone
      cases more with
      | false =>
          cases hdone
          refine ⟨[], rfl, fun state => ?_⟩
          rw [Reader.foldItems.loop, Reader.bind_done hmore]
          rfl
      | true =>
          obtain ⟨later, behindItem, hlater, hdone⟩ := Reader.bind_eq_done hdone
          obtain ⟨item, hitem, rfl⟩ := Reader.map_eq_done (Reader.under_eq_done hlater)
          obtain ⟨found, hfound, hmeans⟩ := ih hdone
          refine ⟨item :: found, ?_, fun state => ?_⟩
          · rw [hfound, List.reverse_cons, List.append_assoc, List.singleton_append]
          · rw [Reader.foldItems.loop, Reader.bind_done hmore, if_pos rfl]
            have hmeant := (hstep state behindSeparator item behindItem hitem).mapFault
              (·.under (.position index))
            exact Outcome.Means.bind hmeant fun next _ => hmeans next

theorem Follows.foldItems {step : α → Reader α} {advance : α → Value → Option α}
    (hstep : ∀ state, Follows (Value.read depth) (step state) (advance state)) (state : α) :
    Follows (Reader.foldItems (gatherItem depth) []) (Reader.foldItems step state)
      fun items => items.reverse.foldlM advance state := by
  intro input items rest hdone
  obtain ⟨found, rfl, hmeans⟩ := means_loop_items hstep hdone
  change Outcome.Means _ ((found.reverse ++ []).reverse.foldlM advance state) rest
  rw [List.append_nil, List.reverse_reverse]
  exact hmeans state

/-! The reader of any value. -/

def Value.IsScalar : Value → Prop
  | .null | .boolean _ | .number _ => True
  | .text _ | .list _ | .record _ => False

/-- How a value begins after the blanks, and how its inside is read. -/
inductive Value.Begins (depth : Nat) (rest : List UInt8) : List UInt8 → Value → Prop
  | scalar {octet : UInt8} {inside : List UInt8} {value : Value} (hscalar : value.IsScalar)
      (hquote : octet ≠ ascii '"') (hlist : octet ≠ ascii '[') (hrecord : octet ≠ ascii '\x7b') :
      Begins depth rest (octet :: inside) value
  | text {inside : List UInt8} {text : String}
      (hquoted : Quotation.quoted (ascii '"' :: inside) = .done text rest) :
      Begins depth rest (ascii '"' :: inside) (.text text)
  | list {inside : List UInt8} {below : Nat} {items : List Value} (hdepth : depth = below + 1)
      (hitems : Reader.inList (Reader.foldItems (gatherItem below) []) (ascii '[' :: inside) =
        .done items.reverse rest) :
      Begins depth rest (ascii '[' :: inside) (.list items)
  | record {inside : List UInt8} {below : Nat} {members : List (String × Value)}
      (hdepth : depth = below + 1)
      (hmembers : Reader.inRecord (Reader.foldMembers Quotation.quoted (gatherMember below) [])
        (ascii '\x7b' :: inside) = .done members.reverse rest) :
      Begins depth rest (ascii '\x7b' :: inside) (.record members)

theorem Value.eq_of_word {letters : List Char} {constant value : Value} {input rest : List UInt8}
    (hdone : (do
      Reader.advance
      Reader.word letters
      pure constant : Reader Value) input = .done value rest) : constant = value := by
  obtain ⟨_, _, _, hdone⟩ := Reader.bind_eq_done hdone
  obtain ⟨_, _, hsame⟩ := Reader.map_eq_done hdone
  exact hsame

theorem Value.begins_of_read {input rest : List UInt8} {value : Value}
    (hdone : Value.read depth input = .done value rest) :
    Value.Begins depth rest (input.dropWhile Reader.isBlank) value := by
  rw [Value.read.eq_def] at hdone
  obtain ⟨first, unread, hpeek, hdone⟩ := Reader.bind_eq_done hdone
  cases hpeek
  cases hinput : input.dropWhile Reader.isBlank with
  | nil =>
      rw [hinput] at hdone
      cases hdone
  | cons octet inside =>
      rw [hinput] at hdone
      simp only [List.head?_cons] at hdone
      split at hdone
      case isTrue hoctet =>
        obtain rfl := Value.eq_of_word hdone
        subst hoctet
        exact .scalar trivial (by decide) (by decide) (by decide)
      split at hdone
      case isTrue hoctet =>
        obtain rfl := Value.eq_of_word hdone
        subst hoctet
        exact .scalar trivial (by decide) (by decide) (by decide)
      split at hdone
      case isTrue hoctet =>
        obtain rfl := Value.eq_of_word hdone
        subst hoctet
        exact .scalar trivial (by decide) (by decide) (by decide)
      split at hdone
      case isTrue hoctet =>
        obtain ⟨number, _, rfl⟩ := Reader.map_eq_done hdone
        refine .scalar trivial ?_ ?_ ?_
        all_goals
          rintro rfl
          revert hoctet
          decide
      split at hdone
      case isTrue hoctet =>
        subst hoctet
        obtain ⟨text, hquoted, rfl⟩ := Reader.map_eq_done hdone
        exact .text hquoted
      split at hdone
      case isTrue hoctet =>
        subst hoctet
        cases depth with
        | zero => cases hdone
        | succ below =>
            obtain ⟨items, hitems, rfl⟩ := Reader.map_eq_done hdone
            exact .list rfl (items.reverse_reverse.symm ▸ hitems)
      split at hdone
      case isTrue hoctet =>
        subst hoctet
        cases depth with
        | zero => cases hdone
        | succ below =>
            obtain ⟨members, hmembers, rfl⟩ := Reader.map_eq_done hdone
            exact .record rfl (members.reverse_reverse.symm ▸ hmembers)
      cases hdone

/-! Readers that look at the first octet. -/

theorem Reader.peekToken_of_cons {input inside : List UInt8} {octet : UInt8}
    (hinput : input.dropWhile Reader.isBlank = octet :: inside) :
    Reader.peekToken input = .done (some octet) (octet :: inside) := by
  change Outcome.done (input.dropWhile Reader.isBlank).head? _ = _
  rw [hinput]
  rfl

theorem Reader.peekToken_of_nil {input : List UInt8} (hinput : input.dropWhile Reader.isBlank = []) :
    Reader.peekToken input = .done none [] := by
  change Outcome.done (input.dropWhile Reader.isBlank).head? _ = _
  rw [hinput]
  rfl

theorem Shape.byFirst_of_cons {read : UInt8 → Reader α} {input inside : List UInt8} {octet : UInt8}
    (hinput : input.dropWhile Reader.isBlank = octet :: inside) :
    Shape.byFirst read input = read octet (octet :: inside) := by
  rw [Shape.byFirst, Reader.bind_done (Reader.peekToken_of_cons hinput)]

theorem Shape.exists_of_byFirst {read : UInt8 → Reader α} {input rest : List UInt8} {result : α}
    (hdone : Shape.byFirst read input = .done result rest) :
    ∃ octet inside, input.dropWhile Reader.isBlank = octet :: inside ∧
      read octet (octet :: inside) = .done result rest := by
  cases hinput : input.dropWhile Reader.isBlank with
  | nil =>
      rw [Shape.byFirst, Reader.bind_done (Reader.peekToken_of_nil hinput)] at hdone
      cases hdone
  | cons octet inside =>
      rw [Shape.byFirst_of_cons hinput] at hdone
      exact ⟨octet, inside, rfl, hdone⟩

/-- What a reader of texts makes of any value. -/
def Value.checked? (check : String → Except Mismatch α) : Value → Option α
  | .text content => (check content).toOption
  | _ => none

theorem Follows.textWith (depth : Nat) (expected : String) (check : String → Except Mismatch α) :
    Follows (Value.read depth) (Shape.textWith expected check) (Value.checked? check) := by
  intro input value rest hdone
  have hbegins := Value.begins_of_read hdone
  generalize hinput : input.dropWhile Reader.isBlank = unread at hbegins
  have hother {octet : UInt8} {inside : List UInt8} (hunread : unread = octet :: inside)
      (hoctet : octet ≠ ascii '"') : (Shape.textWith expected check input).Means none rest := by
    rw [Shape.textWith, Shape.byFirst_of_cons (hinput.trans hunread), if_neg hoctet]
    exact Reader.Fails.unexpected expected _
  cases hbegins with
  | @scalar octet inside value hscalar hquote =>
      cases value with
      | null | boolean | number => exact hother rfl hquote
      | text | list | record => exact hscalar.elim
  | @text inside text hquoted =>
      rw [Shape.textWith, Shape.byFirst_of_cons hinput, if_pos rfl, Reader.placed,
        Reader.bind_done hquoted]
      cases hcheck : check text with
      | ok meant =>
          rw [Value.checked?, hcheck]
          rfl
      | error mismatch =>
          rw [Value.checked?, hcheck]
          exact ⟨_, _, rfl⟩
  | list => exact hother rfl (by decide)
  | record => exact hother rfl (by decide)

end Herald.Json
