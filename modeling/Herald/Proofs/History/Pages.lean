import Herald.Proofs.History.Marking
import Herald.Proofs.Store.Chronology
import Herald.Proofs.Store.Confinement

/-!
Pages of a history. A page shows the rows from its number times its size on, and rows are asked for
only if there are any from there on. So the pages one after another make up the whole history.
-/

namespace Herald.Store.Attempt

variable {α : Type} {tables after : Tables}

theorem asked_query_bind {statement : Statement} {value : statement.Answer}
    (next : statement.Answer → Attempt α)
    (hanswer : tables.answer statement = (.ok value, after)) :
    (query statement >>= next).run.asked tables =
      (tables, statement) :: (next value).run.asked after := by
  change _ :: Plan.asked (ExceptT.bindCont next (match (tables.answer statement).1 with
    | .ok value => .ok value
    | .error fault => .error (.ofFault fault))) (tables.answer statement).2 = _
  rw [hanswer]
  rfl

end Herald.Store.Attempt

namespace Herald.History

open Store (Attempt Plan Statement Tables)
open Store.Tables (Precedes)

variable {tables : Tables} {user : Identifier} {rows : List Notification} {number size : Nat}

/-! Pages of rows in order. -/

/-- The page of rows by its number and size; its start has to be a number of 64 bits. -/
def pageOf (rows : List Notification) (number size : Nat) : Page where
  items :=
    if number * size < offsetLimit ∧ number * size < rows.length then
      (rows.drop (number * size)).take size
    else []
  page := number
  size := size
  total := rows.length

/-- Whether a page is that of these rows, by its number and the size asked for. -/
structure IsPage (rows : List Notification) (number size : Nat) (page : Page) : Prop where
  described : page.page = number ∧ page.size = size ∧ page.total = rows.length
  shown : number * size < 2 ^ 64 →
    page.items = (rows.take ((number + 1) * size)).drop (number * size)
  empty : rows.length ≤ number * size ∨ 2 ^ 64 - 1 < number * size → page.items = []

/-- What is asked for a page: how many rows there are, and those of the page if it has any. -/
structure IsAsking (user : Identifier) (number size total : Nat) (asked : List Statement) : Prop where
  beyond : total ≤ number * size ∨ 2 ^ 64 - 1 < number * size → asked = [.countRows user]
  within : number * size < total → number * size < 2 ^ 64 →
    asked = [.countRows user, .pageRows user (number * size) size] ∧
      (UInt64.ofNat number * UInt64.ofNat size).toNat = number * size

/-- A page that starts within 64 bits, or not at all, shows the rows from its start on. -/
theorem items_pageOf (hstart : number * size < rows.length → number * size < offsetLimit) :
    (pageOf rows number size).items = (rows.drop (number * size)).take size := by
  rw [pageOf]
  split
  case isTrue => rfl
  case isFalse hend =>
    have hpast : rows.length ≤ number * size := Nat.not_lt.mp fun hlt => hend ⟨hstart hlt, hlt⟩
    rw [List.drop_eq_nil_of_le hpast, List.take_nil]

theorem isPage_pageOf (rows : List Notification) (number size : Nat) :
    IsPage rows number size (pageOf rows number size) where
  described := ⟨rfl, rfl, rfl⟩
  shown := by
    intro hlimit
    rw [items_pageOf fun _ => hlimit, Nat.succ_mul, List.drop_take, Nat.add_sub_cancel_left]
  empty := by
    intro hbeyond
    apply if_neg
    rintro ⟨hlimit, hlt⟩
    rw [offsetLimit] at hlimit
    omega

theorem take_flatMap_pages (rows : List Notification) (size count : Nat) :
    ((List.range count).flatMap fun number => (rows.drop (number * size)).take size) =
      rows.take (count * size) := by
  induction count with
  | zero => rw [List.range_zero, List.flatMap_nil, Nat.zero_mul, List.take_zero]
  | succ count ih =>
      rw [List.range_succ, List.flatMap_append, ih, List.flatMap_singleton, Nat.succ_mul,
        List.take_add]

theorem flatMap_items_pageOf (hcount : rows.length < 2 ^ 64) {count : Nat}
    (hall : rows.length ≤ count * size) :
    ((List.range count).flatMap fun number => (pageOf rows number size).items) = rows := by
  have hitems (number : Nat) :
      (pageOf rows number size).items = (rows.drop (number * size)).take size :=
    items_pageOf fun hlt => hlt.trans hcount
  simp only [hitems]
  rw [take_flatMap_pages, List.take_of_length_le hall]

/-! Pages of a store. -/

section Open

variable (hopen : tables.isClosed = false)

include hopen

theorem answer_countRows (user : Identifier) :
    tables.answer (.countRows user) = (.ok (tables.history user).length, tables) := by
  rw [Tables.answer_of_open hopen, Tables.answerOpen, (tables.history_perm user).length_eq]

theorem perform_list (user : Identifier) (number size : Option Nat) :
    (Call.list user number size).perform tables =
      (.ok (pageOf (tables.history user) (number.getD 0) (clampedSize size)), tables) := by
  apply (Attempt.run_query_bind _ (answer_countRows hopen user)).trans
  rw [pageOf]
  split
  case isTrue =>
    exact Attempt.run_query_bind _ (Tables.answer_of_open hopen (.pageRows user _ _))
  case isFalse => rfl

/-- The rows are asked for after their count, and only if the page has any. -/
theorem asked_list (user : Identifier) (number size : Option Nat) :
    ((list user number size).run.asked tables).map Prod.snd =
      .countRows user ::
        if number.getD 0 * clampedSize size < offsetLimit ∧
            number.getD 0 * clampedSize size < (tables.history user).length then
          [.pageRows user (number.getD 0 * clampedSize size) (clampedSize size)]
        else [] := by
  rw [list, page, Attempt.asked_query_bind _ (answer_countRows hopen user), List.map_cons]
  congr 1
  split
  case isTrue =>
    rw [Attempt.asked_query_bind _ (Tables.answer_of_open hopen (.pageRows user _ _))]
    rfl
  case isFalse => rfl

theorem isAsking_list (user : Identifier) (number size : Option Nat) :
    IsAsking user (number.getD 0) (clampedSize size) (tables.history user).length
      (((list user number size).run.asked tables).map Prod.snd) where
  beyond := by
    intro hbeyond
    rw [asked_list hopen, if_neg]
    rintro ⟨hlimit, hlt⟩
    rw [offsetLimit] at hlimit
    omega
  within := by
    intro hlt hlimit
    rw [asked_list hopen, if_pos ⟨hlimit, hlt⟩]
    refine ⟨rfl, ?_⟩
    rw [UInt64.toNat_mul, UInt64.toNat_ofNat', UInt64.toNat_ofNat', ← Nat.mul_mod]
    exact Nat.mod_eq_of_lt hlimit

end Open

theorem clampedSize_pos (size : Option Nat) : 0 < clampedSize size := by
  rw [clampedSize, greatestPageSize]
  omega

/--
On an open store whose rows have distinct ids, a user's rows stand in one order, newer ones first and
of those with the same time the one with the greater id. Every page shows the rows between its bounds
in that order, and counts all of them. Rows are asked for only if the page has any, from a place that
is the product in 64 bits as well. So the pages of a size, from the first on, make up the whole
history as soon as they are enough.
-/
theorem pages_make_up_history (hopen : tables.isClosed = false) (hkeyed : tables.Keyed)
    (user : Identifier) (size : Option Nat) :
    let length := min (max (size.getD 20) 1) 100
    ∃ (ordered : List Notification) (pages : Nat → Page),
      ordered.Perm (tables.rowsOf user) ∧ ordered.Pairwise Precedes ∧
      (∀ number : Option Nat,
        (Call.list user number size).perform tables = (.ok (pages (number.getD 0)), tables) ∧
        IsPage ordered (number.getD 0) length (pages (number.getD 0)) ∧
        IsAsking user (number.getD 0) length ordered.length
          (((list user number size).run.asked tables).map Prod.snd)) ∧
      (ordered.length < 2 ^ 64 →
        (∃ count, ordered.length ≤ count * length) ∧
        ∀ count, ordered.length ≤ count * length →
          ((List.range count).flatMap fun number => (pages number).items) = ordered) := by
  intro length
  refine ⟨tables.history user, fun number => pageOf (tables.history user) number length,
    tables.history_perm user, hkeyed.pairwise_precedes user, fun number => ?_, fun hcount => ?_⟩
  · exact ⟨perform_list hopen user number size, isPage_pageOf _ _ _,
      isAsking_list hopen user number size⟩
  · refine ⟨⟨_, Nat.le_mul_of_pos_right _ (clampedSize_pos size)⟩, fun count hall => ?_⟩
    exact flatMap_items_pageOf hcount hall

/-! Three rows of one time, and one of another user between them. -/

def reviewOf (user id : Nat) : Notification :=
  NewNotification.recorded { user := .ofNat user, type := .reviewApproved } (.ofNat id) .epoch

def crowded : Tables :=
  ⟨[⟨.ofNat 1, "reader", .epoch, .epoch⟩, ⟨.ofNat 2, "author", .epoch, .epoch⟩],
    [reviewOf 1 7, reviewOf 1 9, reviewOf 2 10, reviewOf 1 8], 0, fun index => ⟨.ofNat index, .epoch⟩,
    false⟩

theorem pages_make_up_history_of_crowded :
    crowded.isClosed = false ∧ crowded.Keyed ∧
      ∃ first second : Page,
        (Call.list (.ofNat 1) none (some 2)).perform crowded = (.ok first, crowded) ∧
        (Call.list (.ofNat 1) (some 1) (some 2)).perform crowded = (.ok second, crowded) ∧
        first.items.length = 2 ∧ (first.items ++ second.items).Perm (crowded.rowsOf (.ofNat 1)) ∧
        (first.items ++ second.items).Pairwise Precedes := by
  have hkeyed : crowded.Keyed := by
    unfold Tables.Keyed
    decide
  obtain ⟨ordered, pages, hperm, hordered, hpages, hall⟩ :=
    @pages_make_up_history crowded rfl hkeyed (.ofNat 1) (some 2)
  have hlength : ordered.length = 3 := hperm.length_eq
  obtain ⟨-, hwhole⟩ := hall (by omega)
  have htwo : (pages 0).items ++ (pages 1).items = ordered := by
    have henough := hwhole 2 (by rw [hlength]; decide)
    simpa [List.range_succ] using henough
  refine ⟨rfl, hkeyed, pages 0, pages 1, (hpages none).1, (hpages (some 1)).1, ?_, ?_, ?_⟩
  · have hshown := (hpages none).2.1.shown (by decide)
    rw [Option.getD_none] at hshown
    simp [hshown, hlength]
  · rwa [htwo]
  · rwa [htwo]

end Herald.History
