import LogSequencing.Proofs.Storage.Lawful
import Mathlib.Logic.Function.Basic

/-!
# Rows in memory and rows in a file

A caller cannot tell whether its rows are kept in memory or in a database, which may be closed and
opened again between its requests. A database answers each request as its rows would
(`Database.ask_eq_rows`), and both answer as the values put under the keys demand
(`Rows.Holds.ask`): a scan finds the first rows, in the order of the keys, of all those whose keys
begin as asked. So both give the same answers, and never another (`stores_interchangeable`).

What is assumed of a database file is that the rows are there when it is opened again. The table may
then be missing, as long as there are no rows in it.
-/

set_option autoImplicit false
set_option relaxedAutoImplicit false

namespace LogSequencing

/-! ### Requests -/

/-- What can be asked of a store. -/
inductive StoreRequest where
  | get (key : Octets)
  | put (key value : Octets)
  | scan (start : Octets) (limit? : Option Nat)
  | batch (rows : List Row)
deriving DecidableEq, Repr

inductive StoreAnswer where
  | value (value? : Option Octets)
  | rows (rows : List Row)
  | done
deriving DecidableEq, Repr

inductive StoreEvent where
  | request (request : StoreRequest)
  | reopen
deriving DecidableEq, Repr

/-- What came of a request. -/
abbrev StoreOutcome := Except StorageError StoreAnswer

def StoreRequest.ask {β : Type} [Backend β] (store : β) : StoreRequest → StoreOutcome × β
  | get key =>
    let (result, store) := Backend.get store key
    (result.map .value, store)
  | put key value =>
    let (result, store) := Backend.put store key value
    (result.map fun _ ↦ .done, store)
  | scan start limit? =>
    let (result, store) := Backend.scan store start limit?
    (result.map .rows, store)
  | batch rows =>
    let (result, store) := Backend.batch store rows
    (result.map fun _ ↦ .done, store)

/-- A store may come to these outcomes when it is opened again now and then, each time as one of the
stores that may be found in its place. -/
def Yields {β : Type} [Backend β] (Reopens : β → β → Prop) (store : β) :
    List StoreEvent → List StoreOutcome → Prop
  | [], outcomes => outcomes = []
  | .reopen :: events, outcomes =>
    ∃ other, Reopens store other ∧ Yields Reopens other events outcomes
  | .request request :: events, outcomes => ∃ rest, outcomes = (request.ask store).1 :: rest ∧
    Yields Reopens (request.ask store).2 events rest

/-! ### Answers told by the values -/

/-- The value under each key. -/
abbrev Content := Octets → Option Octets

namespace Content

def put (content : Content) (row : Row) : Content := Function.update content row.1 (some row.2)

/-- The values after a request. -/
def after (content : Content) : StoreRequest → Content
  | .get _ | .scan .. => content
  | .put key value => content.put (key, value)
  | .batch rows => rows.foldl put content

/-- All rows whose keys begin as asked, in the order of their keys. -/
structure Lists (content : Content) (start : Octets) (items : List Row) : Prop where
  ordered : items.Pairwise fun a b ↦ a.1 < b.1
  mem_iff : ∀ row, row ∈ items ↔ content row.1 = some row.2 ∧ start <+: row.1

def Answers (content : Content) : StoreRequest → StoreAnswer → Prop
  | .get key, answer => answer = .value (content key)
  | .scan start limit?, answer =>
    ∃ items, content.Lists start items ∧ answer = .rows (Rows.atMost limit? items)
  | .put .., answer | .batch _, answer => answer = .done

/-- No request fails, and each is answered as the values at the time demand. -/
def Meets (content : Content) : List StoreEvent → List StoreOutcome → Prop
  | [], outcomes => outcomes = []
  | .reopen :: events, outcomes => content.Meets events outcomes
  | .request request :: events, outcomes => ∃ answer rest, outcomes = .ok answer :: rest ∧
    content.Answers request answer ∧ (content.after request).Meets events rest

variable {content : Content}

theorem Lists.unique {start : Octets} {items others : List Row} (h : content.Lists start items)
    (hothers : content.Lists start others) : items = others :=
  Rows.eq_of_mem_iff h.ordered hothers.ordered fun row ↦
    (h.mem_iff row).trans (hothers.mem_iff row).symm

theorem Answers.unique {request : StoreRequest} {answer other : StoreAnswer}
    (h : content.Answers request answer) (hother : content.Answers request other) :
    answer = other := by
  cases request with
  | get | put | batch => exact h.trans hother.symm
  | scan start limit? =>
    obtain ⟨items, hitems, rfl⟩ := h
    obtain ⟨others, hothers, rfl⟩ := hother
    rw [hitems.unique hothers]

end Content

/-! ### Rows in memory -/

namespace Rows

/-- The rows are those of the values under the keys. -/
def Holds (rows : Rows) (content : Content) : Prop := ∀ key, rows[key]? = content key

variable {rows : Rows} {content : Content}

theorem Holds.insert (h : rows.Holds content) (row : Row) :
    Rows.Holds (rows.insert row.1 row.2) (content.put row) := by
  intro key
  rw [getElem?_insert_eq_ite, h key, Content.put, Function.update_apply]

theorem Holds.insertAll (h : rows.Holds content) (batch : List Row) :
    (rows.insertAll batch).Holds (batch.foldl Content.put content) := by
  induction batch generalizing rows content with
  | nil => exact h
  | cons row batch ih => exact ih (h.insert row)

theorem Holds.lists_scan (h : rows.Holds content) (start : Octets) :
    content.Lists start (rows.scan start none) where
  ordered := pairwise_scan rows start
  mem_iff row := by rw [mem_scan_iff, h row.1]

/-- A request is answered as the values demand, and the rows hold the values after it. -/
theorem Holds.ask (h : rows.Holds content) (request : StoreRequest) :
    ∃ answer, (request.ask rows).1 = .ok answer ∧ content.Answers request answer ∧
      (request.ask rows).2.Holds (content.after request) := by
  cases request with
  | get key => exact ⟨.value rows[key]?, rfl, congrArg StoreAnswer.value (h key), h⟩
  | put key value => exact ⟨.done, rfl, rfl, h.insert (key, value)⟩
  | scan start limit? =>
    refine ⟨.rows (rows.scan start limit?), rfl, ⟨_, h.lists_scan start, ?_⟩, h⟩
    cases limit? <;> rfl
  | batch rows => exact ⟨.done, rfl, rfl, h.insertAll rows⟩

/-- There is nothing to open again in memory. -/
def Reopens (rows other : Rows) : Prop := other = rows

/-- Rows in memory come to the outcomes that the values demand and to no others. -/
theorem Holds.yields_iff (h : rows.Holds content) (events : List StoreEvent)
    (outcomes : List StoreOutcome) :
    Yields Rows.Reopens rows events outcomes ↔ content.Meets events outcomes := by
  induction events generalizing rows content outcomes with
  | nil => rfl
  | cons event events ih =>
    cases event with
    | reopen => exact exists_eq_left.trans (ih h outcomes)
    | request request =>
      obtain ⟨answer, hask, hanswers, hnext⟩ := h.ask request
      constructor
      · rintro ⟨rest, rfl, hrest⟩
        exact ⟨answer, rest, congrArg (· :: rest) hask, hanswers, (ih hnext rest).mp hrest⟩
      · rintro ⟨other, rest, rfl, hother, hrest⟩
        obtain rfl := hanswers.unique hother
        exact ⟨rest, congrArg (· :: rest) hask.symm, (ih hnext rest).mpr hrest⟩

end Rows

/-! ### Rows in a file -/

namespace Database

/-- The database that is found when the file is opened again has the same rows. -/
def Reopens (database other : Database) : Prop := other.rows = database.rows

/-- A database answers like its rows and keeps what they would. -/
theorem ask_eq_rows (database : Database) (request : StoreRequest) :
    (request.ask database).1 = (request.ask database.rows).1 ∧
      (request.ask database).2.rows = (request.ask database.rows).2 := by
  cases request with
  | get key =>
    refine ⟨congrArg (Except.ok ∘ StoreAnswer.value) ?_, rfl⟩
    obtain ⟨table?⟩ := database
    cases table? with
    | none => exact Std.ExtTreeMap.getElem?_empty.symm
    | some table => rfl
  | scan start limit? =>
    simp only [StoreRequest.ask, scan_eq]
    exact ⟨rfl, rfl⟩
  | put | batch => exact ⟨rfl, rfl⟩

theorem yields_iff (database : Database) (events : List StoreEvent)
    (outcomes : List StoreOutcome) :
    Yields Reopens database events outcomes ↔
      Yields Rows.Reopens database.rows events outcomes := by
  induction events generalizing database outcomes with
  | nil => rfl
  | cons event events ih =>
    cases event with
    | reopen =>
      constructor
      · rintro ⟨other, hrows, hyields⟩
        exact ⟨database.rows, rfl, hrows ▸ (ih other outcomes).mp hyields⟩
      · rintro ⟨rows, rfl, hyields⟩
        exact ⟨database, rfl, (ih database outcomes).mpr hyields⟩
    | request request =>
      obtain ⟨hanswer, hrows⟩ := database.ask_eq_rows request
      refine exists_congr fun rest ↦ and_congr (by rw [hanswer]) ?_
      rw [ih, hrows]

end Database

/-! ### Both -/

/-- The values under the keys leave no choice of outcomes. -/
theorem Rows.Holds.exists_meets_iff {rows : Rows} {content : Content} (h : rows.Holds content)
    (events : List StoreEvent) : ∃ outcomes, ∀ found, content.Meets events found ↔
      found = outcomes := by
  induction events generalizing rows content with
  | nil => exact ⟨[], fun found ↦ Iff.rfl⟩
  | cons event events ih =>
    cases event with
    | reopen => exact ih h
    | request request =>
      obtain ⟨answer, -, hanswers, hnext⟩ := h.ask request
      obtain ⟨outcomes, hmeets⟩ := ih hnext
      refine ⟨.ok answer :: outcomes, fun found ↦ ⟨?_, ?_⟩⟩
      · rintro ⟨other, rest, rfl, hother, hrest⟩
        rw [hanswers.unique hother, (hmeets rest).mp hrest]
      · rintro rfl
        exact ⟨answer, outcomes, rfl, hanswers, (hmeets outcomes).mpr rfl⟩

/-- Rows in memory and rows in a file that is opened again now and then come to the same outcomes,
which are the ones that the values put under the keys demand. -/
theorem stores_interchangeable (events : List StoreEvent) :
    ∃ outcomes, Content.Meets (fun _ ↦ none) events outcomes ∧
      (∀ found, Yields Rows.Reopens Rows.empty events found ↔ found = outcomes) ∧
      ∀ found, Yields Database.Reopens Database.empty events found ↔ found = outcomes := by
  have hempty : Rows.empty.Holds fun _ ↦ none := fun _ ↦ Std.ExtTreeMap.getElem?_empty
  obtain ⟨outcomes, hmeets⟩ := hempty.exists_meets_iff events
  have hmemory (found : List StoreOutcome) :
      Yields Rows.Reopens Rows.empty events found ↔ found = outcomes :=
    (hempty.yields_iff events found).trans (hmeets found)
  exact ⟨outcomes, (hmeets outcomes).mpr rfl, hmemory, fun found ↦
    (Database.yields_iff .empty events found).trans (hmemory found)⟩

end LogSequencing
