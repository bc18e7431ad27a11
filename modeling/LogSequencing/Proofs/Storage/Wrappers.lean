import LogSequencing.Proofs.Storage.Interchange
import LogSequencing.Storage.Faulty
import LogSequencing.Storage.Metered
import Mathlib.Algebra.GroupWithZero.Nat

/-!
# Stores that fail on demand and are counted

Rows in memory can be wrapped twice: so many reads or writes to come are made to fail, and all requests
are counted. Neither wrapper changes an answer by itself. `Forecast` tells the values under the keys and
the failures that are left, and every outcome is the one it demands (`Faulty.Fulfils.ask`): a request
fails exactly if a failure of its access is left, and is answered otherwise as the values put by the
requests that were answered demand. What is counted is a matter of the requests and their outcomes alone,
whatever store is inside (`Metered.statistics_run`). Both together are `Metered.run_transparent`.
-/

set_option autoImplicit false
set_option relaxedAutoImplicit false

namespace LogSequencing

/-! ### What is asked of the store -/

/-- Failures are planned for reads and for writes. -/
inductive Access where
  | read
  | write
deriving DecidableEq, Repr

namespace StoreRequest

def operation : StoreRequest → Operation
  | get _ => .get
  | put .. => .put
  | scan .. => .scan
  | batch _ => .batch

def access : StoreRequest → Access
  | get _ | scan .. => .read
  | put .. | batch _ => .write

/-- How many rows the request is to write. -/
def rowCount : StoreRequest → Nat
  | get _ | scan .. => 0
  | put .. => 1
  | batch rows => rows.length

end StoreRequest

/-- What can be planned for the operations to come. -/
inductive FaultPlan where
  | failReads (n : UInt64)
  | failWrites (n : UInt64)
  | failForever
  | heal
deriving DecidableEq, Repr

inductive StoreStep where
  | plan (plan : FaultPlan)
  | request (request : StoreRequest)
deriving DecidableEq, Repr

/-- A request and what came of it. -/
structure Exchange where
  request : StoreRequest
  outcome : StoreOutcome

namespace Exchange

def hasFailed (exchange : Exchange) : Bool := !exchange.outcome.isOk

/-- How many rows were written. -/
def written (exchange : Exchange) : Nat :=
  if exchange.hasFailed then 0 else exchange.request.rowCount

def isFailedWrite (exchange : Exchange) : Bool :=
  decide (exchange.request.access = .write) && exchange.hasFailed

end Exchange

/-- The exchanges of a history that did not fail. -/
def answered (history : List Exchange) : List Exchange := history.filter (!·.hasFailed)

/-- The plan is made with the wrapper that fails, behind the one that counts. -/
def FaultPlan.make {β : Type} (store : Faulty β) : FaultPlan → Faulty β
  | failReads n => store.failReads n
  | failWrites n => store.failWrites n
  | failForever => store.failForever
  | heal => store.heal

/-- Takes steps one after the other. The history has the requests among them. -/
def Metered.run {β : Type} [Backend β] (store : Metered (Faulty β)) :
    List StoreStep → List Exchange × Metered (Faulty β)
  | [] => ([], store)
  | .plan plan :: steps => run { store with inner := plan.make store.inner } steps
  | .request request :: steps =>
    let (outcome, store) := request.ask store
    let (history, store) := run store steps
    (⟨request, outcome⟩ :: history, store)

/-! ### What is expected of it -/

/-- What is known of a store that fails on demand: the values under the keys, and how many reads and
writes are still to fail. The greatest count stands for all to come. -/
structure Forecast where
  content : Content
  failures : Access → UInt64

/-- A count of failures after one more of them. -/
def lessOne (n : UInt64) : UInt64 := if n = 0xffffffffffffffff then n else n - 1

/-- The failures to come after a plan has been made. -/
def FaultPlan.counts (failures : Access → UInt64) : FaultPlan → Access → UInt64
  | failReads n => Function.update failures .read n
  | failWrites n => Function.update failures .write n
  | failForever => fun _ ↦ 0xffffffffffffffff
  | heal => fun _ ↦ 0

namespace Forecast

/-- A request that fails uses up a failure and does nothing else. -/
def after (forecast : Forecast) : StoreStep → Forecast
  | .plan plan => { forecast with failures := plan.counts forecast.failures }
  | .request request =>
    let failures := forecast.failures request.access
    if failures = 0 then
      { forecast with content := forecast.content.after request }
    else
      { forecast with
        failures := Function.update forecast.failures request.access (lessOne failures) }

theorem after_of_eq_zero {forecast : Forecast} {request : StoreRequest}
    (h : forecast.failures request.access = 0) : forecast.after (.request request) =
      { forecast with content := forecast.content.after request } :=
  if_pos h

theorem after_of_ne_zero {forecast : Forecast} {request : StoreRequest}
    (h : forecast.failures request.access ≠ 0) : forecast.after (.request request) =
      { forecast with
        failures := Function.update forecast.failures request.access
          (lessOne (forecast.failures request.access)) } :=
  if_neg h

/-- A request fails if a failure is left for it, and is answered as the values demand if none is. -/
def Demands (forecast : Forecast) (request : StoreRequest) (outcome : StoreOutcome) : Prop :=
  if forecast.failures request.access = 0 then
    ∃ answer, outcome = .ok answer ∧ forecast.content.Answers request answer
  else
    outcome = .error (.injected request.operation)

/-- Every request of the steps comes out as it is to at that time. -/
def Meets (forecast : Forecast) : List StoreStep → List Exchange → Prop
  | [], history => history = []
  | .plan plan :: steps, history => (forecast.after (.plan plan)).Meets steps history
  | .request request :: steps, history => ∃ outcome rest, history = ⟨request, outcome⟩ :: rest ∧
    forecast.Demands request outcome ∧ (forecast.after (.request request)).Meets steps rest

/-- Without the requests that failed, the history is one of the values alone, and leads to the same
values. -/
theorem Meets.answered {forecast : Forecast} {steps : List StoreStep} {history : List Exchange}
    (h : forecast.Meets steps history) :
    forecast.content.Meets ((answered history).map (.request ·.request))
        ((answered history).map (·.outcome)) ∧
      (steps.foldl after forecast).content =
        ((answered history).map (·.request)).foldl Content.after forecast.content := by
  induction steps generalizing forecast history with
  | nil =>
    obtain rfl := h
    exact ⟨rfl, rfl⟩
  | cons step steps ih =>
    cases step with
    | plan plan => exact ih h
    | request request =>
      obtain ⟨outcome, rest, rfl, hdemands, hrest⟩ := h
      obtain ⟨hmeets, hcontent⟩ := ih hrest
      rw [List.foldl_cons, hcontent]
      by_cases hzero : forecast.failures request.access = 0
      · rw [Demands, if_pos hzero] at hdemands
        obtain ⟨answer, rfl, hanswers⟩ := hdemands
        rw [after_of_eq_zero hzero] at hmeets ⊢
        exact ⟨⟨answer, _, rfl, hanswers, hmeets⟩, rfl⟩
      · rw [Demands, if_neg hzero] at hdemands
        obtain rfl := hdemands
        rw [after_of_ne_zero hzero] at hmeets ⊢
        exact ⟨hmeets, rfl⟩

end Forecast

/-! ### The wrapper that fails -/

namespace FailureBudget

theorem ofCount_of_ne {n : UInt64} (h : n ≠ 0xffffffffffffffff) : ofCount n = times n.toNat :=
  if_neg h

/-- A budget runs down like the count it was made of. -/
theorem spend?_ofCount (n : UInt64) :
    (ofCount n).spend? = if n = 0 then .none else some (ofCount (lessOne n)) := by
  by_cases hforever : n = 0xffffffffffffffff
  · rw [hforever]
    rfl
  by_cases hzero : n = 0
  · rw [hzero]
    rfl
  have hle : 1 ≤ n := by
    rw [UInt64.le_iff_toNat_le]
    exact Nat.pos_of_ne_zero fun h ↦ hzero (UInt64.toNat_inj.mp h)
  have hless : (n - 1).toNat + 1 = n.toNat := by
    rw [UInt64.toNat_sub_of_le n 1 hle]
    exact Nat.sub_add_cancel (UInt64.le_iff_toNat_le.mp hle)
  have hleft : n - 1 ≠ 0xffffffffffffffff := by
    intro hlast
    rw [hlast] at hless
    exact absurd n.toNat_lt (hless ▸ Nat.lt_irrefl _)
  rw [if_neg hzero, lessOne, if_neg hforever, ofCount_of_ne hforever, ofCount_of_ne hleft, ← hless]
  rfl

end FailureBudget

namespace Faulty

variable {β : Type} {store : Faulty β}

/-- The failures that are left of an access. -/
def budget (store : Faulty β) : Access → FailureBudget
  | .read => store.reads
  | .write => store.writes

/-- The store with another budget for an access. -/
def setBudget (store : Faulty β) (budget : FailureBudget) : Access → Faulty β
  | .read => { store with reads := budget }
  | .write => { store with writes := budget }

@[simp]
theorem budget_setBudget (store : Faulty β) (budget : FailureBudget) (access other : Access) :
    (store.setBudget budget access).budget other =
      if other = access then budget else store.budget other := by
  cases access <;> cases other <;> rfl

@[simp]
theorem inner_setBudget (store : Faulty β) (budget : FailureBudget) (access : Access) :
    (store.setBudget budget access).inner = store.inner := by
  cases access <;> rfl

theorem budget_make (plan : FaultPlan) {failures : Access → UInt64}
    (h : ∀ access, store.budget access = .ofCount (failures access)) (access : Access) :
    (plan.make store).budget access = .ofCount (plan.counts failures access) := by
  cases plan with
  | failReads n => cases access with
    | read => rfl
    | write => exact h .write
  | failWrites n => cases access with
    | read => exact h .read
    | write => rfl
  | failForever | heal => cases access <;> rfl

theorem inner_make (plan : FaultPlan) : (plan.make store).inner = store.inner := by
  cases plan <;> rfl

variable [Backend β]

/-- A request that fails never reaches the store inside. -/
theorem ask_of_failing {request : StoreRequest} {budget : FailureBudget}
    (h : (store.budget request.access).spend? = some budget) : request.ask store =
      (.error (.injected request.operation), store.setBudget budget request.access) := by
  cases request with
  | get | scan =>
    have hreads : store.reads.spend? = some budget := h
    simp only [StoreRequest.ask, Backend.get, Backend.scan, read, hreads]
    rfl
  | put | batch =>
    have hwrites : store.writes.spend? = some budget := h
    simp only [StoreRequest.ask, Backend.put, Backend.batch, write, hwrites]
    rfl

theorem ask_of_not_failing {request : StoreRequest}
    (h : (store.budget request.access).spend? = none) : request.ask store =
      ((request.ask store.inner).1, { store with inner := (request.ask store.inner).2 }) := by
  cases request with
  | get | scan =>
    have hreads : store.reads.spend? = none := h
    simp only [StoreRequest.ask, Backend.get, Backend.scan, read, hreads]
  | put | batch =>
    have hwrites : store.writes.spend? = none := h
    simp only [StoreRequest.ask, Backend.put, Backend.batch, write, hwrites]

/-- The rows hold the values that are forecast, and the failures left are those forecast. -/
structure Fulfils (store : Faulty Rows) (forecast : Forecast) : Prop where
  holds : store.inner.Holds forecast.content
  budget : ∀ access, store.budget access = .ofCount (forecast.failures access)

variable {store : Faulty Rows} {forecast : Forecast}

theorem Fulfils.make (h : store.Fulfils forecast) (plan : FaultPlan) :
    (plan.make store).Fulfils (forecast.after (.plan plan)) := by
  refine ⟨?_, budget_make plan h.budget⟩
  rw [inner_make]
  exact h.holds

/-- A request comes out as it is to, and the store goes on as forecast. -/
theorem Fulfils.ask (h : store.Fulfils forecast) (request : StoreRequest) :
    forecast.Demands request (request.ask store).1 ∧
      (request.ask store).2.Fulfils (forecast.after (.request request)) := by
  have hspend := FailureBudget.spend?_ofCount (forecast.failures request.access)
  rw [← h.budget] at hspend
  by_cases hzero : forecast.failures request.access = 0
  · rw [if_pos hzero] at hspend
    obtain ⟨answer, hask, hanswers, hholds⟩ := h.holds.ask request
    rw [ask_of_not_failing hspend, Forecast.Demands, if_pos hzero, Forecast.after_of_eq_zero hzero]
    exact ⟨⟨answer, hask, hanswers⟩, hholds, h.budget⟩
  · rw [if_neg hzero] at hspend
    rw [ask_of_failing hspend, Forecast.Demands, if_neg hzero, Forecast.after_of_ne_zero hzero]
    refine ⟨rfl, ?_, fun access ↦ ?_⟩
    · rw [inner_setBudget]
      exact h.holds
    · dsimp only
      rw [budget_setBudget, Function.update_apply, apply_ite FailureBudget.ofCount, h.budget]

end Faulty

/-! ### The wrapper that counts -/

namespace Statistics

/-- The statistics of requests and what came of them. -/
def ofHistory (history : List Exchange) : Statistics where
  gets := history.countP (·.request.operation = .get)
  puts := history.countP (·.request.operation = .put)
  scans := history.countP (·.request.operation = .scan)
  batches := history.countP (·.request.operation = .batch)
  rowsWritten := (history.map Exchange.written).sum
  failedWrites := history.countP Exchange.isFailedWrite

instance : Add Statistics where
  add a b := {
    gets := a.gets + b.gets
    puts := a.puts + b.puts
    scans := a.scans + b.scans
    batches := a.batches + b.batches
    rowsWritten := a.rowsWritten + b.rowsWritten
    failedWrites := a.failedWrites + b.failedWrites }

theorem add_assoc (a b c : Statistics) : a + b + c = a + (b + c) := by
  show mk _ _ _ _ _ _ = mk _ _ _ _ _ _
  congr 1 <;> apply Nat.add_assoc

theorem add_zero (a : Statistics) : a + zero = a := rfl

theorem zero_add (a : Statistics) : zero + a = a := by
  show mk _ _ _ _ _ _ = mk _ _ _ _ _ _
  congr 1 <;> apply Nat.zero_add

theorem ofHistory_cons (exchange : Exchange) (history : List Exchange) :
    ofHistory (exchange :: history) = ofHistory [exchange] + ofHistory history := by
  rw [← List.singleton_append]
  simp only [ofHistory, List.countP_append, List.map_append, List.sum_append]
  rfl

end Statistics

namespace Metered

variable {β : Type} [Backend β]

/-- A request is answered by the store inside, and counted. -/
theorem ask_eq (store : Metered β) (request : StoreRequest) :
    request.ask store = ((request.ask store.inner).1, ⟨(request.ask store.inner).2,
      store.statistics + .ofHistory [⟨request, (request.ask store.inner).1⟩]⟩) := by
  cases request with
  | get key =>
    simp only [StoreRequest.ask, Backend.get]
    rcases Backend.get store.inner key with ⟨_ | _, inner⟩ <;> rfl
  | put key value =>
    simp only [StoreRequest.ask, Backend.put]
    rcases Backend.put store.inner key value with ⟨_ | _, inner⟩ <;> rfl
  | scan start limit? =>
    simp only [StoreRequest.ask, Backend.scan]
    rcases Backend.scan store.inner start limit? with ⟨_ | _, inner⟩ <;> rfl
  | batch rows =>
    simp only [StoreRequest.ask, Backend.batch]
    rcases Backend.batch store.inner rows with ⟨_ | _, inner⟩ <;> rfl

theorem statistics_ask (store : Metered β) (request : StoreRequest) :
    (request.ask store).2.statistics =
      store.statistics + .ofHistory [⟨request, (request.ask store).1⟩] := by
  rw [ask_eq]

theorem run_request (store : Metered (Faulty β)) (request : StoreRequest)
    (steps : List StoreStep) :
    let next := (request.ask store).2
    store.run (.request request :: steps) =
      (⟨request, (request.ask store).1⟩ :: (next.run steps).1, (next.run steps).2) := rfl

/-- What has been counted after some steps is what their history tells, whatever is inside. -/
theorem statistics_run (store : Metered (Faulty β)) (steps : List StoreStep) :
    (store.run steps).2.statistics = store.statistics + .ofHistory (store.run steps).1 := by
  induction steps generalizing store with
  | nil => exact (Statistics.add_zero store.statistics).symm
  | cons step steps ih =>
    cases step with
    | plan plan => exact ih { store with inner := plan.make store.inner }
    | request request =>
      rw [run_request]
      dsimp only
      rw [ih, statistics_ask, Statistics.add_assoc, ← Statistics.ofHistory_cons]

/-- Every request comes out as forecast, and so does the store. -/
theorem run_fulfils (store : Metered (Faulty Rows)) {forecast : Forecast}
    (h : store.inner.Fulfils forecast) (steps : List StoreStep) :
    forecast.Meets steps (store.run steps).1 ∧
      (store.run steps).2.inner.Fulfils (steps.foldl Forecast.after forecast) := by
  induction steps generalizing store forecast with
  | nil => exact ⟨rfl, h⟩
  | cons step steps ih =>
    cases step with
    | plan plan => exact ih ⟨_, store.statistics⟩ (h.make plan)
    | request request =>
      obtain ⟨hdemands, hafter⟩ := h.ask request
      have hask := store.ask_eq request
      have hnext : (request.ask store).2.inner = (request.ask store.inner).2 := by rw [hask]
      obtain ⟨hmeets, hlast⟩ := ih _ (hnext ▸ hafter)
      rw [run_request, hask]
      exact ⟨⟨_, _, rfl, hdemands, hask ▸ hmeets⟩, hask ▸ hlast⟩

/-- Rows in memory that fail on demand and are counted. A request fails exactly if a failure is left
for it, and uses one up. The requests that are answered come out as they would of the rows alone,
without the others, and lead to the same rows. All that is counted is told by the history. -/
theorem run_transparent (rows : Rows) (steps : List StoreStep) :
    let (history, store) := (ofBackend (Faulty.ofBackend rows)).run steps
    let start : Forecast := ⟨fun key ↦ rows[key]?, fun _ ↦ 0⟩
    start.Meets steps history ∧
      store.inner.Fulfils (steps.foldl Forecast.after start) ∧
      Yields Rows.Reopens rows ((answered history).map (.request ·.request))
        ((answered history).map (·.outcome)) ∧
      store.inner.inner.Holds
        (((answered history).map (·.request)).foldl Content.after start.content) ∧
      store.statistics = .ofHistory history := by
  have hholds : rows.Holds fun key ↦ rows[key]? := fun _ ↦ rfl
  have hstart : (Faulty.ofBackend rows).Fulfils ⟨fun key ↦ rows[key]?, fun _ ↦ 0⟩ :=
    ⟨hholds, fun access ↦ by cases access <;> rfl⟩
  obtain ⟨hmeets, hfulfils⟩ := run_fulfils (ofBackend (Faulty.ofBackend rows)) hstart steps
  obtain ⟨hanswered, hcontent⟩ := hmeets.answered
  refine ⟨hmeets, hfulfils, (hholds.yields_iff _ _).mpr hanswered, ?_, ?_⟩
  · rw [← hcontent]
    exact hfulfils.holds
  · rw [statistics_run]
    exact Statistics.zero_add _

end Metered

end LogSequencing
