import LogSequencing.Engine

/-!
# What the loops of the engine come to

The loops of the engine run on fuel. Here each of them is told by what it does: a task works step by
step until it has to wait (`Works`), the queue is worked off task by task (`Settles`), and a call is
carried through with the background working while it waits (`Carries`). What is reached in so many
rounds is what the loop gives, on at least as much fuel (`Works.turnWithin_eq`,
`Settles.settleWithin_eq`, `Carries.performWithin_eq`).
-/

set_option autoImplicit false
set_option relaxedAutoImplicit false

namespace LogSequencing.Engine

variable {β σ : Type} [Backend β] [LogSource σ]

/-- A task takes at most so many steps until it has to wait. -/
inductive Works (task : Task) : Nat → Engine β σ → Engine β σ → Prop
  | rest {n : Nat} {engine : Engine β σ} (hwaits : engine.taskStep? task = none) :
    Works task n engine engine
  | step {n : Nat} {engine next after : Engine β σ} (hstep : engine.taskStep? task = some next)
    (hworks : Works task n next after) : Works task (n + 1) engine after

/-- The queue is empty after at most so many turns. -/
inductive Settles : Nat → Engine β σ → Engine β σ → Prop
  | rest {n : Nat} {engine : Engine β σ} (hqueue : engine.queue = []) : Settles n engine engine
  | turn {n : Nat} {engine after : Engine β σ} {task : Task} {queue : List Task}
    (hqueue : engine.queue = task :: queue)
    (hsettles : Settles n ({ engine with queue }.turn task).enqueue after) :
    Settles (n + 1) engine after

/-- A call on a sequencer ends after at most so many steps and waits, in which the clock stands
still. -/
inductive Carries (number : Nat) : Nat → Call → Engine β σ → Outcome → Engine β σ → Prop
  | finish {n : Nat} {call : Call} {engine after : Engine β σ} {outcome : Outcome}
    (hstep : engine.callStep? number call = some (.ended outcome, after)) :
    Carries number (n + 1) call engine outcome after.enqueue
  | step {n : Nat} {call next : Call} {engine stepped after : Engine β σ} {outcome : Outcome}
    (hstep : engine.callStep? number call = some (.running next, stepped))
    (hcarries : Carries number n next stepped.enqueue outcome after) :
    Carries number (n + 1) call engine outcome after
  | wait {n : Nat} {call : Call} {engine after : Engine β σ} {outcome : Outcome}
    (hwaits : engine.callStep? number call = none) (hqueue : engine.queue ≠ [])
    (hcarries : Carries number n call engine.settle outcome after) :
    Carries number (n + 1) call engine outcome after

theorem Works.turnWithin_eq {task : Task} {n : Nat} {engine after : Engine β σ}
    (h : Works task n engine after) {fuel : Nat} (hfuel : n ≤ fuel) :
    engine.turnWithin task fuel = after := by
  induction h generalizing fuel with
  | rest hwaits =>
    cases fuel with
    | zero => rfl
    | succ fuel => rw [turnWithin, hwaits]
  | step hstep _ ih =>
    cases fuel with
    | zero => exact absurd hfuel (Nat.not_succ_le_zero _)
    | succ fuel =>
      rw [turnWithin, hstep]
      exact ih (Nat.le_of_succ_le_succ hfuel)

theorem Settles.settleWithin_eq {n : Nat} {engine after : Engine β σ}
    (h : Settles n engine after) {fuel : Nat} (hfuel : n ≤ fuel) :
    engine.settleWithin fuel = after := by
  induction h generalizing fuel with
  | rest hqueue =>
    cases fuel with
    | zero => rfl
    | succ fuel => simp only [settleWithin, hqueue]
  | turn hqueue _ ih =>
    cases fuel with
    | zero => exact absurd hfuel (Nat.not_succ_le_zero _)
    | succ fuel =>
      simp only [settleWithin, hqueue]
      exact ih (Nat.le_of_succ_le_succ hfuel)

theorem Carries.performWithin_eq {number n : Nat} {call : Call} {engine after : Engine β σ}
    {outcome : Outcome} (h : Carries number n call engine outcome after) {fuel : Nat}
    (hfuel : n ≤ fuel) : engine.performWithin number fuel call = (some outcome, after) := by
  induction h generalizing fuel with
  | finish hstep =>
    cases fuel with
    | zero => exact absurd hfuel (Nat.not_succ_le_zero _)
    | succ fuel => rw [performWithin, hstep]
  | step hstep _ ih =>
    cases fuel with
    | zero => exact absurd hfuel (Nat.not_succ_le_zero _)
    | succ fuel =>
      rw [performWithin, hstep]
      exact ih (Nat.le_of_succ_le_succ hfuel)
  | wait hwaits hqueue _ ih =>
    cases fuel with
    | zero => exact absurd hfuel (Nat.not_succ_le_zero _)
    | succ fuel =>
      rw [performWithin, hwaits]
      simp only [List.isEmpty_iff, if_neg hqueue]
      exact ih (Nat.le_of_succ_le_succ hfuel)

theorem Carries.mono {number n m : Nat} {call : Call} {engine after : Engine β σ}
    {outcome : Outcome} (h : Carries number n call engine outcome after) (hle : n ≤ m) :
    Carries number m call engine outcome after := by
  induction h generalizing m with
  | finish hstep =>
    cases m with
    | zero => exact absurd hle (Nat.not_succ_le_zero _)
    | succ m => exact .finish hstep
  | step hstep _ ih =>
    cases m with
    | zero => exact absurd hle (Nat.not_succ_le_zero _)
    | succ m => exact .step hstep (ih (Nat.le_of_succ_le_succ hle))
  | wait hwaits hqueue _ ih =>
    cases m with
    | zero => exact absurd hle (Nat.not_succ_le_zero _)
    | succ m => exact .wait hwaits hqueue (ih (Nat.le_of_succ_le_succ hle))

/-! ### On the fuel that the engine has -/

theorem le_stepLimit {n : Nat} (h : n ≤ 100) : n ≤ stepLimit := Nat.le_trans h (by decide)

theorem Works.turn_eq {task : Task} {n : Nat} {engine after : Engine β σ}
    (h : Works task n { engine with tasks := engine.tasks.erase task ++ [task] } after)
    (hn : n ≤ 100) : engine.turn task = after := h.turnWithin_eq (le_stepLimit hn)

theorem Settles.settle_eq {n : Nat} {engine after : Engine β σ} (h : Settles n engine after)
    (hn : n ≤ 100) : engine.settle = after := h.settleWithin_eq (le_stepLimit hn)

theorem Carries.perform_eq {number n : Nat} {call : Call} {engine after : Engine β σ}
    {outcome : Outcome} (h : Carries number n call engine outcome after) (hn : n ≤ 100) :
    engine.perform number call = (some outcome, after) :=
  h.performWithin_eq (Nat.le_trans (le_stepLimit hn) (Nat.le_mul_of_pos_right _ (Nat.succ_pos _)))

end LogSequencing.Engine
