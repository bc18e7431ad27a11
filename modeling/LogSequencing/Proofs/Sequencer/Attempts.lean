import LogSequencing.Proofs.Flusher
import LogSequencing.Sequencer
import Mathlib.Order.Lattice.Nat

/-!
# Attempts and what separates them

A history of attempts is told by when each began, after how many failures, and when it failed. It is
`Paced` if an attempt at something that is failing waits for the whole delay, unless there is an
excuse. Without one nobody can begin to count the failures anew (`Paced.separated`).

The worker attempts to write and the recovery task to recover. Each turn of theirs is told with the
attempts that it makes (`Worker.Turn`, `RecoveryTask.Turn`), and keeps the history paced
(`Worker.Turn.follows`, `RecoveryTask.Turn.follows`): while they wait, they know when to wake. A
shutdown that is asked for excuses the worker, and so does the release of a sequencer that has been
dropped. The recovery task has no excuse, since it makes no attempt once it sees a shutdown.
-/

set_option autoImplicit false
set_option relaxedAutoImplicit false

namespace LogSequencing

/-! ### Attempts -/

/-- What is told of an attempt. -/
inductive AttemptEvent (ι : Type) where
  /-- It began after so many failures, in these surroundings. -/
  | began (what : ι) (failures : Nat) (signals : Flusher.Signals)
  /-- It was the last of so many failures. -/
  | failed (what : ι) (failures : Nat) (time : Nat)
deriving DecidableEq

/-- The last that was told of this is a failure. -/
def IsFailing {ι : Type} (what : ι) : List (AttemptEvent ι) → Prop
  | [] => False
  | .began other _ _ :: older => other ≠ what ∧ IsFailing what older
  | .failed other _ _ :: older => other = what ∨ IsFailing what older

/-- A history of attempts, the latest first. An attempt at something that is failing follows the last
failure when the delay since then is over, unless there is an excuse. -/
inductive Paced {ι : Type} (config : Config) (IsExcused : Flusher.Signals → Prop) :
    List (AttemptEvent ι) → Prop where
  | nothing : Paced config IsExcused []
  | first {history : List (AttemptEvent ι)} (what : ι) (signals : Flusher.Signals)
      (hfirst : IsFailing what history → IsExcused signals)
      (hhistory : Paced config IsExcused history) :
      Paced config IsExcused (.began what 0 signals :: history)
  | fail {history : List (AttemptEvent ι)} {what : ι} {failures : Nat} {signals : Flusher.Signals}
      (time : Nat) (hlater : signals.now ≤ time)
      (hhistory : Paced config IsExcused (.began what failures signals :: history)) :
      Paced config IsExcused
        (.failed what (failures + 1) time :: .began what failures signals :: history)
  | retry {history : List (AttemptEvent ι)} {what : ι} {failures time : Nat}
      (signals : Flusher.Signals)
      (hwaited : time + config.retryDelay failures ≤ signals.now ∨ IsExcused signals)
      (hhistory : Paced config IsExcused (.failed what failures time :: history)) :
      Paced config IsExcused (.began what failures signals :: .failed what failures time :: history)

/-- The next attempt is the first, or the delay since the last failure is over or excused. -/
def Waited {ι : Type} (config : Config) (history : List (AttemptEvent ι)) (what : ι)
    (failures now : Nat) (IsExcused : Prop) : Prop :=
  (failures = 0 ∧ (IsFailing what history → IsExcused)) ∨
    ∃ time older, history = .failed what failures time :: older ∧
      (time + config.retryDelay failures ≤ now ∨ IsExcused)

section

variable {ι : Type} {config : Config} {IsExcused : Flusher.Signals → Prop}
  {history : List (AttemptEvent ι)} {what : ι} {failures now later : Nat} {P Q : Prop}

theorem Waited.mono (h : Waited config history what failures now P) (hnow : now ≤ later)
    (hexcused : P → Q) : Waited config history what failures later Q := by
  refine h.imp (And.imp_right hexcused.comp) ?_
  rintro ⟨time, older, rfl, hwaited⟩
  exact ⟨time, older, rfl, hwaited.imp hnow.trans' hexcused⟩

theorem Paced.begin (h : Paced config IsExcused history) {signals : Flusher.Signals}
    (hwaited : Waited config history what failures signals.now (IsExcused signals)) :
    Paced config IsExcused (.began what failures signals :: history) := by
  rcases hwaited with ⟨rfl, hfirst⟩ | ⟨time, older, rfl, hwaited⟩
  · exact .first what signals hfirst h
  · exact .retry signals hwaited h

theorem Paced.of_append {newer older : List (AttemptEvent ι)}
    (h : Paced config IsExcused (newer ++ older)) : Paced config IsExcused older := by
  induction newer with
  | nil => exact h
  | cons event newer ih =>
    refine ih ?_
    rw [List.cons_append] at h
    generalize newer ++ older = history at h ⊢
    cases h with
    | first _ _ _ hhistory | fail _ _ hhistory | retry _ _ hhistory => exact hhistory

/-- An attempt at something that is failing follows the attempt that failed last, unless it is
excused, and the whole delay lies between them. -/
theorem Paced.separated {newer older : List (AttemptEvent ι)} {signals : Flusher.Signals}
    (h : Paced config IsExcused (newer ++ .began what failures signals :: older))
    (hfailing : IsFailing what older) (hexcused : ¬ IsExcused signals) :
    ∃ before earlier time oldest, failures = before + 1 ∧
      older = .failed what failures time :: .began what before earlier :: oldest ∧
      earlier.now + config.retryDelay failures ≤ signals.now := by
  cases h.of_append with
  | first _ _ hfirst _ => exact absurd (hfirst hfailing) hexcused
  | retry _ hwaited hhistory =>
    have hdelay := hwaited.resolve_right hexcused
    cases hhistory with
    | fail _ hlater _ =>
      exact ⟨_, _, _, _, rfl, rfl, (Nat.add_le_add_right hlater _).trans hdelay⟩

end

/-! ### Turns of the worker and of the recovery task -/

/-- A turn of the worker, with the attempts that it makes. -/
inductive Worker.Turn (config : Config) (signals : Flusher.Signals) :
    Worker → Worker → List (AttemptEvent Batch) → Prop where
  | stay (worker : Worker) : Turn config signals worker worker []
  | take (batch : Batch) : Turn config signals idle (writing batch 0) []
  | leave : Turn config signals idle gone []
  | land (batch : Batch) (failures : Nat) :
      Turn config signals (writing batch failures) clearing [.began batch failures signals]
  | fail (batch : Batch) (failures : Nat) :
      Turn config signals (writing batch failures)
        (backingOff batch (failures + 1) (signals.now + config.retryDelay (failures + 1)))
        [.failed batch (failures + 1) signals.now, .began batch failures signals]
  | abandon (batch : Batch) (failures : Nat) (hstopping : signals.isStopping = true) :
      Turn config signals (writing batch failures) clearing
        [.failed batch (failures + 1) signals.now, .began batch failures signals]
  | retry (batch : Batch) (failures wake : Nat)
      (hwake : wake ≤ signals.now ∨ signals.isStopping = true ∨ signals.isReleased = true) :
      Turn config signals (backingOff batch failures wake) (writing batch failures) []
  | lower : Turn config signals clearing idle []

/-- A turn of the recovery task, with the attempts that it makes. All of them are at the same thing, no
matter which task makes them. -/
inductive RecoveryTask.Turn (config : Config) (signals : Flusher.Signals) :
    RecoveryTask → RecoveryTask → List (AttemptEvent Unit) → Prop where
  | stay (task : RecoveryTask) : Turn config signals task task []
  | stop (failures : Nat) : Turn config signals (checking failures) absent []
  | goOn (failures : Nat) (hgoing : signals.isStopping = false) :
      Turn config signals (checking failures) (awaitingFlusher failures) []
  | leave (failures : Nat) (hstopping : signals.isStopping = true) :
      Turn config signals (awaitingFlusher failures) (checking failures) []
  | attempt (failures : Nat) :
      Turn config signals (awaitingFlusher failures) (clearing failures) []
  | clear (failures : Nat) :
      Turn config signals (clearing failures) (readingCheckpoint failures)
        [.began () failures signals]
  | read (failures : Nat) (checkpoint : Counters) :
      Turn config signals (readingCheckpoint failures) (readingLog failures checkpoint) []
  | rebuild (failures : Nat) (checkpoint counters : Counters) :
      Turn config signals (readingLog failures checkpoint) (installing counters) []
  | failCheckpoint (failures : Nat) :
      Turn config signals (readingCheckpoint failures)
        (backingOff (failures + 1) (signals.now + config.retryDelay (failures + 1)))
        [.failed () (failures + 1) signals.now]
  | failLog (failures : Nat) (checkpoint : Counters) :
      Turn config signals (readingLog failures checkpoint)
        (backingOff (failures + 1) (signals.now + config.retryDelay (failures + 1)))
        [.failed () (failures + 1) signals.now]
  | install (counters : Counters) : Turn config signals (installing counters) absent []
  | wake (failures wake : Nat) (hwake : wake ≤ signals.now ∨ signals.isStopping = true) :
      Turn config signals (backingOff failures wake) (checking failures) []

namespace Worker

variable {config : Config} {IsDropped : Prop} {signals later : Flusher.Signals}
  {history : List (AttemptEvent Batch)} {worker after : Worker} {attempts : List (AttemptEvent Batch)}

/-- What may cut the delay of the worker short; the second only if the sequencer has been dropped. -/
def IsExcused (IsDropped : Prop) (signals : Flusher.Signals) : Prop :=
  signals.isStopping = true ∨ IsDropped ∧ signals.isReleased = true

/-- Where the worker stands goes with its attempts. -/
def Follows (config : Config) (IsDropped : Prop) (signals : Flusher.Signals)
    (history : List (AttemptEvent Batch)) : Worker → Prop
  | writing batch failures =>
    Waited config history batch failures signals.now (IsExcused IsDropped signals)
  | backingOff batch failures wake => ∃ time older, history = .failed batch failures time :: older ∧
    time + config.retryDelay failures = wake
  | idle | clearing | gone => True

theorem Follows.mono (h : worker.Follows config IsDropped signals history)
    (hnow : signals.now ≤ later.now)
    (hexcused : IsExcused IsDropped signals → IsExcused IsDropped later) :
    worker.Follows config IsDropped later history := by
  cases worker with
  | writing batch failures => exact Waited.mono h hnow hexcused
  | _ => exact h

/-- The worker gives no batch up without a shutdown: only the one in its hands may be failing. -/
def IsSteadfast (signals : Flusher.Signals) (history : List (AttemptEvent Batch))
    (worker : Worker) : Prop :=
  ∀ batch, IsFailing batch history → worker.inHand = [batch] ∨ signals.isStopping = true

theorem IsSteadfast.mono (h : worker.IsSteadfast signals history)
    (hstopping : signals.isStopping = true → later.isStopping = true) :
    worker.IsSteadfast later history :=
  fun batch hfailing ↦ (h batch hfailing).imp_right hstopping

theorem Turn.isSteadfast (h : Turn config signals worker after attempts)
    (hsteadfast : worker.IsSteadfast signals history) :
    after.IsSteadfast signals (attempts ++ history) := by
  intro other hfailing
  -- What is failing and is not in hand had been given up before.
  have hgivenUp {batch : Batch} (hhand : worker.inHand = [batch]) (hne : batch ≠ other)
      (hbefore : IsFailing other history) : signals.isStopping = true :=
    (hsteadfast other hbefore).resolve_left fun hother ↦
      hne (List.head_eq_of_cons_eq (hhand.symm.trans hother))
  cases h with
  | stay | leave | lower | retry => exact hsteadfast other hfailing
  | take batch => exact Or.inr ((hsteadfast other hfailing).resolve_left (List.cons_ne_nil _ _).symm)
  | land batch failures => exact Or.inr (hgivenUp rfl hfailing.1 hfailing.2)
  | fail batch failures =>
    rcases hfailing with rfl | ⟨hne, hbefore⟩
    · exact Or.inl rfl
    · exact Or.inr (hgivenUp rfl hne hbefore)
  | abandon batch failures hstopping => exact Or.inr hstopping

theorem Turn.follows (h : Turn config signals worker after attempts)
    (hreleased : signals.isReleased = true → IsDropped)
    (hsteadfast : worker.IsSteadfast signals history)
    (hfollows : worker.Follows config IsDropped signals history)
    (hpaced : Paced config (IsExcused IsDropped) history) :
    after.Follows config IsDropped signals (attempts ++ history) ∧
      Paced config (IsExcused IsDropped) (attempts ++ history) := by
  cases h with
  | stay => exact ⟨hfollows, hpaced⟩
  | take batch =>
    have hfirst (hfailing : IsFailing batch history) : IsExcused IsDropped signals :=
      Or.inl ((hsteadfast batch hfailing).resolve_left (List.cons_ne_nil _ _).symm)
    exact ⟨Or.inl ⟨rfl, hfirst⟩, hpaced⟩
  | leave | lower => exact ⟨trivial, hpaced⟩
  | land batch failures => exact ⟨trivial, hpaced.begin hfollows⟩
  | fail batch failures =>
    exact ⟨⟨signals.now, _, rfl, rfl⟩, .fail signals.now le_rfl (hpaced.begin hfollows)⟩
  | abandon batch failures hstopping =>
    exact ⟨trivial, .fail signals.now le_rfl (hpaced.begin hfollows)⟩
  | retry batch failures wake hwake =>
    obtain ⟨time, older, rfl, rfl⟩ := hfollows
    have hexcused : time + config.retryDelay failures ≤ signals.now ∨
        IsExcused IsDropped signals :=
      hwake.imp_right (Or.imp_right fun h ↦ ⟨hreleased h, h⟩)
    exact ⟨Or.inr ⟨time, older, rfl, hexcused⟩, hpaced⟩

end Worker

namespace RecoveryTask

variable {config : Config} {signals later : Flusher.Signals} {history : List (AttemptEvent Unit)}
  {task after : RecoveryTask} {attempts : List (AttemptEvent Unit)}

/-- Where the recovery task stands goes with its attempts. -/
def Follows (config : Config) (signals : Flusher.Signals) (history : List (AttemptEvent Unit)) :
    RecoveryTask → Prop
  | checking failures => Waited config history () failures signals.now (signals.isStopping = true)
  | awaitingFlusher failures | clearing failures =>
    Waited config history () failures signals.now False
  | readingCheckpoint failures | readingLog failures _ =>
    ∃ began older, history = .began () failures began :: older ∧ began.now ≤ signals.now
  | backingOff failures wake => ∃ time older, history = .failed () failures time :: older ∧
    time + config.retryDelay failures = wake
  | installing _ => ¬ IsFailing () history
  | absent => True

theorem Follows.mono (h : task.Follows config signals history)
    (hnow : signals.now ≤ later.now)
    (hstopping : signals.isStopping = true → later.isStopping = true) :
    task.Follows config later history := by
  cases task with
  | checking failures => exact Waited.mono h hnow hstopping
  | awaitingFlusher failures | clearing failures => exact Waited.mono h hnow id
  | readingCheckpoint failures | readingLog failures =>
    obtain ⟨began, older, rfl, hbegan⟩ := h
    exact ⟨began, older, rfl, hbegan.trans hnow⟩
  | _ => exact h

theorem Turn.follows (h : Turn config signals task after attempts)
    (hfollows : task.Follows config signals history)
    (hpaced : Paced config (fun _ ↦ False) history) :
    after.Follows config signals (attempts ++ history) ∧
      Paced config (fun _ ↦ False) (attempts ++ history) := by
  cases h with
  | stay => exact ⟨hfollows, hpaced⟩
  | stop | install => exact ⟨trivial, hpaced⟩
  | goOn failures hgoing =>
    -- A shutdown is no excuse any more once the task has seen that there is none.
    refine ⟨Waited.mono hfollows le_rfl fun hstopping ↦ ?_, hpaced⟩
    exact Bool.false_ne_true (hgoing.symm.trans hstopping)
  | leave failures hstopping => exact ⟨Waited.mono hfollows le_rfl False.elim, hpaced⟩
  | attempt failures => exact ⟨hfollows, hpaced⟩
  | clear failures => exact ⟨⟨signals, history, rfl, le_rfl⟩, hpaced.begin hfollows⟩
  | read failures checkpoint => exact ⟨hfollows, hpaced⟩
  | rebuild failures checkpoint counters =>
    obtain ⟨began, older, rfl, -⟩ := hfollows
    exact ⟨fun hfailing ↦ hfailing.1 rfl, hpaced⟩
  | failCheckpoint failures | failLog failures =>
    obtain ⟨began, older, rfl, hbegan⟩ := hfollows
    exact ⟨⟨signals.now, _, rfl, rfl⟩, .fail signals.now hbegan hpaced⟩
  | wake failures wake hwake =>
    obtain ⟨time, older, rfl, rfl⟩ := hfollows
    exact ⟨Or.inr ⟨time, older, rfl, hwake⟩, hpaced⟩

end RecoveryTask

end LogSequencing
