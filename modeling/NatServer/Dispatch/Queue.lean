import NatServer.Lib.Runs
import Mathlib.Logic.Function.Basic
/-!
# The dispatch queue

A step is what a thread does between two points where another could come in:
taking the lock, a critical section up to giving it back, the start and the end
of an operation, a notification. A thread has given the lock back before it
starts the operation it took off the queue. Waiting threads may wake without a
notification.
-/

namespace NatServer

/-- Where a thread is in `dispatch_thread_handler`. -/
inductive Worker (Op : Type)
  /-- At the lock: at the start, after a wait, after an operation. -/
  | wants
  /-- Holds the lock and looks at `quit_` and `q_`. -/
  | inside
  /-- Blocked in `cv_.wait`, without the lock. -/
  | asleep
  /-- Has taken an operation off the queue and given the lock back. -/
  | took (op : Op)
  /-- In `op()`. -/
  | running (op : Op)
  | ended

/-- Who has `lock_`. -/
inductive Holder (ι Op : Type)
  | worker (i : ι)
  /-- A call of `dispatch`. -/
  | dispatch (op : Op)
  | destructor

/-- How far the destructor is. -/
inductive Destructor
  | idle
  | locked
  | notifying
  | joining
  | returned
  deriving DecidableEq

structure DispatchQueue (ι Op : Type) where
  threads : ι → Worker Op
  lock : Option (Holder ι Op)
  q : List Op
  quit : Bool
  /-- Calls that gave the lock back and are yet to `notify_one`. -/
  notifies : ℕ
  destructor : Destructor

inductive DispatchEvent (ι Op : Type)
  | lock (i : ι)
  | sleep (i : ι)
  | take (i : ι) (op : Op)
  | leave (i : ι)
  | start (i : ι) (op : Op)
  | finish (i : ι)
  | spurious (i : ι)
  | call (op : Op)
  | push (op : Op)
  | notifyOne (i : Option ι)
  | destroy
  | setQuit
  | notifyAll
  | joined

variable {ι Op : Type}

/-- The constructor starts the threads. -/
def DispatchQueue.start : DispatchQueue ι Op where
  threads := fun _ => .wants
  lock := none
  q := []
  quit := false
  notifies := 0
  destructor := .idle

/-- `notify_all` unblocks whoever waits. -/
def Worker.wake : Worker Op → Worker Op
  | .asleep => .wants
  | w => w

variable [DecidableEq ι]

namespace DispatchQueue

def setThread (s : DispatchQueue ι Op) (i : ι) (w : Worker Op) : DispatchQueue ι Op :=
  { s with threads := Function.update s.threads i w }

@[simp] theorem setThread_threads (s : DispatchQueue ι Op) (i : ι) (w : Worker Op) :
    (s.setThread i w).threads = Function.update s.threads i w := rfl
@[simp] theorem setThread_lock (s : DispatchQueue ι Op) (i : ι) (w : Worker Op) : (s.setThread i w).lock = s.lock := rfl
@[simp] theorem setThread_q (s : DispatchQueue ι Op) (i : ι) (w : Worker Op) : (s.setThread i w).q = s.q := rfl
@[simp] theorem setThread_quit (s : DispatchQueue ι Op) (i : ι) (w : Worker Op) : (s.setThread i w).quit = s.quit := rfl
@[simp] theorem setThread_notifies (s : DispatchQueue ι Op) (i : ι) (w : Worker Op) :
    (s.setThread i w).notifies = s.notifies := rfl
@[simp] theorem setThread_destructor (s : DispatchQueue ι Op) (i : ι) (w : Worker Op) :
    (s.setThread i w).destructor = s.destructor := rfl

end DispatchQueue

inductive DispatchStep : DispatchQueue ι Op → DispatchEvent ι Op → DispatchQueue ι Op → Prop
  | lock {s i} (hi : s.threads i = .wants) (hlock : s.lock = none) :
      DispatchStep s (.lock i) { s.setThread i .inside with lock := some (.worker i) }
  | sleep {s i} (hi : s.threads i = .inside) (hquit : s.quit = false) (hq : s.q = []) :
      DispatchStep s (.sleep i) { s.setThread i .asleep with lock := none }
  | take {s i op rest} (hi : s.threads i = .inside) (hquit : s.quit = false) (hq : s.q = op :: rest) :
      DispatchStep s (.take i op) { s.setThread i (.took op) with lock := none, q := rest }
  -- the loop ends also where there are operations left
  | leave {s i} (hi : s.threads i = .inside) (hquit : s.quit = true) :
      DispatchStep s (.leave i) { s.setThread i .ended with lock := none }
  | start {s i op} (hi : s.threads i = .took op) : DispatchStep s (.start i op) (s.setThread i (.running op))
  | finish {s i op} (hi : s.threads i = .running op) : DispatchStep s (.finish i) (s.setThread i .wants)
  | spurious {s i} (hi : s.threads i = .asleep) : DispatchStep s (.spurious i) (s.setThread i .wants)
  | call {s op} (hlock : s.lock = none) : DispatchStep s (.call op) { s with lock := some (.dispatch op) }
  | push {s op} (hlock : s.lock = some (.dispatch op)) :
      DispatchStep s (.push op) { s with lock := none, q := s.q ++ [op], notifies := s.notifies + 1 }
  | notifySome {s i n} (hn : s.notifies = n + 1) (hi : s.threads i = .asleep) :
      DispatchStep s (.notifyOne (some i)) { s.setThread i .wants with notifies := n }
  | notifyNone {s n} (hn : s.notifies = n + 1) (hi : ∀ i, s.threads i ≠ .asleep) :
      DispatchStep s (.notifyOne none) { s with notifies := n }
  | destroy {s} (hidle : s.destructor = .idle) (hlock : s.lock = none) :
      DispatchStep s .destroy { s with lock := some .destructor, destructor := .locked }
  | setQuit {s} (hlock : s.lock = some .destructor) :
      DispatchStep s .setQuit { s with lock := none, quit := true, destructor := .notifying }
  | notifyAll {s} (hd : s.destructor = .notifying) :
      DispatchStep s .notifyAll { s with threads := fun i => (s.threads i).wake, destructor := .joining }
  | joined {s} (hd : s.destructor = .joining) (hi : ∀ i, s.threads i = .ended) :
      DispatchStep s .joined { s with destructor := .returned }

/-! ## The order of operations -/

/-- The operation whose `dispatch` put it in the queue. -/
def DispatchEvent.pushed : DispatchEvent ι Op → Option Op
  | .push op => some op
  | _ => none

/-- The operation that is taken off the queue. -/
def DispatchEvent.taken : DispatchEvent ι Op → Option Op
  | .take _ op => some op
  | _ => none

/-- The operation that thread `i` takes off the queue. -/
def DispatchEvent.takenBy (i : ι) : DispatchEvent ι Op → Option Op
  | .take k op => if k = i then some op else none
  | _ => none

/-- The operation that thread `i` starts. -/
def DispatchEvent.startedBy (i : ι) : DispatchEvent ι Op → Option Op
  | .start k op => if k = i then some op else none
  | _ => none

/-- What a thread has taken and not started. -/
def Worker.held : Worker Op → Option Op
  | .took op => some op
  | _ => none

@[simp] theorem Worker.held_wake (w : Worker Op) : w.wake.held = w.held := by
  cases w <;> rfl

/-- A change of one thread that holds the same after it. -/
theorem Worker.held_update {t : ι → Worker Op} {k : ι} {w : Worker Op} (h : (t k).held = w.held) (i : ι) :
    (Function.update t k w i).held = (t i).held := by
  by_cases hik : i = k
  · subst hik
    rw [Function.update_self, h]
  · rw [Function.update_of_ne hik]

variable {s s' : DispatchQueue ι Op} {e : DispatchEvent ι Op} {es : List (DispatchEvent ι Op)}

theorem DispatchStep.queue_eq (h : DispatchStep s e s') : s.q ++ e.pushed.toList = e.taken.toList ++ s'.q := by
  cases h with
  | take hi hquit hq => simp [DispatchEvent.pushed, DispatchEvent.taken, hq]
  | _ => simp [DispatchEvent.pushed, DispatchEvent.taken]

/-- A thread that starts an operation held it, and one that takes an operation
held none. -/
theorem DispatchStep.held_eq (h : DispatchStep s e s') (i : ι) :
    (s.threads i).held.toList ++ (e.takenBy i).toList = (e.startedBy i).toList ++ (s'.threads i).held.toList := by
  cases h with
  | @take k op rest hi =>
    by_cases hik : i = k
    · subst hik
      simp [DispatchEvent.takenBy, DispatchEvent.startedBy, Worker.held, hi]
    · simp [DispatchEvent.takenBy, DispatchEvent.startedBy, hik, Ne.symm hik]
  | @start k op hi =>
    by_cases hik : i = k
    · subst hik
      simp [DispatchEvent.takenBy, DispatchEvent.startedBy, Worker.held, hi]
    · simp [DispatchEvent.takenBy, DispatchEvent.startedBy, hik, Ne.symm hik]
  | lock hi | sleep hi | leave hi | finish hi | spurious hi | notifySome _ hi =>
    simp only [DispatchEvent.takenBy, DispatchEvent.startedBy, DispatchQueue.setThread_threads]
    rw [Worker.held_update (by rw [hi]; rfl)]
    simp
  | _ => simp [DispatchEvent.takenBy, DispatchEvent.startedBy]

/-- What a label gives comes before what the others give. -/
theorem filterMap_cons_append {α β : Type} (f : α → Option β) (x : α) (l : List α) :
    (x :: l).filterMap f = (f x).toList ++ l.filterMap f := by
  rw [List.filterMap_cons]
  cases f x <;> rfl

/-- What was in the queue and was put there is what was taken off it, in order,
and what is left. -/
theorem queue_eq_of_run (h : Run DispatchStep s es s') :
    s.q ++ es.filterMap DispatchEvent.pushed = es.filterMap DispatchEvent.taken ++ s'.q := by
  induction h with
  | nil s => simp
  | cons hstep _ ih =>
    rw [filterMap_cons_append, filterMap_cons_append, ← List.append_assoc, hstep.queue_eq, List.append_assoc, ih,
      List.append_assoc]

/-- What a thread held and took is what it started, in order, and what it holds. -/
theorem held_eq_of_run (h : Run DispatchStep s es s') (i : ι) :
    (s.threads i).held.toList ++ es.filterMap (DispatchEvent.takenBy i) =
      es.filterMap (DispatchEvent.startedBy i) ++ (s'.threads i).held.toList := by
  induction h with
  | nil s => simp
  | cons hstep _ ih =>
    rw [filterMap_cons_append, filterMap_cons_append, ← List.append_assoc, hstep.held_eq i, List.append_assoc, ih,
      List.append_assoc]

/-- Operations are taken off the queue in the order they came, whichever
threads take them, and each thread starts those it took, once each and in that
order. Which of two threads starts first is open. -/
theorem taken_in_order (h : Run DispatchStep .start es s) :
    es.filterMap DispatchEvent.pushed = es.filterMap DispatchEvent.taken ++ s.q ∧
      ∀ i, es.filterMap (DispatchEvent.takenBy i) =
        es.filterMap (DispatchEvent.startedBy i) ++ (s.threads i).held.toList :=
  ⟨by simpa [DispatchQueue.start] using queue_eq_of_run h,
    fun i => by simpa [DispatchQueue.start, Worker.held] using held_eq_of_run h i⟩

/-- Thread 1 starts the second operation while thread 0 has the first in its hands. -/
theorem taken_in_order_overtaken :
    ∃ (es : List (DispatchEvent (Fin 2) ℕ)) (s : DispatchQueue (Fin 2) ℕ), Run DispatchStep .start es s ∧
      es.filterMap DispatchEvent.pushed = [7, 8] ∧ es.filterMap (DispatchEvent.startedBy 1) = [8] ∧
      es.filterMap (DispatchEvent.startedBy 0) = [] ∧ [7] = [] ++ (s.threads 0).held.toList := by
  have hrun : Run DispatchStep (.start : DispatchQueue (Fin 2) ℕ) [.call 7, .push 7, .call 8, .push 8, .lock 0,
      .take 0 7, .lock 1, .take 1 8, .start 1 8] _ :=
    .cons (.call rfl) <| .cons (.push rfl) <| .cons (.call rfl) <| .cons (.push rfl) <| .cons (.lock rfl rfl) <|
      .cons (.take rfl rfl rfl) <| .cons (.lock rfl rfl) <| .cons (.take rfl rfl rfl) <| .single (.start rfl)
  exact ⟨_, _, hrun, rfl, rfl, rfl, (taken_in_order hrun).2 0⟩

end NatServer
