import NatServer.Dispatch.Queue
import NatServer.Lib.Tally
/-!
# What the dispatch queue never does

`Locked`, `Quitting` and `Working` hold in every state that a run reaches.
`Working` is what makes waiting safe: a thread sleeps on a queue that is not
empty only while enough others are about to look at it.
-/

namespace NatServer

open Pool

variable {ι Op : Type} [DecidableEq ι]

@[simp] theorem Worker.wake_ne_asleep (w : Worker Op) : w.wake ≠ .asleep := by
  cases w <;> simp [Worker.wake]

@[simp] theorem Worker.wake_eq_inside {w : Worker Op} : w.wake = .inside ↔ w = .inside := by
  cases w <;> simp [Worker.wake]

@[simp] theorem Worker.wake_eq_ended {w : Worker Op} : w.wake = .ended ↔ w = .ended := by
  cases w <;> simp [Worker.wake]

namespace DispatchQueue

/-- The one inside holds the lock. -/
structure Locked (s : DispatchQueue ι Op) : Prop where
  worker : ∀ i, s.threads i = .inside ↔ s.lock = some (.worker i)
  destructor : s.lock = some .destructor ↔ s.destructor = .locked

structure Quitting (s : DispatchQueue ι Op) : Prop where
  quit : s.quit = true ↔ s.destructor = .notifying ∨ s.destructor = .joining ∨ s.destructor = .returned
  ended : ∀ i, s.threads i = .ended → s.quit = true
  woken : s.destructor = .joining ∨ s.destructor = .returned → ∀ i, s.threads i ≠ .asleep
  returned : s.destructor = .returned → ∀ i, s.threads i = .ended

end DispatchQueue

/-- Whether the thread will look at the queue before it sleeps or runs. -/
def Worker.awake : Worker Op → ℕ
  | .wants | .inside => 1
  | .asleep | .took _ | .running _ | .ended => 0

namespace DispatchQueue

def Working [Fintype ι] (s : DispatchQueue ι Op) : Prop :=
  s.quit = false → ∀ i, s.threads i = .asleep → s.q.length ≤ s.notifies + tally Worker.awake s.threads

variable {s s' : DispatchQueue ι Op} {e : DispatchEvent ι Op} {es : List (DispatchEvent ι Op)}

/-! ## One step -/

theorem Locked.of_inside {i : ι} {w : Worker Op} (hs : s.Locked) (hi : s.threads i = .inside) (hw : w ≠ .inside)
    (hthreads : s'.threads = Function.update s.threads i w) (hlock : s'.lock = none)
    (hd : s'.destructor = s.destructor) : s'.Locked := by
  have hholder := (hs.worker i).1 hi
  refine ⟨fun j => ?_, ?_⟩
  · by_cases hj : j = i
    · subst hj
      simp [hthreads, hlock, hw]
    · have hout : s.threads j ≠ .inside := fun h => by
        have := (hs.worker j).1 h
        simp_all
      simp [hthreads, hlock, hj, hout]
  · have hd' : s.destructor ≠ .locked := fun h => by simp [hs.destructor.2 h] at hholder
    simp [hlock, hd, hd']

theorem Locked.of_outside {i : ι} {w : Worker Op} (hs : s.Locked) (hi : s.threads i ≠ .inside) (hw : w ≠ .inside)
    (hthreads : s'.threads = Function.update s.threads i w) (hlock : s'.lock = s.lock)
    (hd : s'.destructor = s.destructor) : s'.Locked := by
  refine ⟨fun j => ?_, ?_⟩
  · rw [hlock, ← hs.worker j, hthreads]
    by_cases hj : j = i
    · subst hj
      simp [hw, hi]
    · simp [hj]
  · rw [hlock, hd, hs.destructor]

theorem Locked.step (hs : s.Locked) (h : DispatchStep s e s') : s'.Locked := by
  have hworker := hs.worker
  have hdestructor := hs.destructor
  cases h with
  | @lock i hi hlock =>
    refine ⟨fun j => ?_, by simpa [hlock] using hdestructor⟩
    by_cases hj : j = i
    · simp [hj]
    · have hout : s.threads j ≠ .inside := fun h => by simpa [hlock] using (hworker j).1 h
      simp [hj, hout, Ne.symm hj]
  | sleep hi hquit hq => exact hs.of_inside hi (by simp) rfl rfl rfl
  | take hi hquit hq => exact hs.of_inside hi (by simp) rfl rfl rfl
  | leave hi hquit => exact hs.of_inside hi (by simp) rfl rfl rfl
  | start hi => exact hs.of_outside (by simp [hi]) (by simp) rfl rfl rfl
  | finish hi => exact hs.of_outside (by simp [hi]) (by simp) rfl rfl rfl
  | spurious hi => exact hs.of_outside (by simp [hi]) (by simp) rfl rfl rfl
  | notifySome hn hi => exact hs.of_outside (by simp [hi]) (by simp) rfl rfl rfl
  | notifyNone hn hi => exact ⟨hworker, hdestructor⟩
  | notifyAll hd => exact ⟨by simpa using hworker, by simpa [hd] using hdestructor⟩
  | joined hd hi => exact ⟨hworker, by simpa [hd] using hdestructor⟩
  | _ => exact ⟨by simp_all, by simp_all⟩

theorem Quitting.of_thread {i : ι} {w : Worker Op} (hs : s.Quitting) (hi : s.threads i ≠ .ended)
    (hend : w = .ended → s.quit = true) (hsleep : w = .asleep → s.quit = false)
    (hthreads : s'.threads = Function.update s.threads i w) (hquit : s'.quit = s.quit)
    (hd : s'.destructor = s.destructor) : s'.Quitting := by
  refine ⟨by rw [hquit, hd, hs.quit], fun j hj => ?_, fun hjoin j => ?_, fun hret => ?_⟩
  · rw [hquit]
    by_cases hji : j = i
    · subst hji
      exact hend (by simpa [hthreads] using hj)
    · exact hs.ended j (by simpa [hthreads, hji] using hj)
  · rw [hd] at hjoin
    by_cases hji : j = i
    · subst hji
      have hset : s.quit = true := hs.quit.2 (.inr hjoin)
      intro hasleep
      have hw : w = .asleep := by simpa [hthreads] using hasleep
      simp [hsleep hw] at hset
    · simpa [hthreads, hji] using hs.woken hjoin j
  · exact absurd (hs.returned (hd ▸ hret) i) hi

theorem Quitting.step (hs : s.Quitting) (h : DispatchStep s e s') : s'.Quitting := by
  cases h with
  | lock hi hlock => exact hs.of_thread (by simp [hi]) (by simp) (by simp) rfl rfl rfl
  | sleep hi hquit hq => exact hs.of_thread (by simp [hi]) (by simp) (fun _ => hquit) rfl rfl rfl
  | take hi hquit hq => exact hs.of_thread (by simp [hi]) (by simp) (by simp) rfl rfl rfl
  | leave hi hquit => exact hs.of_thread (by simp [hi]) (fun _ => hquit) (by simp) rfl rfl rfl
  | start hi => exact hs.of_thread (by simp [hi]) (by simp) (by simp) rfl rfl rfl
  | finish hi => exact hs.of_thread (by simp [hi]) (by simp) (by simp) rfl rfl rfl
  | spurious hi => exact hs.of_thread (by simp [hi]) (by simp) (by simp) rfl rfl rfl
  | notifySome hn hi => exact hs.of_thread (by simp [hi]) (by simp) (by simp) rfl rfl rfl
  | call hlock => exact ⟨hs.quit, hs.ended, hs.woken, hs.returned⟩
  | push hlock => exact ⟨hs.quit, hs.ended, hs.woken, hs.returned⟩
  | notifyNone hn hi => exact ⟨hs.quit, hs.ended, hs.woken, hs.returned⟩
  | destroy hidle hlock => exact ⟨by simpa [hidle] using hs.quit, hs.ended, by simp, by simp⟩
  | setQuit hlock => exact ⟨by simp, by simp, by simp, by simp⟩
  | notifyAll hd =>
    have hset := hs.quit.2 (.inl hd)
    exact ⟨by simp [hset], fun _ _ => hset, fun _ j => Worker.wake_ne_asleep _, by simp⟩
  | joined hd hi => exact ⟨by simpa [hd] using hs.quit, hs.ended, fun _ => hs.woken (.inl hd), fun _ => hi⟩

theorem Working.of_thread [Fintype ι] {i : ι} {w : Worker Op} (hs : s.Working) (hw : w ≠ .asleep)
    (hthreads : s'.threads = Function.update s.threads i w) (hquit : s'.quit = s.quit)
    (hq : s'.q.length + s.notifies + (s.threads i).awake ≤ s.q.length + s'.notifies + w.awake) : s'.Working := by
  intro hnot j hj
  have hji : j ≠ i := fun h => hw (by simpa [hthreads, h] using hj)
  have hwork := hs (hquit ▸ hnot) j (by simpa [hthreads, hji] using hj)
  have htally := tally_update Worker.awake s.threads i w
  rw [hthreads]
  omega

theorem Working.step [Fintype ι] (hs : s.Working) (h : DispatchStep s e s') : s'.Working := by
  cases h with
  | lock hi hlock => exact hs.of_thread (by simp) rfl rfl (by simp [hi, Worker.awake])
  | sleep hi hquit hq => exact fun _ _ _ => by simp [hq]
  | take hi hquit hq =>
    refine hs.of_thread (by simp) rfl rfl ?_
    simp only [hi, hq, Worker.awake, List.length_cons, setThread_notifies]
    omega
  | leave hi hquit => exact fun hnot => by simp_all
  | start hi => exact hs.of_thread (by simp) rfl rfl (by simp [hi, Worker.awake])
  | finish hi => exact hs.of_thread (by simp) rfl rfl (by simp [hi, Worker.awake])
  | spurious hi => exact hs.of_thread (by simp) rfl rfl (by simp [hi, Worker.awake])
  | notifySome hn hi => exact hs.of_thread (by simp) rfl rfl (by simp [hi, hn, Worker.awake]; omega)
  | call hlock => exact hs
  | push hlock =>
    intro hnot j hj
    have := hs hnot j hj
    simp only [List.length_append, List.length_singleton]
    omega
  | notifyNone hn hi => exact fun _ j hj => absurd hj (hi j)
  | destroy hidle hlock => exact hs
  | setQuit hlock => exact fun hnot => by simp at hnot
  | notifyAll hd => exact fun _ j hj => absurd hj (Worker.wake_ne_asleep _)
  | joined hd hi => exact fun _ j hj => by simp [hi j] at hj

/-! ## Every state reached -/

theorem locked_of_run (h : Run DispatchStep start es s) : s.Locked :=
  h.invariant Locked.step ⟨by simp [start], by simp [start]⟩

theorem quitting_of_run (h : Run DispatchStep start es s) : s.Quitting :=
  h.invariant Quitting.step ⟨by simp [start], by simp [start], by simp [start], by simp [start]⟩

theorem working_of_run [Fintype ι] (h : Run DispatchStep start es s) : s.Working :=
  h.invariant Working.step (by simp [Working, start])

/-- Who is between taking the lock and giving it back. -/
def Critical (s : DispatchQueue ι Op) : Holder ι Op → Prop
  | .worker i => s.threads i = .inside
  | .dispatch op => s.lock = some (.dispatch op)
  | .destructor => s.destructor = .locked

omit [DecidableEq ι] in
theorem Locked.critical_iff (hs : s.Locked) (a : Holder ι Op) : s.Critical a ↔ s.lock = some a := by
  cases a with
  | worker i => exact hs.worker i
  | dispatch op => exact .rfl
  | destructor => exact hs.destructor.symm

/-- There is never more than one in its critical section, and `q_` and `quit_`
change only at the end of one. -/
theorem exclusive (h : Run DispatchStep start es s) :
    (∀ a b, s.Critical a → s.Critical b → a = b) ∧
      ∀ e s', DispatchStep s e s' → s'.q ≠ s.q ∨ s'.quit ≠ s.quit → ∃ a, s.Critical a ∧ ∀ b, ¬ s'.Critical b := by
  have hs := locked_of_run h
  constructor
  · intro a b ha hb
    rw [hs.critical_iff] at ha hb
    exact Option.some_injective _ (ha.symm.trans hb)
  · intro e s' hstep hchange
    have hs' := hs.step hstep
    simp only [hs.critical_iff, hs'.critical_iff]
    cases hstep with
    | take hi hquit hq => exact ⟨_, (hs.worker _).1 hi, by simp⟩
    | push hlock => exact ⟨_, hlock, by simp⟩
    | setQuit hlock => exact ⟨_, hlock, by simp⟩
    | _ => simp at hchange

theorem exclusive_locked :
    ∃ s : DispatchQueue (Fin 2) ℕ, Run DispatchStep start [.lock 1] s ∧ s.Critical (.worker 1) ∧ ¬ s.Critical (.worker 0) := by
  have hrun : Run DispatchStep (start : DispatchQueue (Fin 2) ℕ) [.lock 1] _ := .single (.lock rfl rfl)
  exact ⟨_, hrun, rfl, fun h => by simpa using (exclusive hrun).1 (.worker 0) (.worker 1) h rfl⟩

/-- While a thread waits and there is no quit signal, every operation in the
queue has a notification on its way or a thread about to look. -/
theorem no_lost_wakeup [Fintype ι] {i : ι} (h : Run DispatchStep start es s) (hquit : s.quit = false)
    (hi : s.threads i = .asleep) : s.q.length ≤ s.notifies + tally Worker.awake s.threads :=
  working_of_run h hquit i hi

theorem no_lost_wakeup_pushed :
    ∃ s : DispatchQueue (Fin 1) ℕ, Run DispatchStep start [.lock 0, .sleep 0, .call 7, .push 7] s ∧ s.q = [7] ∧
      s.q.length ≤ s.notifies + tally Worker.awake s.threads := by
  have hrun : Run DispatchStep (start : DispatchQueue (Fin 1) ℕ) [.lock 0, .sleep 0, .call 7, .push 7] _ :=
    .cons (.lock rfl rfl) <| .cons (.sleep rfl rfl rfl) <| .cons (.call rfl) <| .single (.push rfl)
  exact ⟨_, hrun, rfl, no_lost_wakeup (i := 0) hrun rfl rfl⟩

end DispatchQueue

end NatServer
