import NatServer.Dispatch.Safety
/-!
# The dispatch queue makes progress

The threads and the calls in progress take only so many steps for each
`dispatch`, so they come to a stop by themselves; and they stop only where
there is nothing left to do. An operation that was started is supposed to end.
-/

namespace NatServer

open Pool

variable {ι Op : Type}

/-- Steps that whoever is to take them takes at some time. A call, the start of
the destructor and a wake-up without notification may never come. -/
def DispatchEvent.due : DispatchEvent ι Op → Bool
  | .call _ | .destroy | .spurious _ => false
  | _ => true

/-- A bound on the steps the thread has left before it sleeps or takes another
operation. -/
@[simp] def Worker.weight : Worker Op → ℕ
  | .took _ => 4
  | .running _ => 3
  | .wants => 2
  | .inside => 1
  | .asleep | .ended => 0

/-- The same for the destructor, which wakes `n` threads. -/
@[simp] def Destructor.weight (n : ℕ) : Destructor → ℕ
  | .locked => 2 * n + 3
  | .notifying => 2 * n + 2
  | .joining => 1
  | .idle | .returned => 0

@[simp] def Holder.weight : Holder ι Op → ℕ
  | .dispatch _ => 8
  | .worker _ | .destructor => 0

/-- What an event that is not due adds. -/
def DispatchEvent.income (n : ℕ) : DispatchEvent ι Op → ℕ
  | .call _ => 8
  | .spurious _ => 2
  | .destroy => 2 * n + 3
  | _ => 0

namespace DispatchQueue

def potential [Fintype ι] (s : DispatchQueue ι Op) : ℕ :=
  tally Worker.weight s.threads + 4 * s.q.length + 3 * s.notifies + (s.lock.map Holder.weight).getD 0 +
    s.destructor.weight (Fintype.card ι)

variable [DecidableEq ι] {s s' : DispatchQueue ι Op} {e : DispatchEvent ι Op} {es es' : List (DispatchEvent ι Op)}

theorem potential_step [Fintype ι] (hs : s.Locked) (h : DispatchStep s e s') :
    s'.potential + e.due.toNat ≤ s.potential + e.income (Fintype.card ι) := by
  have hthread (i : ι) (w : Worker Op) := tally_update Worker.weight s.threads i w
  unfold potential DispatchEvent.due DispatchEvent.income
  cases h with
  | @lock i hi hlock =>
    have := hthread i .inside
    simp [hi, hlock] at this ⊢
    omega
  | @sleep i hi hquit hq =>
    have := hthread i .asleep
    simp [hi, (hs.worker i).1 hi] at this ⊢
    omega
  | @take i op rest hi hquit hq =>
    have := hthread i (.took op)
    simp [hi, hq, (hs.worker i).1 hi] at this ⊢
    omega
  | @leave i hi hquit =>
    have := hthread i .ended
    simp [hi, (hs.worker i).1 hi] at this ⊢
    omega
  | @start i op hi =>
    have := hthread i (.running op)
    simp [hi] at this ⊢
    omega
  | @finish i op hi =>
    have := hthread i .wants
    simp [hi] at this ⊢
    omega
  | @spurious i hi =>
    have := hthread i .wants
    simp [hi] at this ⊢
    omega
  | call hlock => simp [hlock]; omega
  | push hlock => simp [hlock]; omega
  | @notifySome i n hn hi =>
    have := hthread i .wants
    simp [hi, hn] at this ⊢
    omega
  | notifyNone hn hi =>
    simp only [hn, Bool.toNat_true]
    omega
  | destroy hidle hlock => simp [hidle, hlock]
  | setQuit hlock =>
    simp only [hlock, hs.destructor.1 hlock, Destructor.weight, Holder.weight, Option.map_some, Option.map_none,
      Option.getD_some, Option.getD_none, Bool.toNat_true]
    omega
  | notifyAll hd =>
    have hwake (w : Worker Op) : w.wake.weight ≤ w.weight + 2 := by cases w <;> simp [Worker.wake]
    have := tally_le (fun i => hwake (s.threads i))
    simp [hd]
    omega
  | joined hd hi => simp [hd]

/-- In any run the steps that are due are bounded by what was dispatched: the
queue never spins. -/
theorem due_le [Fintype ι] (h : Run DispatchStep start es s) :
    es.countP DispatchEvent.due ≤ 2 * Fintype.card ι + (es.map (DispatchEvent.income (Fintype.card ι))).sum := by
  have hstart : (start : DispatchQueue ι Op).potential = 2 * Fintype.card ι := by
    simp [potential, start, tally, Nat.mul_comm]
  have hcount : (es.map fun e => e.due.toNat).sum = es.countP DispatchEvent.due := by
    clear h
    induction es with
    | nil => rfl
    | cons e es ih => cases hdue : e.due <;> simp [hdue, ih, Nat.add_comm]
  have hpaid : s.potential + (es.map fun e => e.due.toNat).sum ≤
      start.potential + (es.map (DispatchEvent.income (Fintype.card ι))).sum :=
    h.amortized (I := Locked) (fun hs hstep => hs.step hstep) (fun hs hstep => potential_step hs hstep)
      (locked_of_run (.nil _))
  rw [hcount, hstart] at hpaid
  omega

theorem due_le_called :
    ([.lock 0, .sleep 0, .call 7] : List (DispatchEvent (Fin 1) ℕ)).countP DispatchEvent.due ≤ 2 * 1 + 8 := by
  have hrun : Run DispatchStep (start : DispatchQueue (Fin 1) ℕ) [.lock 0, .sleep 0, .call 7] _ :=
    .cons (.lock rfl rfl) <| .cons (.sleep rfl rfl rfl) <| .single (.call rfl)
  exact due_le hrun

/-! ## Where it stops -/

/-- No step is due. -/
def Stuck (s : DispatchQueue ι Op) : Prop := ∀ e s', DispatchStep s e s' → e.due = false

theorem Stuck.not_due (h : s.Stuck) (hstep : DispatchStep s e s') : e.due ≠ true := by
  simp [h e s' hstep]

theorem Stuck.lock_eq_none (h : s.Stuck) (hs : s.Locked) : s.lock = none := by
  cases hlock : s.lock with
  | none => rfl
  | some a =>
    cases a with
    | worker i =>
      have hi := (hs.worker i).2 hlock
      cases hquit : s.quit with
      | true => exact (h.not_due (.leave hi hquit) rfl).elim
      | false =>
        cases hq : s.q with
        | nil => exact (h.not_due (.sleep hi hquit hq) rfl).elim
        | cons op rest => exact (h.not_due (.take hi hquit hq) rfl).elim
    | dispatch op => exact (h.not_due (.push hlock) rfl).elim
    | destructor => exact (h.not_due (.setQuit hlock) rfl).elim

theorem Stuck.asleep_or_ended (h : s.Stuck) (hs : s.Locked) (i : ι) : s.threads i = .asleep ∨ s.threads i = .ended := by
  have hlock := h.lock_eq_none hs
  cases hi : s.threads i with
  | wants => exact (h.not_due (.lock hi hlock) rfl).elim
  | inside => simp [(hs.worker i).1 hi] at hlock
  | asleep => exact .inl rfl
  | took op => exact (h.not_due (.start hi) rfl).elim
  | running op => exact (h.not_due (.finish hi) rfl).elim
  | ended => exact .inr rfl

theorem Stuck.notifies_eq_zero (h : s.Stuck) {i : ι} (hi : s.threads i = .asleep) : s.notifies = 0 := by
  cases hn : s.notifies with
  | zero => rfl
  | succ n => exact (h.not_due (.notifySome hn hi) rfl).elim

theorem stuck_of_asleep (hlock : s.lock = none) (hasleep : ∀ i, s.threads i = .asleep) (hn : s.notifies = 0)
    (hd : s.destructor = .idle) : s.Stuck := by
  intro e s' h
  cases h with
  | call | destroy | spurious => rfl
  | _ => simp_all

/-- With a thread and no quit signal, where it stops everything dispatched was
taken off the queue, in order, and each thread has started what it took. -/
theorem drained [Fintype ι] [Nonempty ι] (h : Run DispatchStep start es s) (hquit : s.quit = false) (hstuck : s.Stuck) :
    s.q = [] ∧ (∀ i, s.threads i = .asleep) ∧
      es.filterMap DispatchEvent.taken = es.filterMap DispatchEvent.pushed ∧
      ∀ i, es.filterMap (DispatchEvent.startedBy i) = es.filterMap (DispatchEvent.takenBy i) := by
  have hs := locked_of_run h
  have hasleep (i : ι) : s.threads i = .asleep := by
    rcases hstuck.asleep_or_ended hs i with hi | hi
    · exact hi
    · simp [(quitting_of_run h).ended i hi] at hquit
  have hq : s.q = [] := by
    obtain ⟨i⟩ := ‹Nonempty ι›
    have hwork := working_of_run h hquit i (hasleep i)
    have hnone : tally Worker.awake s.threads = 0 := tally_eq_zero (fun j => by simp [hasleep j, Worker.awake])
    rw [hstuck.notifies_eq_zero (hasleep i), hnone] at hwork
    exact List.length_eq_zero_iff.1 (Nat.le_zero.1 hwork)
  refine ⟨hq, hasleep, ?_, fun i => ?_⟩
  · simpa [start, hq] using (queue_eq_of_run h).symm
  · simpa [start, hasleep i, Worker.held] using (held_eq_of_run h i).symm

theorem drained_called :
    ∃ s : DispatchQueue (Fin 1) ℕ, Run DispatchStep start
      [.call 7, .push 7, .notifyOne none, .lock 0, .take 0 7, .start 0 7, .finish 0, .lock 0, .sleep 0] s ∧ s.q = [] := by
  have hrun : Run DispatchStep (start : DispatchQueue (Fin 1) ℕ)
      [.call 7, .push 7, .notifyOne none, .lock 0, .take 0 7, .start 0 7, .finish 0, .lock 0, .sleep 0] _ :=
    .cons (.call rfl) <| .cons (.push rfl) <| .cons (.notifyNone rfl (by simp [start])) <| .cons (.lock rfl rfl) <|
      .cons (.take rfl rfl rfl) <| .cons (.start rfl) <| .cons (.finish rfl) <| .cons (.lock rfl rfl) <|
      .single (.sleep rfl rfl rfl)
  have hdrained := drained hrun rfl (stuck_of_asleep rfl (fun i => by rw [Subsingleton.elim i 0]; rfl) rfl rfl)
  exact ⟨_, hrun, hdrained.1⟩

/-! ## The end -/

theorem quit_of_step (h : DispatchStep s e s') (hquit : s.quit = true) : s'.quit = true ∧ e.taken = none := by
  cases h with
  | take hi hnot hq => simp [hnot] at hquit
  | setQuit hlock => exact ⟨rfl, rfl⟩
  | _ => exact ⟨hquit, rfl⟩

omit [DecidableEq ι] in
theorem taken_of_takenBy [DecidableEq ι] {i : ι} {op : Op} (h : e.takenBy i = some op) : e.taken = some op := by
  cases e with
  | take k op' =>
    simp only [DispatchEvent.takenBy] at h
    split at h
    · exact h
    · cases h
  | _ => cases h

/-- After the quit signal no operation is taken off the queue: those still in
it and those dispatched since stay there. What a thread had taken before the
signal, and nothing else, it still starts. The threads end and the destructor
returns. -/
theorem shut_down (h : Run DispatchStep start es s) (hquit : s.quit = true) (h' : Run DispatchStep s es' s') :
    es'.filterMap DispatchEvent.taken = [] ∧ s'.q = s.q ++ es'.filterMap DispatchEvent.pushed ∧
      (∀ i, es'.filterMap (DispatchEvent.startedBy i) ++ (s'.threads i).held.toList = (s.threads i).held.toList) ∧
      (s'.Stuck → s'.destructor = .returned ∧ ∀ i, s'.threads i = .ended) := by
  have hkept : s'.quit = true ∧ es'.filterMap DispatchEvent.taken = [] := by
    clear h
    induction h' with
    | nil => exact ⟨hquit, rfl⟩
    | cons hstep _ ih =>
      obtain ⟨hquit', hnone⟩ := quit_of_step hstep hquit
      simpa [List.filterMap_cons, hnone] using ih hquit'
  have hrun := h.append h'
  have hs := locked_of_run hrun
  refine ⟨hkept.2, ?_, fun i => ?_, fun hstuck => ?_⟩
  · simpa [hkept.2] using (queue_eq_of_run h').symm
  · have hnone : es'.filterMap (DispatchEvent.takenBy i) = [] := by
      rw [List.filterMap_eq_nil_iff]
      intro e he
      by_contra hsome
      obtain ⟨op, hop⟩ := Option.ne_none_iff_exists'.1 hsome
      simpa [taken_of_takenBy hop] using List.filterMap_eq_nil_iff.1 hkept.2 e he
    simpa [hnone] using (held_eq_of_run h' i).symm
  · have hquitting := quitting_of_run hrun
    have hlate : s'.destructor = .joining ∨ s'.destructor = .returned := by
      rcases hquitting.quit.1 hkept.1 with hd | hd
      · exact (hstuck.not_due (.notifyAll hd) rfl).elim
      · exact hd
    have hended (i : ι) : s'.threads i = .ended :=
      (hstuck.asleep_or_ended hs i).resolve_left (hquitting.woken hlate i)
    refine ⟨?_, hended⟩
    rcases hlate with hd | hd
    · exact (hstuck.not_due (.joined hd hended) rfl).elim
    · exact hd

theorem shut_down_left :
    ∃ s s' : DispatchQueue (Fin 1) ℕ,
      Run DispatchStep start [.call 7, .push 7, .call 8, .push 8, .lock 0, .take 0 7, .destroy, .setQuit] s ∧
      Run DispatchStep s [.start 0 7, .finish 0, .lock 0, .leave 0] s' ∧ s'.q = [8] := by
  let s : DispatchQueue (Fin 1) ℕ :=
    ⟨Function.update (Function.update start.threads 0 .inside) 0 (.took 7), none, [8], true, 2, .notifying⟩
  have hrun : Run DispatchStep start [.call 7, .push 7, .call 8, .push 8, .lock 0, .take 0 7, .destroy, .setQuit] s :=
    .cons (.call rfl) <| .cons (.push rfl) <| .cons (.call rfl) <| .cons (.push rfl) <| .cons (.lock rfl rfl) <|
      .cons (.take rfl rfl rfl) <| .cons (.destroy rfl rfl) <| .single (.setQuit rfl)
  have hrun' : Run DispatchStep s [.start 0 7, .finish 0, .lock 0, .leave 0] _ :=
    .cons (.start rfl) <| .cons (.finish rfl) <| .cons (.lock rfl rfl) <| .single (.leave rfl rfl)
  exact ⟨_, _, hrun, hrun', (shut_down hrun rfl hrun').2.1⟩

end DispatchQueue

end NatServer
