import Mathlib.Tactic.Common
import Mathlib.Logic.Unique
/-!
# Computations with state, output and faults

A computation maps a state to a value or a fault, the state it leaves and what
it emitted. A fault keeps what happened before it. The rules: what a sequence
that completed did (`completes_bind`), and what is emitted by any run, faulting
or not (`Emits`).
-/

/-- What a computation did. -/
structure Ran (σ ω ε α : Type) where
  result : Except ε α
  state : σ
  out : List ω

def Effect (σ ω ε α : Type) : Type := σ → Ran σ ω ε α

namespace Effect
variable {σ ω ε α β : Type}

protected def pure (a : α) : Effect σ ω ε α := fun s => ⟨.ok a, s, []⟩

protected def bind (m : Effect σ ω ε α) (f : α → Effect σ ω ε β) : Effect σ ω ε β := fun s =>
  match m s with
  | ⟨.ok a, s', o⟩ => ⟨(f a s').result, (f a s').state, o ++ (f a s').out⟩
  | ⟨.error e, s', o⟩ => ⟨.error e, s', o⟩

instance : Monad (Effect σ ω ε) where
  pure := Effect.pure
  bind := Effect.bind

def readState : Effect σ ω ε σ := fun s => ⟨.ok s, s, []⟩

def modifyState (f : σ → σ) : Effect σ ω ε Unit := fun s => ⟨.ok (), f s, []⟩

def emit (o : ω) : Effect σ ω ε Unit := fun s => ⟨.ok (), s, [o]⟩

def fail (e : ε) : Effect σ ω ε α := fun s => ⟨.error e, s, []⟩

/-- The value, or the fault `e` where there is none. -/
def orFail (e : ε) : Option α → Effect σ ω ε α
  | some a => Effect.pure a
  | none => fail e

/-! ## Evaluation -/

section
variable (s : σ) (f : α → Effect σ ω ε β) (e : ε)

@[simp] theorem run_pure (a : α) : (pure a : Effect σ ω ε α) s = ⟨.ok a, s, []⟩ := rfl

@[simp] theorem run_fail : (fail e : Effect σ ω ε α) s = ⟨.error e, s, []⟩ := rfl

@[simp] theorem run_pure_bind (a : α) : (pure a >>= f) s = f a s := rfl

@[simp] theorem run_readState_bind (f : σ → Effect σ ω ε β) : (readState >>= f) s = f s s := rfl

@[simp] theorem run_modifyState_bind (g : σ → σ) (f : Unit → Effect σ ω ε β) :
    (modifyState g >>= f) s = f () (g s) := rfl

@[simp] theorem run_emit_bind (x : ω) (f : Unit → Effect σ ω ε β) :
    (emit x >>= f) s = { f () s with out := x :: (f () s).out } := rfl

@[simp] theorem orFail_some_bind (a : α) : orFail e (some a) >>= f = f a := rfl

@[simp] theorem orFail_none_bind : orFail e none >>= f = (fail e : Effect σ ω ε β) := rfl

theorem run_bind (m : Effect σ ω ε α) :
    (m >>= f) s = match m s with
      | ⟨.ok a, s', o⟩ => ⟨(f a s').result, (f a s').state, o ++ (f a s').out⟩
      | ⟨.error e, s', o⟩ => ⟨.error e, s', o⟩ := rfl

end

/-! ## Runs that complete -/

/-- `m` run from `s` ends with value `a` in state `s'` after emitting `o`. -/
def Completes (m : Effect σ ω ε α) (s : σ) (a : α) (s' : σ) (o : List ω) : Prop := m s = ⟨.ok a, s', o⟩

variable {m : Effect σ ω ε α} {f : α → Effect σ ω ε β} {s s' : σ} {o : List ω}

@[simp] theorem completes_pure {a b : α} :
    Completes (pure a : Effect σ ω ε α) s b s' o ↔ a = b ∧ s = s' ∧ o = [] := by
  simp [Completes, pure, Effect.pure, eq_comm]

theorem completes_bind {b : β} :
    Completes (m >>= f) s b s' o ↔
      ∃ a s₁ o₁ o₂, Completes m s a s₁ o₁ ∧ Completes (f a) s₁ b s' o₂ ∧ o = o₁ ++ o₂ := by
  simp only [Completes, bind, Effect.bind]
  rcases hm : m s with ⟨e | a, s₁, o₁⟩
  · simp
  · rcases hf : f a s₁ with ⟨r, s₂, o₂⟩
    constructor
    · intro h
      simp only [hf, Ran.mk.injEq] at h
      obtain ⟨rfl, rfl, rfl⟩ := h
      exact ⟨a, s₁, o₁, o₂, rfl, hf, rfl⟩
    · rintro ⟨a', s₁', o₁', o₂', h1, h2, rfl⟩
      cases h1
      rw [hf] at h2
      cases h2
      simp [hf]

@[simp] theorem completes_readState {a : σ} :
    Completes (readState : Effect σ ω ε σ) s a s' o ↔ a = s ∧ s = s' ∧ o = [] := by
  simp [Completes, readState, eq_comm]

@[simp] theorem completes_modifyState {g : σ → σ} {u : Unit} :
    Completes (modifyState g : Effect σ ω ε Unit) s u s' o ↔ s' = g s ∧ o = [] := by
  simp [Completes, modifyState, eq_comm]

@[simp] theorem completes_emit {x : ω} {u : Unit} :
    Completes (emit x : Effect σ ω ε Unit) s u s' o ↔ s = s' ∧ o = [x] := by
  simp [Completes, emit, eq_comm]

@[simp] theorem completes_fail {e : ε} {a : α} : ¬ Completes (fail e : Effect σ ω ε α) s a s' o := by
  simp [Completes, fail]

@[simp] theorem completes_orFail {e : ε} {x : Option α} {a : α} :
    Completes (orFail e x : Effect σ ω ε α) s a s' o ↔ x = some a ∧ s = s' ∧ o = [] := by
  cases x
  · simp [orFail]
  · simp [orFail, Completes, Effect.pure, eq_comm]

/-- A computation has one run from each state. -/
theorem Completes.unique {a b : α} {s₁ s₂ : σ} {o₁ o₂ : List ω} (h : Completes m s a s₁ o₁)
    (h' : Completes m s b s₂ o₂) : a = b ∧ s₁ = s₂ ∧ o₁ = o₂ := by
  have := h.symm.trans h'
  cases this
  exact ⟨rfl, rfl, rfl⟩

/-! Sequences that begin with one of the primitives. -/

@[simp] theorem completes_pure_bind {a : α} {b : β} :
    Completes (pure a >>= f) s b s' o ↔ Completes (f a) s b s' o := by
  simp [completes_bind]

@[simp] theorem completes_readState_bind {f : σ → Effect σ ω ε β} {b : β} :
    Completes (readState >>= f) s b s' o ↔ Completes (f s) s b s' o := by
  simp [completes_bind]

@[simp] theorem completes_modifyState_bind {g : σ → σ} {f : Unit → Effect σ ω ε β} {b : β} :
    Completes (modifyState g >>= f) s b s' o ↔ Completes (f ()) (g s) b s' o := by
  simp [completes_bind, Unique.exists_iff]

@[simp] theorem completes_emit_bind {x : ω} {f : Unit → Effect σ ω ε β} {b : β} :
    Completes (emit x >>= f) s b s' o ↔ ∃ o', Completes (f ()) s b s' o' ∧ o = x :: o' := by
  simp [completes_bind, Unique.exists_iff]

@[simp] theorem completes_orFail_bind {e : ε} {x : Option α} {b : β} :
    Completes (orFail e x >>= f) s b s' o ↔ ∃ a, x = some a ∧ Completes (f a) s b s' o := by
  simp [completes_bind]

@[simp] theorem completes_ite {c : Prop} [Decidable c] {m₁ m₂ : Effect σ ω ε α} {a : α} :
    Completes (if c then m₁ else m₂) s a s' o ↔ (c ∧ Completes m₁ s a s' o) ∨ (¬ c ∧ Completes m₂ s a s' o) := by
  split <;> simp [*]

/-! ## Everything emitted, also before a fault -/

/-- Whatever the state, all that `m` emits satisfies `P`. -/
def Emits (P : ω → Prop) (m : Effect σ ω ε α) : Prop := ∀ s, ∀ x ∈ (m s).out, P x

variable {P : ω → Prop}

theorem Emits.bind (hm : Emits P m) (hf : ∀ a, Emits P (f a)) : Emits P (m >>= f) := by
  intro s x hx
  simp only [Bind.bind, Effect.bind] at hx
  have h := hm s
  rcases hs : m s with ⟨e | a, s₁, o₁⟩ <;> simp only [hs] at hx h
  · exact h x hx
  · exact (List.mem_append.1 hx).elim (h x) (hf a s₁ x)

theorem Emits.pure (a : α) : Emits P (pure a : Effect σ ω ε α) := by
  intro s x hx; cases hx

theorem Emits.readState : Emits P (readState : Effect σ ω ε σ) := by
  intro s x hx; cases hx

theorem Emits.modifyState (g : σ → σ) : Emits P (modifyState g : Effect σ ω ε Unit) := by
  intro s x hx; cases hx

theorem Emits.emit {x : ω} (h : P x) : Emits P (emit x : Effect σ ω ε Unit) := by
  intro s y hy
  rw [List.mem_singleton.1 hy]
  exact h

theorem Emits.fail (e : ε) : Emits P (fail e : Effect σ ω ε α) := by
  intro s x hx; cases hx

theorem Emits.orFail (e : ε) (x : Option α) : Emits P (orFail e x : Effect σ ω ε α) := by
  intro s y hy
  cases x <;> cases hy

theorem Emits.orFail_bind {e : ε} {x : Option α} (h : ∀ a, x = some a → Emits P (f a)) :
    Emits P (Effect.orFail e x >>= f) := by
  cases x with
  | none => exact Emits.fail e
  | some a => exact h a rfl

theorem Emits.ite {c : Prop} [Decidable c] {m₁ m₂ : Effect σ ω ε α} (h₁ : c → Emits P m₁) (h₂ : ¬ c → Emits P m₂) :
    Emits P (if c then m₁ else m₂) := by
  split
  · exact h₁ ‹_›
  · exact h₂ ‹_›

theorem Emits.mono {Q : ω → Prop} (h : Emits P m) (hPQ : ∀ x, P x → Q x) : Emits Q m :=
  fun s x hx => hPQ x (h s x hx)

end Effect
