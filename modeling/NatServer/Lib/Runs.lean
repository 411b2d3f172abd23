import Mathlib.Algebra.GroupWithZero.Nat
import Mathlib.Order.WellFounded
/-!
# Runs of a labelled step relation

A `Run` is a finite sequence of steps with the labels taken, in order. The
rules: an invariant of each step holds after a run (`Run.invariant`), a
condition on every step makes a run of the smaller relation (`Restrict`,
`Into`, `Run.into_iff`), steps that pay for their work out of a potential bound
it (`Run.amortized`), a run can be seen through a part of the state
(`Run.project`), and steps that descend in a well founded order do not go
on for ever (`no_infinite`).
-/

variable {σ ℓ : Type}

inductive Run (step : σ → ℓ → σ → Prop) : σ → List ℓ → σ → Prop
  | nil (s : σ) : Run step s [] s
  | cons {s s₁ s₂ : σ} {e : ℓ} {es : List ℓ} : step s e s₁ → Run step s₁ es s₂ → Run step s (e :: es) s₂

/-- The steps whose label is allowed in the state they are taken from. -/
def Restrict (step : σ → ℓ → σ → Prop) (allowed : σ → ℓ → Prop) (s : σ) (e : ℓ) (s' : σ) : Prop :=
  step s e s' ∧ allowed s e

/-- The steps that lead into `P`. -/
def Into (step : σ → ℓ → σ → Prop) (P : σ → Prop) (s : σ) (e : ℓ) (s' : σ) : Prop :=
  step s e s' ∧ P s'

namespace Run
variable {step step' : σ → ℓ → σ → Prop} {s s' s'' : σ} {e : ℓ} {es es' : List ℓ}

theorem single (h : step s e s') : Run step s [e] s' := .cons h (.nil s')

theorem append (h : Run step s es s') (h' : Run step s' es' s'') : Run step s (es ++ es') s'' := by
  induction h with
  | nil => exact h'
  | cons hs _ ih => exact .cons hs (ih h')

theorem snoc (h : Run step s es s') (hs : step s' e s'') : Run step s (es ++ [e]) s'' :=
  h.append (single hs)

theorem mono (hsub : ∀ {s e s'}, step s e s' → step' s e s') (h : Run step s es s') : Run step' s es s' := by
  induction h with
  | nil => exact .nil _
  | cons hs _ ih => exact .cons (hsub hs) ih

/-- What each step keeps holds after the run. -/
theorem invariant {I : σ → Prop} (hstep : ∀ {s e s'}, I s → step s e s' → I s') (h : Run step s es s') (h0 : I s) :
    I s' := by
  induction h with
  | nil => exact h0
  | cons hs _ ih => exact ih (hstep h0 hs)

/-- A run stays in `P` exactly where its steps are allowed, if these are the
steps that keep `P`. -/
theorem into_iff {P : σ → Prop} {allowed : σ → ℓ → Prop}
    (hstep : ∀ {s e s'}, P s → step s e s' → (P s' ↔ allowed s e)) (h0 : P s) :
    Run (Into step P) s es s' ↔ Run (Restrict step allowed) s es s' := by
  constructor
  · intro h
    induction h with
    | nil => exact .nil _
    | cons hs _ ih => exact .cons ⟨hs.1, (hstep h0 hs.1).1 hs.2⟩ (ih hs.2)
  · intro h
    induction h with
    | nil => exact .nil _
    | cons hs _ ih =>
      have hP := (hstep h0 hs.1).2 hs.2
      exact .cons ⟨hs.1, hP⟩ (ih hP)

/-- A property of states is carried along a run by the labels taken. -/
theorem invariant_of_mem {I : σ → Prop} (h : Run step s es s')
    (hstep : ∀ {s e s'}, e ∈ es → I s → step s e s' → I s') (h0 : I s) : I s' := by
  induction h with
  | nil => exact h0
  | cons hs _ ih =>
    exact ih (fun he => hstep (List.mem_cons_of_mem _ he)) (hstep List.mem_cons_self h0 hs)

/-- Each step of a run is taken from a state with what the steps keep. -/
theorem exists_step {I : σ → Prop} (h : Run step s es s')
    (hstep : ∀ {s e s'}, e ∈ es → I s → step s e s' → I s') (h0 : I s) (he : e ∈ es) :
    ∃ s₁ s₂, I s₁ ∧ step s₁ e s₂ := by
  induction h with
  | nil => cases he
  | cons hs _ ih =>
    rcases List.mem_cons.1 he with rfl | he
    · exact ⟨_, _, h0, hs⟩
    · exact ih (fun he => hstep (List.mem_cons_of_mem _ he)) (hstep List.mem_cons_self h0 hs) he

/-- A run seen through a part of the state: the steps with a label there are
steps of the part, the others leave it alone. -/
theorem project {τ ℓ' : Type} {part : τ → ℓ' → τ → Prop} (view : σ → τ) (label : ℓ → Option ℓ') (h : Run step s es s')
    (htouch : ∀ {s e s' e'}, e ∈ es → step s e s' → label e = some e' → part (view s) e' (view s'))
    (hskip : ∀ {s e s'}, e ∈ es → step s e s' → label e = none → view s' = view s) :
    Run part (view s) (es.filterMap label) (view s') := by
  induction h with
  | nil => exact .nil _
  | @cons s s₁ s' e es hs _ ih =>
    have hrest := ih (fun he => htouch (List.mem_cons_of_mem _ he)) fun he => hskip (List.mem_cons_of_mem _ he)
    cases hlabel : label e with
    | none =>
      rw [List.filterMap_cons_none hlabel, ← hskip List.mem_cons_self hs hlabel]
      exact hrest
    | some e' =>
      rw [List.filterMap_cons_some hlabel]
      exact .cons (htouch List.mem_cons_self hs hlabel) hrest

/-- Steps with one outcome make runs with one outcome. -/
theorem functional (hstep : ∀ {s e s₁ s₂}, step s e s₁ → step s e s₂ → s₁ = s₂) (h : Run step s es s')
    (h' : Run step s es s'') : s' = s'' := by
  induction h with
  | nil =>
    cases h'
    rfl
  | cons hs _ ih =>
    cases h' with
    | cons hs' hrest =>
      obtain rfl := hstep hs hs'
      exact ih hrest

/-- Where each step pays for its work out of a potential and what comes in with
its label, so does a run. -/
theorem amortized {I : σ → Prop} {potential : σ → ℕ} {work income : ℓ → ℕ}
    (hinv : ∀ {s e s'}, I s → step s e s' → I s')
    (hstep : ∀ {s e s'}, I s → step s e s' → potential s' + work e ≤ potential s + income e)
    (h : Run step s es s') (h0 : I s) :
    potential s' + (es.map work).sum ≤ potential s + (es.map income).sum := by
  induction h with
  | nil => simp
  | cons hs _ ih =>
    have hone := hstep h0 hs
    have hrest := ih (hinv h0 hs)
    simp only [List.map_cons, List.sum_cons]
    omega

end Run

/-- Steps that descend in a well founded order end. -/
theorem no_infinite {α : Type} {r : α → α → Prop} {next : σ → σ → Prop} (measure : σ → α) (hr : WellFounded r)
    (hnext : ∀ {s s'}, next s s' → r (measure s') (measure s)) : ¬ ∃ f : ℕ → σ, ∀ n, next (f n) (f (n + 1)) := by
  rintro ⟨f, hf⟩
  exact (wellFounded_iff_isEmpty_descending_chain.1 hr).false ⟨fun n => measure (f n), fun n => hnext (hf n)⟩
