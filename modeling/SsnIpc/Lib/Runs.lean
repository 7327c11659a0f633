import Mathlib.Data.List.Basic
import Mathlib.Tactic.Common

/-!
# Runs of a step function

A run is a list of events fed to a step function. A safety property is one that holds in every
state the run goes through, and a condition on the steps is one that holds of every event in the
state it meets.

Invariants are proved once per step (`run_invariant`, `always_of_invariant`). When a property
can only be lost at a step that breaks a condition, and is lost at once there, the runs that
keep the property are exactly those whose steps all meet the condition (`always_iff_eachStep`).

Where steps also answer, two machines with related states that answer alike at every step answer
alike all along (`answers_eq_of_simulation`).
-/

namespace Runs

variable {σ ε : Type*} (step : σ → ε → σ)

/-- The state after a list of events. -/
def run (s : σ) (es : List ε) : σ := es.foldl step s

/-- `P` holds in every state of the run, the first and the last included. -/
def Always (P : σ → Prop) (s : σ) (es : List ε) : Prop :=
  ∀ pre, pre <+: es → P (run step s pre)

/-- Every event of the run meets `Ok` in the state it is taken in. -/
def EachStep (Ok : σ → ε → Prop) (s : σ) (es : List ε) : Prop :=
  ∀ pre e, pre ++ [e] <+: es → Ok (run step s pre) e

variable {step} {P Inv : σ → Prop} {Ok G : σ → ε → Prop} {s : σ} {e : ε} {es : List ε}

@[simp] theorem run_nil : run step s [] = s := rfl

@[simp] theorem run_cons : run step s (e :: es) = run step (step s e) es := rfl

theorem run_append {es' : List ε} : run step s (es ++ es') = run step (run step s es) es' :=
  List.foldl_append

theorem run_fixed (h : ∀ e ∈ es, step s e = s) : run step s es = s := by
  induction es with
  | nil => rfl
  | cons e es ih =>
    rw [List.forall_mem_cons] at h
    rw [run_cons, h.1, ih h.2]

@[simp] theorem always_nil : Always step P s [] ↔ P s := by
  simp [Always, List.prefix_nil]

theorem always_cons : Always step P s (e :: es) ↔ P s ∧ Always step P (step s e) es := by
  constructor
  · intro h
    exact ⟨h [] List.nil_prefix, fun pre hpre => h (e :: pre) (List.cons_prefix_cons.2 ⟨rfl, hpre⟩)⟩
  · rintro ⟨h0, h⟩ pre hpre
    cases pre with
    | nil => exact h0
    | cons e' pre =>
      obtain ⟨rfl, htail⟩ := List.cons_prefix_cons.1 hpre
      exact h pre htail

@[simp] theorem eachStep_nil : EachStep step Ok s [] := by
  intro pre e h
  simp at h

theorem eachStep_cons :
    EachStep step Ok s (e :: es) ↔ Ok s e ∧ EachStep step Ok (step s e) es := by
  constructor
  · intro h
    refine ⟨h [] e (by simp), fun pre e' hpre => h (e :: pre) e' ?_⟩
    exact List.cons_prefix_cons.2 ⟨rfl, hpre⟩
  · rintro ⟨h0, h⟩ pre e' hpre
    cases pre with
    | nil =>
      obtain ⟨rfl, -⟩ := List.cons_prefix_cons.1 hpre
      exact h0
    | cons a pre =>
      obtain ⟨rfl, htail⟩ := List.cons_prefix_cons.1 hpre
      exact h pre e' htail

theorem eachStep_append {es' : List ε} :
    EachStep step Ok s (es ++ es') ↔
      EachStep step Ok s es ∧ EachStep step Ok (run step s es) es' := by
  induction es generalizing s with
  | nil => simp
  | cons e es ih => rw [List.cons_append, eachStep_cons, eachStep_cons, ih, run_cons, and_assoc]

theorem eachStep_of_forall (h : ∀ e ∈ es, ∀ s, Ok s e) : EachStep step Ok s es := by
  intro pre e hpre
  exact h e (hpre.subset (List.mem_append_right pre List.mem_cons_self)) _

theorem eachStep_true : EachStep step (fun _ _ => True) s es := fun _ _ _ => trivial

/-- What every step keeps, a run keeps. -/
theorem run_invariant (hstep : ∀ s e, Inv s → Ok s e → Inv (step s e)) (h0 : Inv s)
    (hok : EachStep step Ok s es) : Inv (run step s es) := by
  induction es generalizing s with
  | nil => exact h0
  | cons e es ih =>
    obtain ⟨he, hes⟩ := eachStep_cons.1 hok
    exact ih (hstep s e h0 he) hes

/-- A property that follows from an invariant holds all along a run. -/
theorem always_of_invariant (hstep : ∀ s e, Inv s → Ok s e → Inv (step s e))
    (hP : ∀ s, Inv s → P s) (h0 : Inv s) (hok : EachStep step Ok s es) :
    Always step P s es := by
  induction es generalizing s with
  | nil => exact always_nil.2 (hP s h0)
  | cons e es ih =>
    obtain ⟨he, hes⟩ := eachStep_cons.1 hok
    exact always_cons.2 ⟨hP s h0, ih (hstep s e h0 he) hes⟩

/-- **Exact conditions.** If steps that meet `Ok` keep an invariant that gives `P`, and a step
that breaks `Ok` loses `P` at once, then a run keeps `P` exactly when all its steps meet `Ok`.
`G` is what is known of every step of the run. -/
theorem always_iff_eachStep (hstep : ∀ s e, Inv s → G s e → Ok s e → Inv (step s e))
    (hP : ∀ s, Inv s → P s) (hbad : ∀ s e, Inv s → G s e → ¬ Ok s e → ¬ P (step s e))
    (h0 : Inv s) (hG : EachStep step G s es) :
    Always step P s es ↔ EachStep step Ok s es := by
  induction es generalizing s with
  | nil => simp [hP s h0]
  | cons e es ih =>
    obtain ⟨hGe, hGes⟩ := eachStep_cons.1 hG
    rw [always_cons, eachStep_cons]
    by_cases hok : Ok s e
    · rw [ih (hstep s e h0 hGe hok) hGes]
      exact ⟨fun h => ⟨hok, h.2⟩, fun h => ⟨hP s h0, h.2⟩⟩
    · refine ⟨fun h => absurd ?_ (hbad s e h0 hGe hok), fun h => absurd h.1 hok⟩
      exact h.2 [] List.nil_prefix

/-! ## Answers -/

section Answers

variable {τ ρ : Type*}

/-- What the steps of a run answer. -/
def answers (step : σ → ε → σ × ρ) : σ → List ε → List ρ
  | _, [] => []
  | s, e :: es => (step s e).2 :: answers step (step s e).1 es

/-- Related states answer alike and stay related, where steps meet `Ok`. -/
theorem answers_eq_of_simulation {step : σ → ε → σ × ρ} {step' : τ → ε → τ × ρ} {R : σ → τ → Prop}
    (hsim : ∀ s t e, R s t → Ok s e →
      (step s e).2 = (step' t e).2 ∧ R (step s e).1 (step' t e).1)
    {t : τ} (h : R s t) (hok : EachStep (fun s e => (step s e).1) Ok s es) :
    answers step s es = answers step' t es := by
  induction es generalizing s t with
  | nil => rfl
  | cons e es ih =>
    obtain ⟨he, hes⟩ := eachStep_cons.1 hok
    obtain ⟨hans, hnext⟩ := hsim s t e h he
    rw [answers, answers, hans, ih hnext hes]

end Answers

end Runs
