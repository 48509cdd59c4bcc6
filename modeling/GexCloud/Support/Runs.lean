import Mathlib.Data.List.Basic
import Mathlib.Data.List.Forall2

/-! # Runs of labelled step relations

A system is given by a relation `step s a t`: from state `s` the action `a` leads to `t`. `Run step`
chains steps along a list of actions, and the file collects the rules by which a property of one step
becomes a property of every run:

* **`Run.invariant`**, **`Run.invariant_trace`** — what the start has and every step keeps, every
  reached state has; the second form also speaks about the actions performed so far.
* **`guarded G step`** — the steps taken where the condition `G` holds: a run of it is a run of
  `step` whose steps all meet the condition.
* **`Run.simulation`** — a relation that every step can follow is followed by every run.
* **`runOk`** — the run of a step *function* that can fail; `foldlM_eq_some_iff` is the bridge to
  `Run` of one that can be impossible. -/

universe u v w x

namespace Runs

variable {σ : Type u} {α : Type v} {τ : Type w} {ε : Type x}

/-- **A run**: performing the actions in order from the first state ends in the last one. -/
inductive Run (step : σ → α → σ → Prop) : σ → List α → σ → Prop
  | nil (s : σ) : Run step s [] s
  | cons {s t u : σ} {a : α} {as : List α} (head : step s a t) (tail : Run step t as u) :
      Run step s (a :: as) u

variable {step : σ → α → σ → Prop} {s t u : σ} {a : α} {as bs : List α}

/-- A run without actions stays where it is. -/
@[simp] theorem Run.nil_iff : Run step s [] t ↔ s = t := by
  constructor
  · rintro ⟨⟩; rfl
  · rintro rfl; exact .nil _

/-- A run splits at its first action. -/
theorem Run.cons_iff : Run step s (a :: as) u ↔ ∃ t, step s a t ∧ Run step t as u := by
  constructor
  · rintro ⟨⟩; exact ⟨_, ‹_›, ‹_›⟩
  · rintro ⟨t, head, tail⟩; exact .cons head tail

/-- Runs compose. -/
theorem Run.append (first : Run step s as t) (second : Run step t bs u) :
    Run step s (as ++ bs) u := by
  induction first with
  | nil => exact second
  | cons head _ ih => exact .cons head (ih second)

/-- A run of two lists of actions has a state between them. -/
theorem Run.append_iff :
    Run step s (as ++ bs) u ↔ ∃ t, Run step s as t ∧ Run step t bs u := by
  induction as generalizing s with
  | nil => simp
  | cons a as ih =>
    rw [List.cons_append, Run.cons_iff]
    constructor
    · rintro ⟨r, head, tail⟩
      obtain ⟨t, first, second⟩ := ih.mp tail
      exact ⟨t, .cons head first, second⟩
    · rintro ⟨t, first, second⟩
      obtain ⟨r, head, tail⟩ := Run.cons_iff.mp first
      exact ⟨r, head, ih.mpr ⟨t, tail, second⟩⟩

/-- **Invariant rule, with the actions.** A property of the performed actions and the state that
every step keeps is kept by every run. -/
theorem Run.invariant_trace (I : List α → σ → Prop)
    (keep : ∀ past s a t, I past s → step s a t → I (past ++ [a]) t)
    (h : Run step s as t) {past : List α} (start : I past s) : I (past ++ as) t := by
  induction h generalizing past with
  | nil => simpa using start
  | cons head _ ih => simpa using ih (keep past _ _ _ start head)

/-- **Invariant rule.** What holds of the first state and is kept by every step holds of the last. -/
theorem Run.invariant (I : σ → Prop) (keep : ∀ s a t, I s → step s a t → I t)
    (h : Run step s as t) (start : I s) : I t := by
  induction h with
  | nil => exact start
  | cons head _ ih => exact ih (keep _ _ _ start head)

/-- A run of one system is a run of every system with at least its steps. -/
theorem Run.mono {step' : σ → α → σ → Prop} (hstep : ∀ s a t, step s a t → step' s a t)
    (h : Run step s as t) : Run step' s as t := by
  induction h with
  | nil => exact .nil _
  | cons head _ ih => exact .cons (hstep _ _ _ head) ih

/-- The steps of a system that are taken where the condition `G` holds. -/
def guarded (G : σ → α → Prop) (step : σ → α → σ → Prop) : σ → α → σ → Prop :=
  fun s a t => G s a ∧ step s a t

/-- Meeting a condition can be forgotten: a guarded run is a run. -/
theorem Run.of_guarded {G : σ → α → Prop} (h : Run (guarded G step) s as t) : Run step s as t :=
  h.mono fun _ _ _ hstep => hstep.2

/-- **Simulation rule.** If every step from related states can be followed by a step of the other
system into related states, every run can be followed. -/
theorem Run.simulation {step' : τ → α → τ → Prop} (R : σ → τ → Prop)
    (follow : ∀ s a t s', R s s' → step s a t → ∃ t', step' s' a t' ∧ R t t')
    (h : Run step s as t) {s' : τ} (start : R s s') : ∃ t', Run step' s' as t' ∧ R t t' := by
  induction h generalizing s' with
  | nil => exact ⟨s', .nil s', start⟩
  | cons head _ ih =>
    obtain ⟨r', head', hr⟩ := follow _ _ _ _ start head
    obtain ⟨t', tail', ht⟩ := ih hr
    exact ⟨t', .cons head' tail', ht⟩

/-- A computation in `Except` followed by another succeeds iff both do. -/
theorem bind_eq_ok_iff {β γ : Type w} {m : Except ε β} {f : β → Except ε γ} {c : γ} :
    (m >>= f) = .ok c ↔ ∃ b, m = .ok b ∧ f b = .ok c := by
  cases m <;> simp [bind, Except.bind]

/-- A search in `Except` whose every element succeeds is the plain search. -/
theorem anyM_eq_ok {β : Type} {f : β → Except ε Bool} {g : β → Bool} {l : List β}
    (h : ∀ x ∈ l, f x = .ok (g x)) : l.anyM f = .ok (l.any g) := by
  induction l with
  | nil => rfl
  | cons x l ih =>
    have hl := ih fun y hy => h y (List.mem_cons_of_mem _ hy)
    simp only [List.anyM, h x List.mem_cons_self, hl, List.any_cons]
    cases g x <;> rfl

/-- A list of computations in `Except` goes through when each does, with their results. -/
theorem mapM_eq_ok_iff {β γ : Type w} {f : β → Except ε γ} {l : List β} {ys : List γ} :
    l.mapM f = .ok ys ↔ List.Forall₂ (fun x y => f x = .ok y) l ys := by
  induction l generalizing ys with
  | nil =>
    constructor
    · rintro ⟨⟩
      exact .nil
    · rintro ⟨⟩
      rfl
  | cons x l ih =>
    simp only [List.mapM_cons, bind_eq_ok_iff, ih]
    constructor
    · rintro ⟨y, hy, ys', hys, heq⟩
      obtain rfl : y :: ys' = ys := Except.ok.inj heq
      exact .cons hy hys
    · rintro (_ | ⟨hy, hys⟩)
      exact ⟨_, hy, _, hys, rfl⟩

/-- The run of a step function that can fail: the first failure ends it. -/
def runOk (step : σ → α → Except ε σ) : σ → List α → Except ε σ
  | s, [] => .ok s
  | s, a :: as => do
    let t ← step s a
    runOk step t as

/-- Folding a step function that can be impossible succeeds exactly along a run. -/
theorem foldlM_eq_some_iff {f : σ → α → Option σ} :
    as.foldlM f s = some t ↔ Run (fun s a t => f s a = some t) s as t := by
  induction as generalizing s with
  | nil => simp
  | cons a as ih => simp only [List.foldlM_cons, Option.bind_eq_bind, Option.bind_eq_some_iff, ih,
      Run.cons_iff]

/-- A run that can be computed, meets a condition and ends where `P` holds. -/
theorem exists_run_guarded (as : List α) {G : σ → α → Prop} [∀ s a, Decidable (G s a)]
    {f : σ → α → Option σ} {P : σ → Prop} [DecidablePred P]
    (h : (as.foldlM (fun s a => if G s a then f s a else none) s).any (fun t => decide (P t)) = true) :
    ∃ t, Run (guarded G fun s a t => f s a = some t) s as t ∧ P t := by
  obtain ⟨t, ht, hP⟩ := (Option.any_eq_true _ _).mp h
  refine ⟨t, (foldlM_eq_some_iff.mp ht).mono fun s a t hstep => ?_, of_decide_eq_true hP⟩
  by_cases hG : G s a
  · exact ⟨hG, by rwa [if_pos hG] at hstep⟩
  · rw [if_neg hG] at hstep
    cases hstep

end Runs
