import GexCloud.Support.Runs
import Mathlib.Data.Fintype.Basic
import Mathlib.Data.Finset.Card
import Mathlib.Logic.Function.Basic
import Mathlib.Logic.Relation

/-! # Workers that share a state

A pool of workers, each with a phase of its own, all of them acting on one shared state. The program
`prog i` says what worker `i` does next in a phase, if anything; a run of the pool takes the steps of
the workers in any order.

* **`Pool.Step`** — one step of one worker; the other phases stay (`Pool.Step.phase_ne`).
* **`Solo`** — the steps of one worker alone, and `Solo.run`, which performs them in a pool.
* **`exists_run_performed`** — a schedule that can be computed is a run.
* **`Pool.count`** — how many workers are in a kind of phase, and how a step changes the number.
* **`exists_run_each`** — workers that can finish alone from any shared state finish in a pool, one
  after the other. -/

universe u v w

namespace Runs

variable {ι : Type u} {φ : Type v} {σ : Type w}

/-- A pool: the shared state and the phase of every worker. -/
@[ext] structure Pool (ι : Type u) (φ : Type v) (σ : Type w) where
  shared : σ
  phase : ι → φ

variable [DecidableEq ι] {prog : ι → φ → σ → Option (φ × σ)}

/-- One step of the pool, taken by worker `i`. -/
def Pool.Step (prog : ι → φ → σ → Option (φ × σ)) (p : Pool ι φ σ) (i : ι) (q : Pool ι φ σ) : Prop :=
  prog i (p.phase i) p.shared = some (q.phase i, q.shared) ∧
    q.phase = Function.update p.phase i (q.phase i)

/-- A worker that can act does so in the pool. -/
theorem Pool.Step.intro {p : Pool ι φ σ} {i : ι} {ph : φ} {s : σ}
    (h : prog i (p.phase i) p.shared = some (ph, s)) :
    Pool.Step prog p i ⟨s, Function.update p.phase i ph⟩ :=
  ⟨by simpa using h, by simp⟩

/-- A worker's step leaves the phases of the others. -/
theorem Pool.Step.phase_ne {p q : Pool ι φ σ} {i j : ι} (h : Pool.Step prog p i q) (hj : j ≠ i) :
    q.phase j = p.phase j := by
  rw [h.2, Function.update_of_ne hj]

/-- The pool after a step of worker `i`, if that worker can act. -/
def Pool.perform (prog : ι → φ → σ → Option (φ × σ)) (p : Pool ι φ σ) (i : ι) :
    Option (Pool ι φ σ) :=
  (prog i (p.phase i) p.shared).map fun x => ⟨x.2, Function.update p.phase i x.1⟩

/-- What `perform` finds is a step. -/
theorem Pool.Step.of_perform {p q : Pool ι φ σ} {i : ι} (h : Pool.perform prog p i = some q) :
    Pool.Step prog p i q := by
  obtain ⟨x, hx, rfl⟩ := Option.map_eq_some_iff.mp h
  exact .intro hx

/-- A schedule that can be performed and ends where `P` holds. -/
theorem exists_run_performed (as : List ι) {p : Pool ι φ σ} {P : Pool ι φ σ → Prop}
    [DecidablePred P] (h : (as.foldlM (Pool.perform prog) p).any (fun q => decide (P q)) = true) :
    ∃ q, Run (Pool.Step prog) p as q ∧ P q := by
  obtain ⟨q, hq, hP⟩ := (Option.any_eq_true _ _).mp h
  exact ⟨q, (foldlM_eq_some_iff.mp hq).mono fun _ _ _ => Pool.Step.of_perform, of_decide_eq_true hP⟩

/-- The steps of worker `i` alone. -/
def Solo (prog : ι → φ → σ → Option (φ × σ)) (i : ι) : φ × σ → φ × σ → Prop :=
  Relation.ReflTransGen fun x y => prog i x.1 x.2 = some y

instance {i : ι} : Trans (Solo prog i) (Solo prog i) (Solo prog i) := ⟨Relation.ReflTransGen.trans⟩

/-- What a worker can do alone it can do in a pool, the others waiting. -/
theorem Solo.run {i : ι} {x y : φ × σ} (h : Solo prog i x y) {p : Pool ι φ σ}
    (hp : (p.phase i, p.shared) = x) :
    ∃ as, Run (Pool.Step prog) p as ⟨y.2, Function.update p.phase i y.1⟩ := by
  induction h using Relation.ReflTransGen.head_induction_on generalizing p with
  | refl =>
    obtain rfl := hp
    exact ⟨[], by simp⟩
  | @head x z hxz _ ih =>
    obtain rfl := hp
    obtain ⟨as, hrun⟩ := ih (p := ⟨z.2, Function.update p.phase i z.1⟩) (by simp)
    exact ⟨i :: as, .cons (.intro hxz) (by simpa using hrun)⟩

/-- A run can be continued by what one worker can do alone. -/
theorem Solo.extend {i : ι} {x y : φ × σ} (h : Solo prog i x y) {p q : Pool ι φ σ} {as : List ι}
    (hrun : Run (Pool.Step prog) p as q) (hphase : q.phase i = x.1) (hshared : q.shared = x.2) :
    ∃ bs r, Run (Pool.Step prog) p bs r ∧ r.shared = y.2 ∧ r.phase i = y.1 ∧
      ∀ j, j ≠ i → r.phase j = q.phase j := by
  obtain ⟨bs, hrest⟩ := h.run (Prod.ext hphase hshared)
  exact ⟨as ++ bs, _, hrun.append hrest, rfl, Function.update_self ..,
    fun j hj => Function.update_of_ne hj ..⟩

/-- **Finishing one after the other.** If each worker of a list can go alone from `start` to `finish`
from every shared state with `Q`, and keeps `Q`, then some run takes all of them there. -/
theorem exists_run_each {start finish : φ} {Q : σ → Prop} {todo : List ι}
    (hsolo : ∀ i ∈ todo, ∀ s, Q s → ∃ t, Solo prog i (start, s) (finish, t) ∧ Q t)
    (hnodup : todo.Nodup) {p : Pool ι φ σ} (hstart : ∀ i ∈ todo, p.phase i = start)
    (hQ : Q p.shared) :
    ∃ as q, Run (Pool.Step prog) p as q ∧ Q q.shared ∧
      ∀ i, q.phase i = if i ∈ todo then finish else p.phase i := by
  induction todo generalizing p with
  | nil => exact ⟨[], p, .nil p, hQ, by simp⟩
  | cons i todo ih =>
    rw [List.nodup_cons] at hnodup
    obtain ⟨t, ht, hQt⟩ := hsolo i List.mem_cons_self p.shared hQ
    obtain ⟨as, hrun⟩ := ht.run (p := p) (by rw [hstart i List.mem_cons_self])
    obtain ⟨bs, q, hrest, hQq, hphase⟩ := ih
      (p := ⟨t, Function.update p.phase i finish⟩)
      (fun j hj => hsolo j (List.mem_cons_of_mem _ hj)) hnodup.2
      (fun j hj => by
        have hne : j ≠ i := by rintro rfl; exact hnodup.1 hj
        show Function.update p.phase i finish j = start
        rw [Function.update_of_ne hne]
        exact hstart j (List.mem_cons_of_mem _ hj)) hQt
    refine ⟨as ++ bs, q, hrun.append hrest, hQq, fun j => ?_⟩
    rw [hphase]
    by_cases hji : j = i
    · subst hji; simp [hnodup.1]
    · simp [hji]

section Counting

variable [Fintype ι] (P : φ → Prop) [DecidablePred P]

/-- The number of workers in a phase with `P`. -/
def Pool.count (p : Pool ι φ σ) : Nat := (Finset.univ.filter fun i => P (p.phase i)).card

/-- A step that does not change whether its worker is in such a phase keeps the number. -/
theorem Pool.Step.count_eq {p q : Pool ι φ σ} {i : ι} (h : Pool.Step prog p i q)
    (hi : P (q.phase i) ↔ P (p.phase i)) : q.count P = p.count P := by
  refine congrArg Finset.card (Finset.filter_congr fun j _ => ?_)
  by_cases hj : j = i
  · rw [hj, hi]
  · rw [h.phase_ne hj]

/-- A step by which its worker comes into such a phase adds one. -/
theorem Pool.Step.count_succ {p q : Pool ι φ σ} {i : ι} (h : Pool.Step prog p i q)
    (hp : ¬ P (p.phase i)) (hq : P (q.phase i)) : q.count P = p.count P + 1 := by
  have hinsert : (Finset.univ.filter fun j => P (q.phase j)) =
      insert i (Finset.univ.filter fun j => P (p.phase j)) := by
    ext j
    by_cases hj : j = i
    · simp [hj, hq]
    · simp [hj, h.phase_ne hj]
  rw [Pool.count, hinsert, Finset.card_insert_of_notMem (by simp [hp]), Pool.count]

end Counting

end Runs
