import Mathlib.Logic.Basic
import Mathlib.Data.List.Infix

/-! # Programs that overwrite

A program is a list of commands on a store. Each command changes its targets only, and what it puts there
depends on its sources only.

* `Command` — a command with its sources and targets.
* `Closed` — every source of a program is known from the start or is a target of an earlier command.
* **`run_agree`** — a closed program makes stores agree on its targets.
* **`run_restarts`** — a closed program can be cut short any number of times: a run to the end leaves what
  it leaves alone. -/

universe u v

namespace Overwrites

/-- A command on a store. -/
structure Command (K : Type u) (V : Type v) where
  act : (K → V) → K → V
  sources : K → Prop
  targets : K → Prop
  /-- Nothing but the targets is changed. -/
  frame : ∀ s k, ¬ targets k → act s k = s k
  /-- What is put there is determined by the sources. -/
  determined : ∀ s t, (∀ k, sources k → s k = t k) → ∀ k, targets k → act s k = act t k

variable {K : Type u} {V : Type v}

/-- A program is run, one command after the other. -/
def run (p : List (Command K V)) (s : K → V) : K → V := p.foldl (fun s c => c.act s) s

/-- The targets of a program. -/
def Targets (p : List (Command K V)) (k : K) : Prop := ∃ c ∈ p, c.targets k

/-- Every source is known, or is the target of an earlier command. -/
def Closed : (K → Prop) → List (Command K V) → Prop
  | _, [] => True
  | known, c :: p => (∀ k, c.sources k → known k) ∧ Closed (fun k => known k ∨ c.targets k) p

variable {p q : List (Command K V)} {c : Command K V} {s t : K → V} {k : K} {P Q : K → Prop}

@[simp] theorem run_nil : run ([] : List (Command K V)) s = s := rfl

@[simp] theorem run_cons : run (c :: p) s = run p (c.act s) := rfl

/-- A command more, and its target. -/
theorem targets_cons_iff : Targets (c :: p) k ↔ c.targets k ∨ Targets p k := by
  simp [Targets]

/-- The targets of a part are targets of the whole. -/
theorem Targets.of_isPrefix (h : Targets p k) (hpq : p <+: q) : Targets q k := by
  obtain ⟨c, hc, hk⟩ := h
  exact ⟨c, hpq.subset hc, hk⟩

/-- A program leaves what is not among its targets. -/
theorem run_of_not_targets (h : ¬ Targets p k) : run p s k = s k := by
  induction p generalizing s with
  | nil => rfl
  | cons c p ih =>
    rw [targets_cons_iff, not_or] at h
    rw [run_cons, ih h.2, c.frame s k h.1]

/-! ## Closed programs -/

/-- More may be known. -/
theorem Closed.mono (h : Closed P p) (hPQ : ∀ k, P k → Q k) : Closed Q p := by
  induction p generalizing P Q with
  | nil => trivial
  | cons c p ih => exact ⟨fun k hk => hPQ k (h.1 k hk), ih h.2 fun k => Or.imp_left (hPQ k)⟩

/-- A program all of whose sources are known. -/
theorem closed_of_forall (h : ∀ c ∈ p, ∀ k, c.sources k → P k) : Closed P p := by
  induction p generalizing P with
  | nil => trivial
  | cons c p ih =>
    refine ⟨h c List.mem_cons_self, ih fun d hd k hk => .inl ?_⟩
    exact h d (List.mem_cons_of_mem c hd) k hk

/-- A program after another one knows what that one has settled. -/
theorem closed_append (hp : Closed P p) (hq : Closed (fun k => P k ∨ Targets p k) q) : Closed P (p ++ q) := by
  induction p generalizing P with
  | nil => exact hq.mono fun k hk => hk.resolve_right fun ⟨_, hc, _⟩ => nomatch hc
  | cons c p ih =>
    refine ⟨hp.1, ih hp.2 (hq.mono fun k hk => ?_)⟩
    rwa [or_assoc, ← targets_cons_iff]

/-- **Stores that agree on what is known agree on the targets as well**, once the program has been run. -/
theorem run_agree (h : Closed P p) (hst : ∀ k, P k → s k = t k) (hk : P k ∨ Targets p k) :
    run p s k = run p t k := by
  induction p generalizing P s t with
  | nil => exact hst k (hk.resolve_right fun ⟨_, hc, _⟩ => nomatch hc)
  | cons c p ih =>
    refine ih h.2 (fun j hj => ?_) (by rwa [or_assoc, ← targets_cons_iff])
    change c.act s j = c.act t j
    by_cases hc : c.targets j
    · exact c.determined s t (fun i hi => hst i (h.1 i hi)) j hc
    · rw [c.frame s j hc, c.frame t j hc]
      exact hst j (hj.resolve_right hc)

/-- A program that reads nothing it writes later comes to the same from stores that differ in its targets. -/
theorem run_eq (h : Closed (fun k => ¬ Targets p k) p) (hst : ∀ k, ¬ Targets p k → s k = t k) :
    run p s = run p t := by
  funext k
  exact run_agree h hst (Classical.em _).symm

/-- **Cut short any number of times**, the program comes to the same in the end. -/
theorem run_restarts (h : Closed (fun k => ¬ Targets p k) p) {cuts : List (List (Command K V))}
    (hcuts : ∀ cut ∈ cuts, cut <+: p) : run p (cuts.foldl (fun s cut => run cut s) s) = run p s := by
  induction cuts generalizing s with
  | nil => rfl
  | cons cut cuts ih =>
    rw [List.foldl_cons, ih fun d hd => hcuts d (List.mem_cons_of_mem cut hd)]
    refine run_eq h fun k hk => run_of_not_targets fun hcut => hk ?_
    exact hcut.of_isPrefix (hcuts cut List.mem_cons_self)

end Overwrites
