import Mathlib.Logic.Basic

/-! # Loops that may not end

A loop is given by its round: from a state it goes on to the next one, or leaves with a result.

* `Next`, `run` — a round's two ways out, and so many rounds of the loop.
* `run_mono`, `Ends.unique` — more rounds do not change what has been left with.
* **`exists_run_of_measure`** — a loop whose rounds decrease a measure ends within that many rounds.
* **`Ends.invariant`** — what every round keeps is known of the state in which the loop is left.
* **`Hangs.of_invariant`** — a loop whose rounds always go on does not end. -/

namespace Loops

variable {σ ρ : Type}

/-- What one round comes to. -/
inductive Next (σ ρ : Type)
  /-- The loop goes on from this state. -/
  | goOn (s : σ)
  /-- The loop is left with this result. -/
  | leave (r : ρ)

/-- At most so many rounds of the loop: its result, when it is left within them. -/
def run (round : σ → Next σ ρ) : Nat → σ → Option ρ
  | 0, _ => none
  | rounds + 1, s =>
    match round s with
    | .goOn t => run round rounds t
    | .leave r => some r

/-- The loop is left with this result. -/
def Ends (round : σ → Next σ ρ) (s : σ) (r : ρ) : Prop := ∃ rounds, run round rounds s = some r

/-- The loop is never left. -/
def Hangs (round : σ → Next σ ρ) (s : σ) : Prop := ∀ rounds, run round rounds s = none

variable {round : σ → Next σ ρ} {s t : σ} {r r' : ρ} {n m : Nat}

@[simp] theorem run_zero (round : σ → Next σ ρ) (s : σ) : run round 0 s = none := rfl

/-- A round that goes on. -/
theorem run_succ_of_goOn (h : round s = .goOn t) : run round (n + 1) s = run round n t := by
  rw [run, h]

/-- A round that leaves. -/
theorem run_succ_of_leave (h : round s = .leave r) : run round (n + 1) s = some r := by
  rw [run, h]

/-- More rounds do not change the result. -/
theorem run_mono (hle : n ≤ m) (h : run round n s = some r) : run round m s = some r := by
  induction n generalizing m s with
  | zero => cases h
  | succ n ih =>
    obtain ⟨m, rfl⟩ : ∃ k, m = k + 1 := ⟨m - 1, by omega⟩
    cases hs : round s with
    | goOn t =>
      rw [run_succ_of_goOn hs] at h ⊢
      exact ih (by omega) h
    | leave r =>
      rw [run_succ_of_leave hs] at h ⊢
      exact h

/-- A loop is left with one result only. -/
theorem Ends.unique (h : Ends round s r) (h' : Ends round s r') : r = r' := by
  obtain ⟨n, h⟩ := h
  obtain ⟨m, h'⟩ := h'
  have hn := run_mono (Nat.le_max_left n m) h
  have hm := run_mono (Nat.le_max_right n m) h'
  rw [hn] at hm
  exact Option.some.inj hm

/-- **Measure rule.** A loop that keeps `I` and decreases `μ` when it goes on is left after at most `μ`
further rounds. -/
theorem exists_run_of_measure (I : σ → Prop) (μ : σ → Nat)
    (decrease : ∀ s t, I s → round s = .goOn t → I t ∧ μ t < μ s) (start : I s) :
    ∃ r, run round (μ s + 1) s = some r := by
  -- induction on the number of rounds, which the measure bounds
  suffices h : ∀ n s, I s → μ s ≤ n → ∃ r, run round (n + 1) s = some r from h (μ s) s start (Nat.le_refl _)
  intro n
  induction n with
  | zero =>
    intro s hs hn
    cases hround : round s with
    | goOn t =>
      have hlt := (decrease s t hs hround).2
      omega
    | leave r => exact ⟨r, run_succ_of_leave hround⟩
  | succ n ih =>
    intro s hs hn
    cases hround : round s with
    | goOn t =>
      obtain ⟨ht, hlt⟩ := decrease s t hs hround
      rw [run_succ_of_goOn hround]
      exact ih t ht (by omega)
    | leave r => exact ⟨r, run_succ_of_leave hround⟩

/-- **Invariant rule.** The loop is left from a state that has the invariant. -/
theorem Ends.invariant (I : σ → Prop) (keep : ∀ s t, I s → round s = .goOn t → I t)
    (h : Ends round s r) (start : I s) : ∃ t, I t ∧ round t = .leave r := by
  obtain ⟨n, h⟩ := h
  induction n generalizing s with
  | zero => cases h
  | succ n ih =>
    cases hround : round s with
    | goOn t =>
      rw [run_succ_of_goOn hround] at h
      exact ih (keep s t start hround) h
    | leave r' =>
      rw [run_succ_of_leave hround] at h
      cases h
      exact ⟨s, start, hround⟩

/-- **Rule for loops that are never left.** Every round goes on to a state like the one before it. -/
theorem Hangs.of_invariant (I : σ → Prop) (goOn : ∀ s, I s → ∃ t, round s = .goOn t ∧ I t)
    (start : I s) : Hangs round s := by
  intro n
  induction n generalizing s with
  | zero => exact run_zero round s
  | succ n ih =>
    obtain ⟨t, hround, ht⟩ := goOn s start
    rw [run_succ_of_goOn hround]
    exact ih ht

end Loops
