import GexCloud.Support.Scripts

/-! # Bounded retry

A script that fails is run again, after a pause, until it succeeds or the retries are used up.

* `retry` — a script with so many retries.
* `before`, `outcome` — the states in which the runs start, and what they come to.
* `Retried` — what bounded retry is: the runs end with the first success, or with the last that is allowed.
* **`run_retry`** — a script with retries is retried so.
* **`returns_retry_iff`** — it goes through when one of its runs is the first to do so.
* **`Retried.tighten_iff`** — fewer runs would have been enough exactly when one of these succeeds. -/

namespace Retries

open Scripts

variable {ε σ α : Type}

/-- A script with so many retries, each after a pause. -/
def retry (pause : σ → σ) (block : Script ε σ α) : Nat → Script ε σ α
  | 0 => block
  | retries + 1 => rescue block fun _ => do
    modify pause
    retry pause block retries

/-- The state in which a run starts, when all runs before it are made. -/
def before (pause : σ → σ) (block : Script ε σ α) (s : σ) : Nat → σ
  | 0 => s
  | k + 1 => pause (run block (before pause block s k)).2

/-- What a run comes to. -/
def outcome (pause : σ → σ) (block : Script ε σ α) (s : σ) (k : Nat) : Except ε α :=
  (run block (before pause block s k)).1

/-- **Bounded retry** on a stream of outcomes: so many runs are made, with this result. -/
structure Retried (bound : Int) (outcomes : Nat → Except ε α) (runs : Nat) (result : Except ε α) : Prop where
  /-- There are not more runs than allowed. -/
  bounded : (runs : Int) ≤ bound
  /-- The result is what the last run comes to, and all others fail. -/
  last : ∃ k, runs = k + 1 ∧ result = outcomes k ∧ ∀ j < k, (outcomes j).isOk = false
  /-- An error is the result only when all runs are made. -/
  spent : result.isOk = false → (runs : Int) = bound

/-- The script that draws from a stream of outcomes: the state is the number of its runs. -/
def draw (outcomes : Nat → Except ε α) : Script ε Nat α := fun runs => (outcomes runs, runs + 1)

variable {pause : σ → σ} {block : Script ε σ α} {s t : σ} {a : α} {e : ε} {m k runs : Nat} {bound allowed : Int}
  {outcomes : Nat → Except ε α} {result : Except ε α}

/-- A success is not among the outcomes that are no success. -/
theorem le_of_isOk {j : Nat} (hfailed : ∀ j < k, (outcomes j).isOk = false) (hok : (outcomes j).isOk = true) :
    k ≤ j := by
  refine Nat.le_of_not_lt fun hjk => ?_
  rw [hfailed j hjk] at hok
  cases hok

/-! ## The runs -/

/-- The runs that are still to be made, when one is made. -/
theorem before_succ (pause : σ → σ) (block : Script ε σ α) (s : σ) (k : Nat) :
    before pause block s (k + 1) = before pause block (pause (run block s).2) k := by
  induction k with
  | zero => rfl
  | succ k ih =>
    rw [before, ih]
    rfl

/-- The later outcomes are those of the runs that are still to be made. -/
theorem outcome_succ (pause : σ → σ) (block : Script ε σ α) (s : σ) (k : Nat) :
    outcome pause block s (k + 1) = outcome pause block (pause (run block s).2) k := by
  rw [outcome, before_succ]
  rfl

/-- What the script and the pauses keep, the retries keep. -/
theorem keeps_retry {R : σ → σ → Prop} (htrans : ∀ s t u, R s t → R t u → R s u) (hblock : Keeps R block)
    (hpause : ∀ s, R s (pause s)) (m : Nat) : Keeps R (retry pause block m) := by
  induction m with
  | zero => exact hblock
  | succ m ih => exact Keeps.rescue htrans hblock fun _ => Keeps.bind htrans (Keeps.modify hpause) fun _ => ih

/-- A run that succeeds is the last one. -/
theorem run_retry_of_returns (h : Returns block s a t) : run (retry pause block m) s = (.ok a, t) := by
  cases m with
  | zero => exact h
  | succ m => exact run_rescue_of_returns h

/-- After a run that fails there is one retry less. -/
theorem run_retry_of_error (h : run block s = (.error e, t)) :
    run (retry pause block (m + 1)) s = run (retry pause block m) (pause t) := by
  rw [retry, run_rescue_of_error h]
  rfl

/-- **A script with retries**: it ends as one of its runs does, and is retried as it should be. -/
theorem run_retry (pause : σ → σ) (block : Script ε σ α) (m : Nat) (s : σ) :
    ∃ k, run (retry pause block m) s = run block (before pause block s k) ∧
      Retried (m + 1) (outcome pause block s) (k + 1) (run (retry pause block m) s).1 := by
  induction m generalizing s with
  | zero =>
    refine ⟨0, rfl, Int.le_refl _, ⟨0, rfl, rfl, nofun⟩, fun _ => rfl⟩
  | succ m ih =>
    rcases hrun : run block s with ⟨e | a, t⟩
    · -- the retries that are left start after the pause
      obtain ⟨k, hk, hbounded, ⟨k', hruns, hresult, hfailed⟩, hspent⟩ := ih (pause t)
      obtain rfl : k = k' := Nat.succ.inj hruns
      have hstart : pause t = pause (run block s).2 := by rw [hrun]
      rw [run_retry_of_error hrun]
      refine ⟨k + 1, ?_, ?_, ⟨k + 1, rfl, ?_, fun j hj => ?_⟩, fun h => ?_⟩
      · rw [hk, before_succ, hstart]
      · push_cast at hbounded ⊢
        omega
      · rw [hresult, outcome_succ, hstart]
      · cases j with
        | zero => rw [outcome, before, hrun]; rfl
        | succ j =>
          rw [outcome_succ, ← hstart]
          exact hfailed j (by omega)
      · have hspent' := hspent h
        push_cast at hspent' ⊢
        omega
    · rw [run_retry_of_returns hrun]
      refine ⟨0, hrun.symm, ?_, ⟨0, rfl, ?_, nofun⟩, nofun⟩
      · push_cast
        omega
      · rw [outcome, before, hrun]

/-- **A script with retries goes through** when one of its runs is the first to do so. -/
theorem returns_retry_iff : Returns (retry pause block m) s a t ↔
    ∃ k ≤ m, (∀ j < k, (outcome pause block s j).isOk = false) ∧ Returns block (before pause block s k) a t := by
  obtain ⟨k, hrun, hbounded, ⟨k', hruns, -, hfailed⟩, hspent⟩ := run_retry pause block m s
  obtain rfl : k = k' := Nat.succ.inj hruns
  constructor
  · intro h
    rw [Returns, hrun] at h
    exact ⟨k, by omega, hfailed, h⟩
  · rintro ⟨j, hj, hfailed', h⟩
    have hok : (outcome pause block s j).isOk = true := by
      rw [outcome, h]
      rfl
    -- neither of the two runs is before the other
    have hkj : k ≤ j := le_of_isOk hfailed hok
    have hjk : j ≤ k := by
      refine Nat.le_of_not_lt fun hlt => ?_
      have hlast := hspent (by rw [hrun]; exact hfailed' k hlt)
      omega
    obtain rfl := Nat.le_antisymm hkj hjk
    rw [Returns, hrun]
    exact h

/-! ## Streams -/

/-- As many runs are made as are drawn. -/
theorem before_draw (outcomes : Nat → Except ε α) (k : Nat) : before id (draw outcomes) 0 k = k := by
  induction k with
  | zero => rfl
  | succ k ih =>
    rw [before, ih]
    rfl

/-- The outcomes are those of the stream. -/
theorem outcome_draw (outcomes : Nat → Except ε α) : outcome id (draw outcomes) 0 = outcomes := by
  funext k
  rw [outcome, before_draw]
  rfl

/-- **Retry on a stream of outcomes.** -/
theorem retried_draw (outcomes : Nat → Except ε α) (m : Nat) :
    Retried (m + 1) outcomes (run (retry id (draw outcomes) m) 0).2 (run (retry id (draw outcomes) m) 0).1 := by
  obtain ⟨k, hrun, hretried⟩ := run_retry id (draw outcomes) m 0
  have hruns : (run (retry id (draw outcomes) m) 0).2 = k + 1 := by
    rw [hrun, before_draw]
    rfl
  rwa [outcome_draw, ← hruns] at hretried

/-! ## Other bounds -/

/-- **Fewer runs are enough** exactly when one of these succeeds. -/
theorem Retried.tighten_iff (h : Retried allowed outcomes runs result) (hlt : bound < allowed) :
    Retried bound outcomes runs result ↔ ∃ k : Nat, k < bound ∧ (outcomes k).isOk = true := by
  obtain ⟨hbounded, ⟨k, rfl, rfl, hfailed⟩, hspent⟩ := h
  constructor
  · rintro ⟨hle, -, hall⟩
    cases hk : (outcomes k).isOk with
    | true => exact ⟨k, by omega, hk⟩
    | false =>
      have hsmall := hall hk
      have hlarge := hspent hk
      omega
  · rintro ⟨j, hj, hok⟩
    -- a success is not one of the runs that failed
    have hkj : k ≤ j := le_of_isOk hfailed hok
    refine ⟨by omega, ⟨k, rfl, rfl, hfailed⟩, fun hk => ?_⟩
    have hne : k ≠ j := by
      rintro rfl
      rw [hk] at hok
      cases hok
    have hlarge := hspent hk
    omega

end Retries
