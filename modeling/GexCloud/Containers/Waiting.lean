import GexCloud.Base.Ruby
import GexCloud.Support.Loops

/-! # Waiting for a container

`wait_until_running` probes the container with `docker exec true` until a probe succeeds or the retries
are used up, and ends with `assert_drunning`, which probes once more. The retries are compared with their
predecessor (`retries == retries - 1`) where they should be set to it, so they are never used up.

* `Waiting`, `probe` — the state of the loop and one round of it.
* `waitUntilRunning` — the function, on the outcomes of all the probes it may make.
* **`leave_running`** — the loop is left only by a probe that succeeds.
* **`bounded_iff`** — the loop is bounded exactly when one of the first 32 probes succeeds. -/

namespace GexCloud.Containers

open Texts Loops

/-- The loop of `wait_until_running`: the probes made so far and `retries`. -/
structure Waiting where
  probes : Nat
  retries : Int

/-- The state before the first probe. -/
def Waiting.start : Waiting where
  probes := 0
  retries := 30

/-- `until system("docker exec #{$container} true") || retries < 0`, with the body of the loop. The body
evaluates `retries == retries - 1` and drops the value, so `retries` stays. -/
def probe (running : Nat → Bool) (w : Waiting) : Next Waiting Nat :=
  if running w.probes || decide (w.retries < 0) then .leave (w.probes + 1)
  else .goOn { w with probes := w.probes + 1 }

/-- `assert_drunning`, given what its probe says. -/
def assertDrunning (container : Text) (drunning : Bool) : Except RubyError Unit :=
  assert drunning ("Container ".toList ++ container ++ " is not running".toList)

/-- `wait_until_running` when the `i`-th probe of the container says `running i`: the number of probes the
loop makes and what the function comes to, when the loop is left within the given rounds. -/
def waitUntilRunning (container : Text) (running : Nat → Bool) (rounds : Nat) :
    Option (Nat × Except RubyError Unit) :=
  (run (probe running) rounds .start).map fun probes => (probes, assertDrunning container (running probes))

/-- The loop makes at most 32 probes, and then the container is found running or the assertion raises. -/
def Bounded (container : Text) (running : Nat → Bool) : Prop :=
  ∃ rounds probes result, waitUntilRunning container running rounds = some (probes, result) ∧ probes ≤ 32 ∧
    (result = .ok () ∧ running probes = true ∨
      result = .error (.exception ("Container ".toList ++ container ++ " is not running".toList)))

variable {container : Text} {running : Nat → Bool} {w w' : Waiting} {n : Nat}

/-- A round goes on when its probe fails, and leaves the retries as they are. -/
theorem probe_eq_goOn (h : probe running w = .goOn w') :
    running w.probes = false ∧ w' = { w with probes := w.probes + 1 } := by
  unfold probe at h
  split at h
  · cases h
  · rename_i hcond
    cases h
    exact ⟨by simp_all, rfl⟩

/-- A round that leaves has had a successful probe, unless the retries are used up. -/
theorem probe_eq_leave (h : probe running w = .leave n) :
    n = w.probes + 1 ∧ (running w.probes = true ∨ w.retries < 0) := by
  unfold probe at h
  split at h
  · rename_i hcond
    cases h
    exact ⟨rfl, by simpa using hcond⟩
  · cases h

/-- What is left of the retries in every round: all of them. -/
theorem retries_of_goOn (hw : w.retries = 30) (h : probe running w = .goOn w') : w'.retries = 30 := by
  obtain ⟨-, rfl⟩ := probe_eq_goOn h
  exact hw

/-- **The loop is left only by a probe that succeeds.** -/
theorem leave_running (h : Ends (probe running) .start n) : ∃ i, running i = true ∧ n = i + 1 := by
  obtain ⟨w, hw, hleave⟩ :=
    h.invariant (fun w : Waiting => w.retries = 30) (fun _ _ hw hgo => retries_of_goOn hw hgo) rfl
  obtain ⟨rfl, hrun | hneg⟩ := probe_eq_leave hleave
  · exact ⟨w.probes, hrun, rfl⟩
  · omega

/-- The loop is left at the latest by the first probe that succeeds. -/
theorem ends_of_running {i : Nat} (hi : running i = true) :
    ∃ n, n ≤ i + 1 ∧ Ends (probe running) .start n := by
  -- the probes made so far do not go past the `i`-th one, and the measure counts the ones before it
  have hstep : ∀ w w' : Waiting, w.probes ≤ i → probe running w = .goOn w' →
      w'.probes ≤ i ∧ i - w'.probes < i - w.probes := by
    intro w w' hle hgo
    obtain ⟨hfail, rfl⟩ := probe_eq_goOn hgo
    have hne : w.probes ≠ i := by
      rintro rfl
      rw [hi] at hfail
      cases hfail
    dsimp only
    omega
  have hstart : Waiting.start.probes ≤ i := Nat.zero_le i
  obtain ⟨n, hn⟩ := exists_run_of_measure (fun w : Waiting => w.probes ≤ i)
    (fun w => i - w.probes) hstep hstart
  obtain ⟨w, hle, hleave⟩ := Ends.invariant (fun w => w.probes ≤ i)
    (fun w w' hw hgo => (hstep w w' hw hgo).1) ⟨_, hn⟩ hstart
  obtain ⟨rfl, -⟩ := probe_eq_leave hleave
  exact ⟨_, by omega, _, hn⟩

/-- The assertion passes on a running container and raises its own error otherwise. -/
theorem assertDrunning_spec (container : Text) (drunning : Bool) :
    assertDrunning container drunning = .ok () ∧ drunning = true ∨
      assertDrunning container drunning =
        .error (.exception ("Container ".toList ++ container ++ " is not running".toList)) := by
  cases drunning
  · exact .inr rfl
  · exact .inl ⟨rfl, rfl⟩

/-- **The wait is bounded exactly when one of the first 32 probes succeeds.** -/
theorem bounded_iff : Bounded container running ↔ ∃ i < 32, running i = true := by
  constructor
  · rintro ⟨rounds, probes, result, hwait, hle, -⟩
    obtain ⟨n, hrun, heq⟩ := Option.map_eq_some_iff.mp hwait
    obtain ⟨rfl, -⟩ := Prod.mk.inj heq
    obtain ⟨i, hi, rfl⟩ := leave_running ⟨rounds, hrun⟩
    exact ⟨i, by omega, hi⟩
  · rintro ⟨i, hlt, hi⟩
    obtain ⟨n, hle, rounds, hrun⟩ := ends_of_running hi
    refine ⟨rounds, n, _, Option.map_eq_some_iff.mpr ⟨n, hrun, rfl⟩, by omega, ?_⟩
    rcases assertDrunning_spec container (running n) with h | h
    · exact .inl h
    · exact .inr h

/-- A container that never comes up is waited for without end. -/
theorem wait_hangs (h : ∀ i, running i = false) : Hangs (probe running) .start := by
  refine Hangs.of_invariant (fun w : Waiting => w.retries = 30) (fun w hw => ?_) rfl
  refine ⟨{ w with probes := w.probes + 1 }, ?_, hw⟩
  simp [probe, h, hw]

/-- The container `hadoop` does not come up, and no number of rounds is enough. -/
theorem dead_container_hangs :
    ¬ Bounded "hadoop".toList (fun _ => false) ∧
      ∀ rounds, waitUntilRunning "hadoop".toList (fun _ => false) rounds = none := by
  have hnone : ∀ rounds, waitUntilRunning "hadoop".toList (fun _ => false) rounds = none := by
    intro rounds
    rw [waitUntilRunning, wait_hangs (fun _ => rfl) rounds]
    rfl
  refine ⟨?_, hnone⟩
  rintro ⟨rounds, probes, result, hwait, -⟩
  rw [hnone rounds] at hwait
  cases hwait

end GexCloud.Containers
