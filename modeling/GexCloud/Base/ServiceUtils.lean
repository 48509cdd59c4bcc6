import GexCloud.Base.Ruby
import GexCloud.Support.Retries

/-! # `service_utils.rb`: a service is started

`iterator_exec` runs a block again when it fails, and `enable_and_start_service` uses it for the commands that enable
and start a service of systemd. The number of retries is compared before it is counted, and with `<=`.

* `Machine`, `texec` — what a command does and comes to, and which statuses are taken for success.
* `iteratorExec`, `enableAndStartService` — the two functions.
* **`iteratorExec_eq_retry`** — there is one retry more than the number says.
* `Started` — an attempt in which the service is enabled and started.
* **`iteratorExec_iff`** — when there are no more runs than one and the retries; a service that is reported started has
  been enabled and started in one attempt. -/

namespace GexCloud.Services

open Texts Scripts Retries

variable {ε σ α : Type}

/-! ## Commands -/

/-- What a command comes to: `$?.exitstatus`, which is nil when a signal ended it, and its output. -/
structure Status where
  exitstatus : Option Nat
  output : Text

/-- `$?.success? || $?.exitstatus == 129`. -/
def Status.success (status : Status) : Bool := status.exitstatus == some 0 || status.exitstatus == some 129

/-- **A machine**: what a command does and comes to, or the error when it cannot be run; the files; and what happens
in so many seconds. -/
structure Machine (σ : Type) where
  sh : Text → Script RubyError σ Status
  files : σ → Files
  sleep : Nat → σ → σ

/-- `texec`. The exception is thrown to no `catch`, so it becomes an `UncaughtThrowError`, which `rescue` takes. -/
def texec (M : Machine σ) (cmd : Text) (checkreturn : Bool) : Script RubyError σ (Option Text) := do
  let status ← M.sh cmd
  if status.success then
    pure (some status.output)
  else if checkreturn then
    throw (.exception (cmd ++ " returned status ".toList ++ (status.exitstatus.map decimal).getD [] ++
      ", ".toList ++ status.output))
  else
    pure none

/-- `"#{NODE_INFO_DIR}/CLOUD_TYPE"`. -/
def CLOUD_TYPE : Text := "/etc/node/nodeinfo/CLOUD_TYPE".toList

/-- `aws?`. -/
def aws (M : Machine σ) : Script RubyError σ Bool := do
  let s ← get
  let content ← orThrow (.noSuchFile CLOUD_TYPE) (M.files s CLOUD_TYPE)
  pure (strip content == "AWS".toList)

/-- `!($container == 'hue' && aws?)`. -/
def startChecked (M : Machine σ) (container : Option Text) : Script RubyError σ Bool :=
  if container = some "hue".toList then do
    let onAws ← aws M
    pure !onAws
  else
    pure true

/-! ## The functions -/

/-- `iterator_exec`, when `i` failures are counted. -/
def iteratorExecFrom (sleep : Nat → σ → σ) (iterations : Int) (block : Script ε σ α) (i : Int) : Script ε σ α :=
  rescue block fun e =>
    if _h : i ≤ iterations then do
      modify (sleep 5)
      iteratorExecFrom sleep iterations block (i + 1)
    else
      throw e
termination_by (iterations + 1 - i).toNat
decreasing_by omega

/-- `iterator_exec`. -/
def iteratorExec (sleep : Nat → σ → σ) (iterations : Int) (block : Script ε σ α) : Script ε σ α :=
  iteratorExecFrom sleep iterations block 0

/-- The block of `enable_and_start_service`. -/
def enableAndStart (M : Machine σ) (container : Option Text) (service : Text) : Script RubyError σ PUnit := do
  let _ ← texec M ("systemctl stop ".toList ++ service) false
  let _ ← texec M ("systemctl disable ".toList ++ service) false
  let _ ← texec M ("systemctl enable ".toList ++ service) true
  let checkreturn ← startChecked M container
  let _ ← texec M ("systemctl start ".toList ++ service) checkreturn
  modify (M.sleep 3)

/-- `enable_and_start_service`, when `$container` is `container`. -/
def enableAndStartService (M : Machine σ) (container : Option Text) (service : Text) : Script RubyError σ PUnit :=
  iteratorExec M.sleep 5 (enableAndStart M container service)

/-- **The container is `hue`, on AWS.** -/
def HueOnAws (M : Machine σ) (container : Option Text) (s : σ) : Prop :=
  container = some "hue".toList ∧ ∃ content, M.files s CLOUD_TYPE = some content ∧ strip content = "AWS".toList

/-- **An attempt in which the service is enabled and started**, from one state to another. What the first two commands
come to does not matter, and what the last one does, only for `hue` on AWS. -/
inductive Started (M : Machine σ) (container : Option Text) (service : Text) : σ → σ → Prop
  | intro {s₀ s₁ s₂ s₃ s₄ : σ} {stop disable enable start : Status}
      (stopped : Returns (M.sh ("systemctl stop ".toList ++ service)) s₀ stop s₁)
      (disabled : Returns (M.sh ("systemctl disable ".toList ++ service)) s₁ disable s₂)
      (enabled : Returns (M.sh ("systemctl enable ".toList ++ service)) s₂ enable s₃)
      (enable_success : enable.success = true)
      (known : container = some "hue".toList → (M.files s₃ CLOUD_TYPE).isSome)
      (started : Returns (M.sh ("systemctl start ".toList ++ service)) s₃ start s₄)
      (start_success : start.success = true ∨ HueOnAws M container s₃) :
      Started M container service s₀ (M.sleep 3 s₄)

variable {M : Machine σ} {container : Option Text} {service : Text} {s t : σ}

/-! ## The retries -/

/-- **The retries that are left**: one more than the number says. -/
theorem iteratorExecFrom_eq_retry (sleep : Nat → σ → σ) (iterations : Int) (block : Script ε σ α) (i : Int) :
    iteratorExecFrom sleep iterations block i = retry (sleep 5) block (iterations + 1 - i).toNat := by
  -- induction on the retries
  generalize hm : (iterations + 1 - i).toNat = m
  induction m generalizing i with
  | zero =>
    have hgt : ¬ i ≤ iterations := by omega
    funext s
    rw [iteratorExecFrom]
    rcases hrun : run block s with ⟨e | a, t⟩
    · exact (run_rescue_of_error hrun).trans (by rw [dif_neg hgt, run_throw]; exact hrun.symm)
    · exact (run_rescue_of_returns hrun).trans hrun.symm
  | succ m ih =>
    have hle : i ≤ iterations := by omega
    rw [iteratorExecFrom, retry, ← ih (i + 1) (by omega)]
    simp only [dif_pos hle]

/-- **`iterator_exec`**: a block with one retry more than the number says. -/
theorem iteratorExec_eq_retry (sleep : Nat → σ → σ) (iterations : Int) (block : Script ε σ α) :
    iteratorExec sleep iterations block = retry (sleep 5) block (iterations + 1).toNat := by
  rw [iteratorExec, iteratorExecFrom_eq_retry, Int.sub_zero]

/-! ## The attempts -/

/-- A command goes through unless its status is checked and no success. -/
theorem exists_returns_texec_iff (cmd : Text) (checkreturn : Bool) :
    (∃ result, Returns (texec M cmd checkreturn) s result t) ↔
      ∃ status, Returns (M.sh cmd) s status t ∧ (checkreturn = true → status.success = true) := by
  unfold texec
  simp only [returns_bind_iff]
  constructor
  · rintro ⟨result, status, u, hsh, hresult⟩
    split at hresult
    · rename_i hsuccess
      obtain ⟨-, rfl⟩ := returns_pure_iff.mp hresult
      exact ⟨status, hsh, fun _ => hsuccess⟩
    · split at hresult
      · exact absurd hresult not_returns_throw
      · rename_i hunchecked
        obtain ⟨-, rfl⟩ := returns_pure_iff.mp hresult
        exact ⟨status, hsh, fun h => absurd h hunchecked⟩
  · rintro ⟨status, hsh, hsuccess⟩
    by_cases hstatus : status.success = true
    · refine ⟨some status.output, status, t, hsh, ?_⟩
      rw [if_pos hstatus, returns_pure_iff]
      exact ⟨rfl, rfl⟩
    · refine ⟨none, status, t, hsh, ?_⟩
      rw [if_neg hstatus, if_neg (mt hsuccess hstatus), returns_pure_iff]
      exact ⟨rfl, rfl⟩

/-- `aws?` needs its file, and changes nothing. -/
theorem returns_aws_iff {onAws : Bool} : Returns (aws M) s onAws t ↔
    s = t ∧ ∃ content, M.files s CLOUD_TYPE = some content ∧ (onAws = true ↔ strip content = "AWS".toList) := by
  unfold aws
  rw [returns_get_bind_iff, returns_bind_iff]
  simp only [returns_orThrow_iff, returns_pure_iff]
  constructor
  · rintro ⟨content, u, ⟨hcontent, rfl⟩, rfl, rfl⟩
    exact ⟨rfl, content, hcontent, beq_iff_eq⟩
  · rintro ⟨rfl, content, hcontent, honAws⟩
    refine ⟨content, s, ⟨hcontent, rfl⟩, ?_, rfl⟩
    rw [Bool.eq_iff_iff, beq_iff_eq, honAws]

/-- What the start of a service comes to is checked, but for `hue` on AWS. -/
theorem returns_startChecked_iff {checkreturn : Bool} : Returns (startChecked M container) s checkreturn t ↔
    s = t ∧ (container = some "hue".toList → (M.files s CLOUD_TYPE).isSome) ∧
      (checkreturn = true ↔ ¬ HueOnAws M container s) := by
  unfold startChecked HueOnAws
  split
  · rename_i hhue
    rw [returns_bind_iff]
    simp only [returns_aws_iff, returns_pure_iff, hhue, true_and, forall_const]
    constructor
    · rintro ⟨onAws, u, ⟨rfl, content, hcontent, honAws⟩, rfl, rfl⟩
      refine ⟨rfl, Option.isSome_iff_exists.mpr ⟨content, hcontent⟩, ?_⟩
      rw [Bool.not_eq_true', ← Bool.not_eq_true, honAws]
      simp [hcontent]
    · rintro ⟨rfl, hsome, hchecked⟩
      obtain ⟨content, hcontent⟩ := Option.isSome_iff_exists.mp hsome
      refine ⟨!checkreturn, s, ⟨rfl, content, hcontent, ?_⟩, Bool.not_not _, rfl⟩
      rw [Bool.not_eq_true', ← Bool.not_eq_true, hchecked]
      simp [hcontent]
  · rename_i hhue
    rw [returns_pure_iff]
    simp only [hhue, false_and, not_false_eq_true, iff_true, false_implies, true_and]
    exact ⟨fun h => ⟨h.2, h.1.symm⟩, fun h => ⟨h.2.symm, h.1⟩⟩

/-- **An attempt goes through** exactly when the service is enabled and started in it. -/
theorem returns_enableAndStart_iff :
    Returns (enableAndStart M container service) s ⟨⟩ t ↔ Started M container service s t := by
  unfold enableAndStart
  simp only [returns_bind_iff, returns_modify_iff]
  constructor
  · rintro ⟨_, s₁, hstop, _, s₂, hdisable, _, s₃, henable, checkreturn, u, hchecked, _, s₄, hstart, rfl⟩
    obtain ⟨stop, hstop, -⟩ := (exists_returns_texec_iff _ _).mp ⟨_, hstop⟩
    obtain ⟨disable, hdisable, -⟩ := (exists_returns_texec_iff _ _).mp ⟨_, hdisable⟩
    obtain ⟨enable, henable, hsuccess⟩ := (exists_returns_texec_iff _ _).mp ⟨_, henable⟩
    obtain ⟨rfl, hknown, hchecked⟩ := returns_startChecked_iff.mp hchecked
    obtain ⟨start, hstart, hstarted⟩ := (exists_returns_texec_iff _ _).mp ⟨_, hstart⟩
    refine .intro hstop hdisable henable (hsuccess rfl) hknown hstart ?_
    by_cases haws : HueOnAws M container s₃
    · exact .inr haws
    · exact .inl (hstarted (hchecked.mpr haws))
  · intro h
    cases h with
    | @intro s₁ s₂ s₃ s₄ stop disable enable start hstop hdisable henable hsuccess hknown hstart hstarted =>
      have hunchecked : ∀ status : Status, false = true → status.success = true := fun _ h =>
        absurd h Bool.false_ne_true
      obtain ⟨_, hstop⟩ := (exists_returns_texec_iff _ false).mpr ⟨stop, hstop, hunchecked stop⟩
      obtain ⟨_, hdisable⟩ := (exists_returns_texec_iff _ false).mpr ⟨disable, hdisable, hunchecked disable⟩
      obtain ⟨_, henable⟩ := (exists_returns_texec_iff _ true).mpr ⟨enable, henable, fun _ => hsuccess⟩
      obtain ⟨checkreturn, hchecked⟩ : ∃ checkreturn : Bool, checkreturn = true ↔ ¬ HueOnAws M container s₃ := by
        by_cases haws : HueOnAws M container s₃
        · exact ⟨false, iff_of_false Bool.false_ne_true (not_not.mpr haws)⟩
        · exact ⟨true, iff_of_true rfl haws⟩
      have hstatus : checkreturn = true → start.success = true := fun hcheck =>
        hstarted.resolve_right (hchecked.mp hcheck)
      obtain ⟨_, hstart⟩ := (exists_returns_texec_iff _ checkreturn).mpr ⟨start, hstart, hstatus⟩
      exact ⟨_, s₁, hstop, _, s₂, hdisable, _, s₃, henable, checkreturn, s₃,
        returns_startChecked_iff.mpr ⟨rfl, hknown, hchecked⟩, _, s₄, hstart, rfl⟩

/-- **`enable_and_start_service` goes through** exactly when one of seven attempts enables and starts the service, the
first that goes through. -/
theorem returns_enableAndStartService_iff : Returns (enableAndStartService M container service) s ⟨⟩ t ↔
    ∃ k ≤ 6, (∀ j < k, (outcome (M.sleep 5) (enableAndStart M container service) s j).isOk = false) ∧
      Started M container service (before (M.sleep 5) (enableAndStart M container service) s k) t := by
  rw [enableAndStartService, iteratorExec_eq_retry]
  exact returns_retry_iff.trans (by simp only [returns_enableAndStart_iff]; rfl)

/-- **`iterator_exec` runs the block at most once and so many times again** exactly when one of these runs succeeds. And
`enable_and_start_service` goes through only if the service is enabled and started in one attempt. -/
theorem iteratorExec_iff (iterations : Int) (outcomes : Nat → Except ε α) (M : Machine σ) (container : Option Text)
    (service : Text) (s : σ) :
    (Retried (iterations + 1) outcomes (run (iteratorExec (fun _ => id) iterations (draw outcomes)) 0).2
        (run (iteratorExec (fun _ => id) iterations (draw outcomes)) 0).1 ↔
      ∃ k : Nat, k ≤ iterations ∧ (outcomes k).isOk = true) ∧
    ∀ t, Returns (enableAndStartService M container service) s ⟨⟩ t →
      ∃ k, (∀ j < k, (outcome (M.sleep 5) (enableAndStart M container service) s j).isOk = false) ∧
        Started M container service (before (M.sleep 5) (enableAndStart M container service) s k) t := by
  constructor
  · rw [iteratorExec_eq_retry]
    have hlt : iterations + 1 < ((iterations + 1).toNat : Int) + 1 := by omega
    refine ((retried_draw outcomes _).tighten_iff hlt).trans (exists_congr fun k => ?_)
    rw [Int.lt_add_one_iff]
  · intro t h
    obtain ⟨k, -, hstarted⟩ := returns_enableAndStartService_iff.mp h
    exact ⟨k, hstarted⟩

/-- A machine whose third command, the first that enables the service, ends with status 1. -/
def hesitant : Machine Nat where
  sh _ := fun commands => (.ok ⟨if commands = 2 then some 1 else some 0, []⟩, commands + 1)
  files _ _ := none
  sleep _ := id

/-- The second attempt starts the service. -/
theorem iteratorExec_hesitant :
    ∃ k, (∀ j < k,
        (outcome (hesitant.sleep 5) (enableAndStart hesitant none "vpnclient_node".toList) 0 j).isOk = false) ∧
      Started hesitant none "vpnclient_node".toList
        (before (hesitant.sleep 5) (enableAndStart hesitant none "vpnclient_node".toList) 0 k) 7 := by
  refine (iteratorExec_iff 5 (fun k => (.error k : Except Nat Unit)) hesitant none _ 0).2 7 ?_
  rw [enableAndStartService, iteratorExec_eq_retry]
  rfl

/-- **Five retries are six**: a block that always fails is run seven times. -/
theorem six_retries :
    run (iteratorExec (fun _ => id) 5 (draw fun k => (.error k : Except Nat Unit))) 0 = (.error 6, 7) ∧
      ¬ Retried (5 + 1) (fun k => (.error k : Except Nat Unit)) 7 (.error 6) := by
  refine ⟨?_, fun h => absurd h.bounded (by decide)⟩
  rw [iteratorExec_eq_retry]
  rfl

end GexCloud.Services
