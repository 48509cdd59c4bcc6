import Mathlib.Logic.Basic

/-! # Scripts

A script works on a state and can be cut short; what it did to the state before that stays done.

* `Script`, `run` — a script, and its outcome with the state it leaves.
* `ensure` — a condition without which the script ends.
* **`Returns`** — a script that goes through; its rules invert a run that went through, and build one.
* **`Keeps`** — a relation between the states before and after, however the script ends. -/

namespace Scripts

variable {ε σ α β : Type}

/-- A script: the state survives an error. -/
abbrev Script (ε σ α : Type) := ExceptT ε (StateM σ) α

/-- The outcome of a script and the state it leaves. -/
def run (m : Script ε σ α) (s : σ) : Except ε α × σ := m.run s

/-- The script goes through from `s` to `t`, with the value `a`. -/
def Returns (m : Script ε σ α) (s : σ) (a : α) (t : σ) : Prop := run m s = (.ok a, t)

/-- However the script ends, the states before and after are related. -/
def Keeps (R : σ → σ → Prop) (m : Script ε σ α) : Prop := ∀ s, R s (run m s).2

/-- The script goes on when the condition holds, and ends with the error otherwise. -/
def ensure (c : Bool) (e : ε) : Script ε σ PUnit := if c then pure ⟨⟩ else throw e

/-- What has been computed without the state. -/
def lift : Except ε α → Script ε σ α
  | .ok a => pure a
  | .error e => throw e

/-- The script goes on with the value when there is one, and ends with the error otherwise. -/
def orThrow (e : ε) : Option α → Script ε σ α
  | some a => pure a
  | none => throw e

/-- `begin … rescue`: what is done when the script is cut short, in the state it leaves. -/
def rescue {ε' : Type} (m : Script ε σ α) (handler : ε → Script ε' σ α) : Script ε' σ α := fun s =>
  match run m s with
  | (.ok a, t) => (.ok a, t)
  | (.error e, t) => run (handler e) t

variable {m : Script ε σ α} {f : α → Script ε σ β} {s t u : σ} {a : α} {b : β} {e : ε}

/-- A result leaves the state. -/
@[simp] theorem run_pure (a : α) (s : σ) : run (pure a : Script ε σ α) s = (.ok a, s) := rfl

/-- An error leaves the state. -/
@[simp] theorem run_throw (e : ε) (s : σ) : run (throw e : Script ε σ α) s = (.error e, s) := rfl

/-- Reading gives the state and leaves it. -/
@[simp] theorem run_get (s : σ) : run (get : Script ε σ σ) s = (.ok s, s) := rfl

/-- A change is made to the state. -/
@[simp] theorem run_modify (g : σ → σ) (s : σ) : run (modify g : Script ε σ PUnit) s = (.ok ⟨⟩, g s) := rfl

/-- A sequence of two scripts: the second one goes on where the first one has got through. -/
theorem run_bind (m : Script ε σ α) (f : α → Script ε σ β) (s : σ) :
    run (m >>= f) s = match run m s with
      | (.ok a, t) => run (f a) t
      | (.error e, t) => (.error e, t) := by
  change (ExceptT.bindCont f (run m s).1) (run m s).2 = _
  rcases run m s with ⟨_ | _, t⟩ <;> rfl

/-- A script goes on with what its first part returns. -/
theorem run_bind_of_returns (h : Returns m s a t) : run (m >>= f) s = run (f a) t := by
  rw [run_bind, h]

/-- A script ends with the error of its first part. -/
theorem run_bind_of_error (h : run m s = (.error e, t)) : run (m >>= f) s = (.error e, t) := by
  rw [run_bind, h]

/-- A script that goes through is not rescued. -/
theorem run_rescue_of_returns {ε' : Type} {handler : ε → Script ε' σ α} (h : Returns m s a t) :
    run (rescue m handler) s = (.ok a, t) := by
  change (match run m s with
    | (Except.ok a, t) => (Except.ok a, t)
    | (Except.error e, t) => run (handler e) t) = _
  rw [show run m s = (.ok a, t) from h]

/-- The handler goes on where the script was cut short. -/
theorem run_rescue_of_error {ε' : Type} {handler : ε → Script ε' σ α} (h : run m s = (.error e, t)) :
    run (rescue m handler) s = run (handler e) t := by
  change (match run m s with
    | (Except.ok a, t) => (Except.ok a, t)
    | (Except.error e, t) => run (handler e) t) = _
  rw [h]

/-- A script that ends well goes through to the state it leaves. -/
theorem returns_of_run (h : (run m s).1 = .ok a) : Returns m s a (run m s).2 := Prod.ext h rfl

/-- A sequence goes through when both parts do. -/
theorem returns_bind_iff : Returns (m >>= f) s b u ↔ ∃ a t, Returns m s a t ∧ Returns (f a) t b u := by
  rw [Returns, run_bind]
  constructor
  · intro h
    split at h
    · exact ⟨_, _, ‹_›, h⟩
    · cases h
  · rintro ⟨a, t, hm, hf⟩
    rw [show run m s = (.ok a, t) from hm]
    exact hf

/-- A sequence of two commands. -/
theorem returns_then_iff {m : Script ε σ PUnit} {f : PUnit → Script ε σ β} :
    Returns (m >>= f) s b u ↔ ∃ t, Returns m s ⟨⟩ t ∧ Returns (f ⟨⟩) t b u := by
  rw [returns_bind_iff]
  constructor
  · rintro ⟨_, t, hm, hf⟩
    exact ⟨t, hm, hf⟩
  · rintro ⟨t, hm, hf⟩
    exact ⟨_, t, hm, hf⟩

/-- What a script does with the state it finds. -/
theorem returns_get_bind_iff {f : σ → Script ε σ β} : Returns (get >>= f) s b u ↔ Returns (f s) s b u := by
  rw [Returns, run_bind, run_get]
  rfl

/-- A result is returned, and only that. -/
@[simp] theorem returns_pure_iff {b : α} :
    Returns (pure a : Script ε σ α) s b t ↔ a = b ∧ s = t := by
  rw [Returns, run_pure, Prod.mk.injEq, Except.ok.injEq]

/-- Reading returns the state. -/
@[simp] theorem returns_get_iff : Returns (get : Script ε σ σ) s t u ↔ s = t ∧ s = u := by
  rw [Returns, run_get, Prod.mk.injEq, Except.ok.injEq]

/-- A change always returns. -/
@[simp] theorem returns_modify_iff {g : σ → σ} {r : PUnit} :
    Returns (modify g : Script ε σ PUnit) s r t ↔ g s = t := by
  rw [Returns, run_modify, Prod.mk.injEq]
  exact and_iff_right rfl

/-- An error never does. -/
@[simp] theorem not_returns_throw : ¬ Returns (throw e : Script ε σ α) s a t := by
  rw [Returns, run_throw, Prod.mk.injEq]
  rintro ⟨h, -⟩
  cases h

/-- A condition that must hold for the script to go on. -/
@[simp] theorem returns_ensure_iff {c : Bool} {r : PUnit} :
    Returns (ensure c e : Script ε σ PUnit) s r t ↔ c = true ∧ s = t := by
  unfold ensure
  cases c
  · simp
  · simp

/-- What has been computed without the state leaves it. -/
@[simp] theorem returns_lift_iff {x : Except ε α} : Returns (lift x : Script ε σ α) s a t ↔ x = .ok a ∧ s = t := by
  cases x
  · simp [lift]
  · simp [lift]

/-- A loop goes through when its rounds do, one after the other. -/
theorem returns_forM_cons_iff {γ : Type} {g : γ → Script ε σ PUnit} {x : γ} {l : List γ} {r : PUnit} :
    Returns ((x :: l).forM g) s r u ↔ ∃ t, Returns (g x) s ⟨⟩ t ∧ Returns (l.forM g) t ⟨⟩ u := by
  change Returns (g x >>= fun _ => l.forM g) s r u ↔ _
  rw [returns_bind_iff]
  constructor
  · rintro ⟨_, t, hx, hl⟩
    exact ⟨t, hx, hl⟩
  · rintro ⟨t, hx, hl⟩
    exact ⟨_, t, hx, hl⟩

/-- A loop of conditions goes through when all of them hold. -/
theorem returns_forM_ensure_iff {γ : Type} {c : γ → Bool} {e : γ → ε} {l : List γ} {r : PUnit} :
    Returns (l.forM fun x => (ensure (c x) (e x) : Script ε σ PUnit)) s r t ↔ (∀ x ∈ l, c x = true) ∧ s = t := by
  induction l with
  | nil =>
    refine returns_pure_iff.trans ?_
    simp
  | cons x l ih =>
    rw [returns_forM_cons_iff]
    simp only [returns_ensure_iff, List.forall_mem_cons]
    constructor
    · rintro ⟨_, ⟨hx, rfl⟩, hl⟩
      exact ⟨⟨hx, (ih.mp hl).1⟩, (ih.mp hl).2⟩
    · rintro ⟨⟨hx, hl⟩, ht⟩
      exact ⟨s, ⟨hx, rfl⟩, ih.mpr ⟨hl, ht⟩⟩

/-- A value that must be there for the script to go on. -/
@[simp] theorem returns_orThrow_iff {o : Option α} :
    Returns (orThrow e o : Script ε σ α) s a t ↔ o = some a ∧ s = t := by
  cases o
  · simp [orThrow]
  · simp [orThrow]

/-- **Invariant rule for loops.** What every round keeps, the loop keeps. -/
theorem Returns.forM_invariant {γ : Type} {g : γ → Script ε σ PUnit} {l : List γ} {r : PUnit} (I : σ → Prop)
    (keep : ∀ x ∈ l, ∀ s t, I s → Returns (g x) s ⟨⟩ t → I t) (h : Returns (l.forM g) s r t)
    (start : I s) : I t := by
  induction l generalizing s with
  | nil =>
    obtain ⟨-, rfl⟩ := returns_pure_iff.mp h
    exact start
  | cons x l ih =>
    obtain ⟨u, hx, hl⟩ := returns_forM_cons_iff.mp h
    refine ih (fun y hy => keep y (List.mem_cons_of_mem x hy)) hl ?_
    exact keep x List.mem_cons_self s u start hx

/-- A loop whose rounds go through wherever the invariant holds goes through. -/
theorem exists_returns_forM {γ : Type} {g : γ → Script ε σ PUnit} {l : List γ} (I : List γ → σ → Prop)
    (step : ∀ x l s, I (x :: l) s → ∃ t, Returns (g x) s ⟨⟩ t ∧ I l t) (start : I l s) :
    ∃ t, Returns (l.forM g) s ⟨⟩ t := by
  induction l generalizing s with
  | nil => exact ⟨s, returns_pure_iff.mpr ⟨rfl, rfl⟩⟩
  | cons x l ih =>
    obtain ⟨t, hx, ht⟩ := step x l s start
    obtain ⟨u, hl⟩ := ih ht
    exact ⟨u, returns_forM_cons_iff.mpr ⟨t, hx, hl⟩⟩

/-! ## What a script keeps -/

variable {R : σ → σ → Prop}

/-- What a script that goes through keeps. -/
theorem Keeps.of_returns (hm : Keeps R m) (h : Returns m s a t) : R s t := by
  have hs := hm s
  rwa [h] at hs

/-- What a script that is cut short keeps. -/
theorem Keeps.of_error (hm : Keeps R m) (h : run m s = (.error e, t)) : R s t := by
  have hs := hm s
  rwa [h] at hs

/-- A script that keeps a relation keeps every weaker one. -/
theorem Keeps.mono {S : σ → σ → Prop} (hRS : ∀ s t, R s t → S s t) (hm : Keeps R m) : Keeps S m :=
  fun s => hRS _ _ (hm s)

/-- A script that ends at once keeps every reflexive relation. -/
theorem Keeps.pure (hrefl : ∀ s, R s s) (a : α) : Keeps R (pure a : Script ε σ α) := fun s => hrefl s

/-- An error keeps what a state has to itself. -/
theorem Keeps.throw (hrefl : ∀ s, R s s) (e : ε) : Keeps R (throw e : Script ε σ α) := fun s => hrefl s

/-- So does reading. -/
theorem Keeps.get (hrefl : ∀ s, R s s) : Keeps R (get : Script ε σ σ) := fun s => hrefl s

/-- A change keeps what it relates each state by. -/
theorem Keeps.modify {g : σ → σ} (h : ∀ s, R s (g s)) : Keeps R (modify g : Script ε σ PUnit) := h

/-- A check keeps what a state has to itself, whether it fails or not. -/
theorem Keeps.ensure (hrefl : ∀ s, R s s) (c : Bool) (e : ε) : Keeps R (ensure c e : Script ε σ PUnit) := by
  intro s
  cases c <;> exact hrefl s

/-- So does what is worked out without the state. -/
theorem Keeps.lift (hrefl : ∀ s, R s s) (x : Except ε α) : Keeps R (lift x : Script ε σ α) := by
  intro s
  cases x <;> exact hrefl s

/-- And so does looking for a value. -/
theorem Keeps.orThrow (hrefl : ∀ s, R s s) (e : ε) (o : Option α) : Keeps R (orThrow e o : Script ε σ α) := by
  intro s
  cases o <;> exact hrefl s

/-- A sequence relates its states when its first part does, and its second one from where the first one
gets to. -/
theorem run_bind_rel (htrans : ∀ s t u, R s t → R t u → R s u) (hm : R s (run m s).2)
    (hf : ∀ a t, Returns m s a t → R t (run (f a) t).2) : R s (run (m >>= f) s).2 := by
  have hf' : ∀ a, (run m s).1 = .ok a → R (run m s).2 (run (f a) (run m s).2).2 :=
    fun a h => hf a _ (returns_of_run h)
  rw [run_bind]
  generalize run m s = r at hm hf' ⊢
  rcases r with ⟨_ | a, t⟩
  · exact hm
  · exact htrans _ _ _ hm (hf' a rfl)

/-- A sequence keeps a transitive relation that its parts keep. -/
theorem Keeps.bind (htrans : ∀ s t u, R s t → R t u → R s u) (hm : Keeps R m) (hf : ∀ a, Keeps R (f a)) :
    Keeps R (m >>= f) := fun s => run_bind_rel htrans (hm s) fun a t _ => hf a t

/-- A rescued script keeps what it and its handler keep. -/
theorem Keeps.rescue {ε' : Type} {handler : ε → Script ε' σ α} (htrans : ∀ s t u, R s t → R t u → R s u)
    (hm : Keeps R m) (hhandler : ∀ e, Keeps R (handler e)) : Keeps R (rescue m handler) := by
  intro s
  rcases hrun : run m s with ⟨e | a, t⟩
  · rw [run_rescue_of_error hrun]
    exact htrans _ _ _ (hm.of_error hrun) (hhandler e t)
  · rw [run_rescue_of_returns hrun]
    exact hm.of_returns hrun

/-- A loop keeps what its rounds keep. -/
theorem Keeps.forM {γ : Type} {g : γ → Script ε σ PUnit} (hrefl : ∀ s, R s s)
    (htrans : ∀ s t u, R s t → R t u → R s u) (l : List γ) (hg : ∀ x ∈ l, Keeps R (g x)) :
    Keeps R (l.forM g) := by
  induction l with
  | nil => exact Keeps.pure hrefl _
  | cons x l ih =>
    refine Keeps.bind htrans (hg x List.mem_cons_self) fun _ => ?_
    exact ih fun y hy => hg y (List.mem_cons_of_mem x hy)

end Scripts
