import GexCloud.Support.Scripts

/-! # Triples

A script from a state with the precondition leaves the postcondition when it goes through, and another one when it is
cut short.

* `Triple` — a script with its conditions.
* `Triple.pure`, `Triple.get`, `Triple.modify`, `Triple.ensure` — the rules for steps.
* **`Triple.bind`**, `Triple.ite`, **`Triple.forM`** — the rules for sequences, cases and loops. -/

namespace Scripts

variable {ε σ α β γ : Type} {P : σ → Prop} {Q Q' : α → σ → Prop} {E : σ → Prop} {m : Script ε σ α}

/-- **A script with its conditions**: before, when it goes through, and when it is cut short. -/
def Triple (P : σ → Prop) (m : Script ε σ α) (Q : α → σ → Prop) (E : σ → Prop) : Prop :=
  ∀ s, P s → (∀ a t, Returns m s a t → Q a t) ∧ ∀ e t, run m s = (.error e, t) → E t

/-- A result leaves the state. -/
theorem Triple.pure {a : α} (h : ∀ s, P s → Q a s) : Triple P (pure a : Script ε σ α) Q E := by
  intro s hs
  refine ⟨fun b t hreturns => ?_, fun e t herror => ?_⟩
  · obtain ⟨rfl, rfl⟩ := returns_pure_iff.mp hreturns
    exact h s hs
  · cases herror

/-- So does an error. -/
theorem Triple.throw {e : ε} (h : ∀ s, P s → E s) : Triple P (throw e : Script ε σ α) Q E := by
  intro s hs
  refine ⟨fun b t hreturns => absurd hreturns not_returns_throw, fun e' t herror => ?_⟩
  obtain ⟨-, rfl⟩ := Prod.mk.inj herror
  exact h s hs

/-- What a script does with the state it finds. -/
theorem Triple.get {f : σ → Script ε σ α} (h : ∀ s, P s → Triple (fun t => t = s) (f s) Q E) :
    Triple P (get >>= f) Q E := by
  intro s hs
  have hrun : run (MonadState.get >>= f) s = run (f s) s := run_bind_of_returns (returns_get_iff.mpr ⟨rfl, rfl⟩)
  unfold Returns
  rw [hrun]
  exact h s hs s rfl

/-- Of the state that is found, no more than the precondition is needed later. -/
theorem Triple.get_keep {f : σ → Script ε σ α} (h : ∀ s, P s → Triple P (f s) Q E) :
    Triple P (MonadState.get >>= f) Q E := by
  refine Triple.get fun s hs t ht => h s hs t ?_
  rw [ht]
  exact hs

/-- The rule for a change of the state. -/
theorem Triple.modify {g : σ → σ} {Q : PUnit → σ → Prop} (h : ∀ s, P s → Q ⟨⟩ (g s)) :
    Triple P (modify g : Script ε σ PUnit) Q E := by
  intro s hs
  refine ⟨fun b t hreturns => ?_, fun e t herror => ?_⟩
  · obtain rfl := returns_modify_iff.mp hreturns
    exact h s hs
  · cases herror

/-- The rule for a check, which ends the script when it fails. -/
theorem Triple.ensure {c : Bool} {e : ε} {Q : PUnit → σ → Prop} (hok : ∀ s, P s → c = true → Q ⟨⟩ s)
    (herror : ∀ s, P s → E s) : Triple P (ensure c e : Script ε σ PUnit) Q E := by
  cases c with
  | true => exact Triple.pure fun s hs => hok s hs rfl
  | false => exact Triple.throw herror

/-- **The rule for sequences.** -/
theorem Triple.bind {R : α → σ → Prop} {f : α → Script ε σ β} {Q : β → σ → Prop} (hm : Triple P m R E)
    (hf : ∀ a, Triple (R a) (f a) Q E) : Triple P (m >>= f) Q E := by
  intro s hs
  obtain ⟨hok, herror⟩ := hm s hs
  refine ⟨fun b u hreturns => ?_, fun e u hrun => ?_⟩
  · obtain ⟨a, t, hreturnsm, hreturnsf⟩ := returns_bind_iff.mp hreturns
    exact (hf a t (hok a t hreturnsm)).1 b u hreturnsf
  · rcases hrunm : run m s with ⟨e' | a, t⟩
    · rw [run_bind_of_error hrunm] at hrun
      obtain ⟨-, rfl⟩ := Prod.mk.inj hrun
      exact herror e' t hrunm
    · rw [run_bind_of_returns hrunm] at hrun
      exact (hf a t (hok a t hrunm)).2 e u hrun

/-- A precondition can be strengthened. -/
theorem Triple.pre {R : σ → Prop} (hm : Triple R m Q E) (h : ∀ s, P s → R s) : Triple P m Q E :=
  fun s hs => hm s (h s hs)

/-- The postconditions can be weakened. -/
theorem Triple.mono {E' : σ → Prop} (hm : Triple P m Q' E') (hQ : ∀ a s, Q' a s → Q a s) (hE : ∀ s, E' s → E s) :
    Triple P m Q E := by
  intro s hs
  obtain ⟨hok, herror⟩ := hm s hs
  exact ⟨fun a t hreturns => hQ a t (hok a t hreturns), fun e t hrun => hE t (herror e t hrun)⟩

/-- The rule for a branch: each side under its condition. -/
theorem Triple.ite {c : Prop} [Decidable c] {m' : Script ε σ α} (hpos : c → Triple P m Q E)
    (hneg : ¬ c → Triple P m' Q E) : Triple P (if c then m else m') Q E := by
  split
  · exact hpos ‹c›
  · exact hneg ‹¬ c›

/-- **The rule for loops**: what every round keeps. -/
theorem Triple.forM {g : γ → Script ε σ PUnit} (l : List γ) (hg : ∀ x ∈ l, Triple P (g x) (fun _ => P) E) :
    Triple P (l.forM g) (fun _ => P) E := by
  induction l with
  | nil => exact Triple.pure fun _ hs => hs
  | cons x l ih =>
    exact Triple.bind (hg x List.mem_cons_self) fun _ => ih fun y hy => hg y (List.mem_cons_of_mem x hy)

/-- A triple says what is left of a run. -/
theorem Triple.of_run {Q : α → σ → Prop} {I : σ → Prop} (hm : Triple P m Q E) (hQ : ∀ a s, Q a s → I s)
    (hE : ∀ s, E s → I s) {s : σ} (hs : P s) : I (run m s).2 := by
  rcases hrun : run m s with ⟨e | a, t⟩
  · exact hE t ((hm s hs).2 e t hrun)
  · exact hQ a t ((hm s hs).1 a t hrun)

end Scripts
