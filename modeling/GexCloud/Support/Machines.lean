import GexCloud.Support.Runs

/-! # Two machines that send each other messages

Two machines are joined by two channels, one a direction. A machine receives what the other has sent, in order,
and waits while there is nothing; once the other has halted, it is told so. Nothing is said of their speeds.

* `Diamond` — steps that can be brought together again; **`Diamond.run_of_run`**: then, if one run comes to an end,
  every run goes on to that end, and in the same number of steps altogether.
* `Action`, `Link`, `step` — what a machine does next, the two machines with their channels, and their steps.
* **`diamond_step`** — the steps of the two machines can be brought together.
* `Process` — a program that sends and receives, as a machine; `Process.bind` puts programs one after the other.
* `Process.burst`, `Process.after`, `Process.eval` — what a program sends before it waits, what is left of it after
  some messages, and what it comes to on a list of messages.
* `Process.Ran` — how far a program has gone. -/

universe u v

namespace Machines

open Runs

/-! ## Steps that can be brought together -/

section Diamond

variable {σ : Type u} {α : Type v} {step : σ → α → σ → Prop} {s t u : σ} {a : α} {as bs : List α}

/-- Different steps from one state can be followed by one step each into the same state. -/
def Diamond (step : σ → α → σ → Prop) : Prop :=
  ∀ s a t b u, step s a t → step s b u → t = u ∨ ∃ v, (∃ b', step t b' v) ∧ ∃ a', step u a' v

/-- No step leads on. -/
def Final (step : σ → α → σ → Prop) (s : σ) : Prop := ∀ a t, ¬step s a t

/-- A step can be taken first on the way to a final state. -/
theorem Diamond.run_of_step (h : Diamond step) (hfinal : Final step u) (hrun : Run step s as u)
    (hstep : step s a t) : ∃ bs, Run step t bs u ∧ bs.length + 1 = as.length := by
  -- induction on the run: its first step and the given one are brought together
  induction hrun generalizing t a with
  | nil => exact absurd hstep (hfinal _ _)
  | @cons s r u b as head tail ih =>
    obtain rfl | ⟨v, ⟨b', htv⟩, a', hrv⟩ := h _ _ _ _ _ hstep head
    · exact ⟨as, tail, rfl⟩
    · obtain ⟨bs, hbs, hlen⟩ := ih hfinal hrv
      exact ⟨b' :: bs, .cons htv hbs, by rw [List.length_cons, List.length_cons, hlen]⟩

/-- **Every run goes on to the end that one run has**, and no schedule takes more steps than another. -/
theorem Diamond.run_of_run (h : Diamond step) (hfinal : Final step u) (hrun : Run step s as u)
    (hother : Run step s bs t) : ∃ cs, Run step t cs u ∧ bs.length + cs.length = as.length := by
  induction hother generalizing as with
  | nil => exact ⟨as, hrun, Nat.zero_add _⟩
  | cons head _ ih =>
    obtain ⟨as', hrun', hlen⟩ := h.run_of_step hfinal hrun head
    obtain ⟨cs, hcs, hlen'⟩ := ih hrun'
    exact ⟨cs, hcs, by rw [List.length_cons]; omega⟩

end Diamond

/-! ## Machines -/

variable {M N σ τ : Type}

/-- What a machine does next, when it sends messages `M` and receives messages `N`. -/
inductive Action (M N σ : Type)
  | halt
  | send (m : M) (s : σ)
  /-- It waits for a message; `none` is the end of the messages. -/
  | receive (k : Option N → σ)

/-- Two machines with the messages under way. -/
@[ext] structure Link (M N σ τ : Type) where
  left : σ
  right : τ
  /-- From the left machine to the right one. -/
  up : List M
  /-- From the right machine to the left one. -/
  down : List N

/-- The two machines in each other's place. -/
def Link.swap (c : Link M N σ τ) : Link N M τ σ := ⟨c.right, c.left, c.down, c.up⟩

/-- Which machine takes a step. -/
inductive Side
  | left
  | right
  deriving DecidableEq

/-- Whether a machine has halted. -/
def Action.halted : Action M N σ → Bool
  | .halt => true
  | .send _ _ => false
  | .receive _ => false

/-- The step of the left machine, when it can take one. -/
def stepLeft (P : σ → Action M N σ) (Q : τ → Action N M τ) (c : Link M N σ τ) : Option (Link M N σ τ) :=
  match P c.left with
  | .halt => none
  | .send m s => some { c with left := s, up := c.up ++ [m] }
  | .receive k =>
    match c.down with
    | n :: down => some { c with left := k (some n), down := down }
    | [] => if (Q c.right).halted then some { c with left := k none } else none

/-- A step of one of the machines. -/
def step (P : σ → Action M N σ) (Q : τ → Action N M τ) (c : Link M N σ τ) : Side → Link M N σ τ → Prop
  | .left, c' => stepLeft P Q c = some c'
  | .right, c' => stepLeft Q P c.swap = some c'.swap

variable {P : σ → Action M N σ} {Q : τ → Action N M τ} {c c₁ c₂ : Link M N σ τ}

/-- What a step of the left machine can be. -/
theorem stepLeft_cases (h : stepLeft P Q c = some c₁) :
    (∃ m s, P c.left = .send m s ∧ c₁ = ⟨s, c.right, c.up ++ [m], c.down⟩) ∨
      (∃ k n down, P c.left = .receive k ∧ c.down = n :: down ∧ c₁ = ⟨k (some n), c.right, c.up, down⟩) ∨
      ∃ k, P c.left = .receive k ∧ c.down = [] ∧ (Q c.right).halted = true ∧
        c₁ = ⟨k none, c.right, c.up, c.down⟩ := by
  unfold stepLeft at h
  cases hP : P c.left with
  | halt => simp [hP] at h
  | send m s =>
    simp only [hP, Option.some.injEq] at h
    exact .inl ⟨m, s, rfl, h.symm⟩
  | receive k =>
    simp only [hP] at h
    cases hdown : c.down with
    | nil =>
      simp only [hdown, Option.ite_none_right_eq_some, Option.some.injEq] at h
      exact .inr (.inr ⟨k, rfl, rfl, h.1, h.2.symm⟩)
    | cons n down =>
      simp only [hdown, Option.some.injEq] at h
      exact .inr (.inl ⟨k, n, down, rfl, rfl, h.symm⟩)

/-- What a step of the right machine can be. -/
theorem stepRight_cases (h : step P Q c .right c₁) :
    (∃ m s, Q c.right = .send m s ∧ c₁ = ⟨c.left, s, c.up, c.down ++ [m]⟩) ∨
      (∃ k n up, Q c.right = .receive k ∧ c.up = n :: up ∧ c₁ = ⟨c.left, k (some n), up, c.down⟩) ∨
      ∃ k, Q c.right = .receive k ∧ c.up = [] ∧ (P c.left).halted = true ∧
        c₁ = ⟨c.left, k none, c.up, c.down⟩ := by
  obtain ⟨l, r, up, down⟩ := c₁
  obtain ⟨m, s, hQ, heq⟩ | ⟨k, n, rest, hQ, hup, heq⟩ | ⟨k, hQ, hup, hhalted, heq⟩ := stepLeft_cases h
  · simp only [Link.swap, Link.mk.injEq] at heq
    obtain ⟨rfl, rfl, rfl, rfl⟩ := heq
    exact .inl ⟨m, _, hQ, rfl⟩
  · simp only [Link.swap, Link.mk.injEq] at heq
    obtain ⟨rfl, rfl, rfl, rfl⟩ := heq
    exact .inr (.inl ⟨k, n, _, hQ, hup, rfl⟩)
  · simp only [Link.swap, Link.mk.injEq] at heq
    obtain ⟨rfl, rfl, rfl, rfl⟩ := heq
    exact .inr (.inr ⟨k, hQ, hup, hhalted, rfl⟩)

/-- A machine that takes a step has not halted. -/
theorem halted_eq_false_of_stepLeft (h : stepLeft P Q c = some c₁) : (P c.left).halted = false := by
  obtain ⟨m, s, hP, -⟩ | ⟨k, n, down, hP, -, -⟩ | ⟨k, hP, -, -, -⟩ := stepLeft_cases h <;> rw [hP] <;> rfl

/-- The step of the left machine when it sends. -/
theorem stepLeft_send {m : M} {s : σ} (h : P c.left = .send m s) :
    stepLeft P Q c = some ⟨s, c.right, c.up ++ [m], c.down⟩ := by
  rw [stepLeft, h]

/-- The step of the left machine when it receives. -/
theorem stepLeft_receive {k : Option N → σ} {n : N} {down : List N} (h : P c.left = .receive k)
    (hdown : c.down = n :: down) : stepLeft P Q c = some ⟨k (some n), c.right, c.up, down⟩ := by
  rw [stepLeft, h]
  simp only [hdown]

/-- Steps of the two machines commute. -/
theorem exists_of_steps (hl : step P Q c .left c₁) (hr : step P Q c .right c₂) :
    ∃ c', step P Q c₁ .right c' ∧ step P Q c₂ .left c' := by
  have hlive := halted_eq_false_of_stepLeft hl
  have hlive' : (Q c.right).halted = false := halted_eq_false_of_stepLeft hr
  obtain ⟨m, s, hP, rfl⟩ | ⟨k, n, down, hP, hdown, rfl⟩ | ⟨k, hP, hdown, hhalted, rfl⟩ := stepLeft_cases hl
  · obtain ⟨m', s', hQ, rfl⟩ | ⟨k', n', up, hQ, hup, rfl⟩ | ⟨k', hQ, hup, hhalted', rfl⟩ := stepRight_cases hr
    · exact ⟨⟨s, s', c.up ++ [m], c.down ++ [m']⟩, stepLeft_send hQ, stepLeft_send hP⟩
    · refine ⟨⟨s, k' (some n'), up ++ [m], c.down⟩, ?_, stepLeft_send hP⟩
      exact stepLeft_receive (c := Link.swap _) hQ (congrArg (· ++ [m]) hup)
    · exact absurd (hhalted'.symm.trans hlive) (by decide)
  · obtain ⟨m', s', hQ, rfl⟩ | ⟨k', n', up, hQ, hup, rfl⟩ | ⟨k', hQ, hup, hhalted', rfl⟩ := stepRight_cases hr
    · refine ⟨⟨k (some n), s', c.up, down ++ [m']⟩, stepLeft_send hQ, ?_⟩
      exact stepLeft_receive hP (congrArg (· ++ [m']) hdown)
    · exact ⟨⟨k (some n), k' (some n'), up, down⟩, stepLeft_receive (c := Link.swap _) hQ hup,
        stepLeft_receive hP hdown⟩
    · exact absurd (hhalted'.symm.trans hlive) (by decide)
  · exact absurd (hhalted.symm.trans hlive') (by decide)

/-- **Whatever the schedule**: the steps of the two machines can be brought together. -/
theorem diamond_step (P : σ → Action M N σ) (Q : τ → Action N M τ) : Diamond (step P Q) := by
  intro c a c₁ b c₂ h₁ h₂
  cases a with
  | left =>
    cases b with
    | left => exact .inl (Option.some.inj (h₁.symm.trans h₂))
    | right =>
      obtain ⟨c', h₁', h₂'⟩ := exists_of_steps h₁ h₂
      exact .inr ⟨c', ⟨.right, h₁'⟩, .left, h₂'⟩
  | right =>
    cases b with
    | left =>
      obtain ⟨c', h₂', h₁'⟩ := exists_of_steps h₂ h₁
      exact .inr ⟨c', ⟨.left, h₁'⟩, .right, h₂'⟩
    | right =>
      left
      have hswap := Option.some.inj (h₁.symm.trans h₂)
      exact congrArg Link.swap hswap

/-- Machines that have both halted take no step. -/
theorem final_of_halted (hl : (P c.left).halted = true) (hr : (Q c.right).halted = true) :
    Final (step P Q) c := by
  rintro (_ | _) c' h
  · exact absurd (hl.symm.trans (halted_eq_false_of_stepLeft h)) (by decide)
  · exact absurd (hr.symm.trans (halted_eq_false_of_stepLeft h)) (by decide)

/-! ## Processes -/

/-- A program that sends and receives. -/
inductive Process (M N α : Type)
  | done (a : α)
  | send (m : M) (p : Process M N α)
  | receive (k : Option N → Process M N α)

namespace Process

variable {α β : Type}

/-- A program as a machine. -/
def next : Process M N α → Action M N (Process M N α)
  | .done _ => .halt
  | .send m p => .send m p
  | .receive k => .receive k

/-- One program after another. -/
def bind : Process M N α → (α → Process M N β) → Process M N β
  | .done a, f => f a
  | .send m p, f => .send m (p.bind f)
  | .receive k, f => .receive fun n => (k n).bind f

/-- What a program sends before it waits or is done. -/
def burst : Process M N α → List M
  | .done _ => []
  | .send m p => m :: p.burst
  | .receive _ => []

/-- What is left of a program after some messages. -/
def after : Process M N α → List N → Process M N α
  | p, [] => p
  | .done a, _ :: _ => .done a
  | .send _ p, n :: ns => p.after (n :: ns)
  | .receive k, n :: ns => (k (some n)).after ns

/-- What a program comes to on a list of messages behind which there are no more, and the messages it leaves. -/
def eval : Process M N α → List N → α × List N
  | .done a, ns => (a, ns)
  | .send _ p, ns => p.eval ns
  | .receive k, n :: ns => (k (some n)).eval ns
  | .receive k, [] => (k none).eval []

/-- A program that sends next. -/
theorem eq_send_of_next {p q : Process M N α} {m : M} (h : p.next = .send m q) : p = .send m q := by
  cases p <;> cases h
  rfl

/-- A program that waits next. -/
theorem eq_receive_of_next {p : Process M N α} {k : Option N → Process M N α} (h : p.next = .receive k) :
    p = .receive k := by
  cases p <;> cases h
  rfl

@[simp] theorem after_nil (p : Process M N α) : p.after [] = p := by
  cases p <;> rfl

/-- What a program sends first is not needed for what is left of it. -/
theorem after_send (m : M) (p : Process M N α) {ns : List N} (h : ns ≠ []) :
    (Process.send m p).after ns = p.after ns := by
  cases ns with
  | nil => exact absurd rfl h
  | cons n ns => rfl

/-- A program has gone so far: it has received these messages and sent those. -/
inductive Ran (p : Process M N α) : List N → List M → Process M N α → Prop
  | start : Ran p [] [] p
  | sent {ns : List N} {ms : List M} {m : M} {q : Process M N α} (h : Ran p ns ms (.send m q)) :
      Ran p ns (ms ++ [m]) q
  | received {ns : List N} {ms : List M} {k : Option N → Process M N α} (h : Ran p ns ms (.receive k)) (n : N) :
      Ran p (ns ++ [n]) ms (k (some n))

/-- The messages come one after the other. -/
theorem eval_bind (p : Process M N α) (f : α → Process M N β) (ns : List N) :
    (p.bind f).eval ns = (f (p.eval ns).1).eval (p.eval ns).2 := by
  induction p generalizing ns with
  | done a => rfl
  | send m p ih => exact ih ns
  | receive k ih =>
    cases ns with
    | nil => exact ih none []
    | cons n ns => exact ih (some n) ns

end Process

end Machines
