import GexCloud.Support.Runs
import Mathlib.Data.List.Infix

/-! # Programs in stages

A program that goes through stages one after the other; in a stage several threads are at work, each
performing its actions in order. A thread can be delayed for any time, and the program can be broken
off: then no further stage is entered.

* `Stage`, `enter`, `perform`, `breakOff` — stages, and how a program goes on.
* **`Progress`** — how far a program has come: the stages before the present one are done, and each
  thread of the present one has performed a beginning of its actions.
* **`Progress.before`**, **`Progress.done_before`** — an action is performed only after the threads of
  earlier stages are through. -/

universe u

namespace Stages

variable {α : Type u}

/-- The threads of a stage, each with the actions it has yet to perform. -/
abbrev Stage (α : Type u) := List (List α)

/-- The actions of a stage. -/
def Stage.actions (stage : Stage α) : List α := stage.flatten

/-- The stages without those in front that are through. -/
def enter (todo : List (Stage α)) : List (Stage α) :=
  todo.dropWhile fun stage => stage.all List.isEmpty

/-- Thread `k` of the present stage performs the action `a`, if that is its next one. -/
def perform [DecidableEq α] (k : Nat) (a : α) (todo : List (Stage α)) : Option (List (Stage α)) :=
  match enter todo with
  | [] => none
  | stage :: rest =>
    match stage[k]? with
    | some (b :: thread) => if b = a then some (stage.set k thread :: rest) else none
    | _ => none

/-- The program is broken off: the threads under way may still go on, but no further stage is entered. -/
def breakOff (todo : List (Stage α)) : List (Stage α) := (enter todo).take 1

/-- A stage is done, `P k actions` saying that thread `k` has performed these actions in this order. -/
def Done (P : Nat → List α → Prop) (stage : Stage α) : Prop :=
  ∀ k thread, stage[k]? = some thread → P k thread

/-- **How far a program has come**: it is broken off, or it is in one of its stages, all earlier ones
being done and each thread of this one having performed what it has no more to do. -/
def Progress (program : List (Stage α)) (P : Nat → List α → Prop) (todo : List (Stage α)) : Prop :=
  todo = [] ∨ ∃ before stage after stage' after', program = before ++ stage :: after ∧
    todo = stage' :: after' ∧ after' <+: after ∧ (∀ st ∈ before, Done P st) ∧
    stage'.length = stage.length ∧
    ∀ k rest, stage'[k]? = some rest → ∃ done, stage[k]? = some (done ++ rest) ∧ P k done

variable {program todo todo' : List (Stage α)} {P Q : Nat → List α → Prop}

/-- At the start nothing is done. -/
theorem Progress.start (program : List (Stage α)) (hnil : ∀ k, P k []) : Progress program P program := by
  cases program with
  | nil => exact .inl rfl
  | cons stage after =>
    exact .inr ⟨[], stage, after, stage, after, rfl, rfl, List.prefix_rfl, List.forall_mem_nil _, rfl,
      fun k rest hk => ⟨[], hk, hnil k⟩⟩

/-- What has been performed stays performed. -/
theorem Progress.mono (h : Progress program P todo) (hPQ : ∀ k done, P k done → Q k done) :
    Progress program Q todo := by
  rcases h with h | ⟨before, stage, after, stage', after', hprogram, htodo, hafter, hdone, hlength, hthreads⟩
  · exact .inl h
  · refine .inr ⟨before, stage, after, stage', after', hprogram, htodo, hafter,
      fun st hst k thread hk => hPQ k thread (hdone st hst k thread hk), hlength, fun k rest hk => ?_⟩
    obtain ⟨done, hstage, hP⟩ := hthreads k rest hk
    exact ⟨done, hstage, hPQ k done hP⟩

/-- A stage of which nothing is left is done. -/
theorem done_of_empty {stage stage' : Stage α} (hempty : stage'.all List.isEmpty = true)
    (hlength : stage'.length = stage.length)
    (hthreads : ∀ k rest, stage'[k]? = some rest → ∃ done, stage[k]? = some (done ++ rest) ∧ P k done) :
    Done P stage := by
  intro k thread hk
  have hlt : k < stage'.length := by
    rw [hlength]
    exact (List.getElem?_eq_some_iff.mp hk).1
  have hnone : stage'[k] = [] :=
    List.isEmpty_iff.mp (List.all_eq_true.mp hempty _ (List.getElem_mem hlt))
  obtain ⟨done, hstage, hP⟩ := hthreads k [] (by rw [List.getElem?_eq_getElem hlt, hnone])
  rw [List.append_nil, hk] at hstage
  rwa [Option.some.inj hstage]

/-- Entering the next stage that has something to do. -/
theorem Progress.enter (hnil : ∀ k, P k []) (h : Progress program P todo) : Progress program P (enter todo) := by
  induction todo with
  | nil => exact .inl rfl
  | cons stage₁ rest ih =>
    by_cases hempty : stage₁.all List.isEmpty = true
    · have henter : Stages.enter (stage₁ :: rest) = Stages.enter rest :=
        List.dropWhile_cons_of_pos hempty
      rw [henter]
      refine ih ?_
      rcases h with h | ⟨before, stage, after, stage', after', hprogram, htodo, hafter, hdone, hlength, hthreads⟩
      · cases h
      obtain ⟨rfl, rfl⟩ := List.cons_eq_cons.mp htodo
      cases rest with
      | nil => exact .inl rfl
      | cons stage₂ rest =>
        obtain ⟨more, rfl⟩ := hafter
        refine .inr ⟨before ++ [stage], stage₂, rest ++ more, stage₂, rest, by simp [hprogram], rfl,
          List.prefix_append _ _, fun st hst => ?_, rfl, fun k rest hk => ⟨[], hk, hnil k⟩⟩
        rcases List.mem_append.mp hst with hst | hst
        · exact hdone st hst
        · obtain rfl := List.mem_singleton.mp hst
          exact done_of_empty hempty hlength hthreads
    · have henter : Stages.enter (stage₁ :: rest) = stage₁ :: rest :=
        List.dropWhile_cons_of_neg hempty
      rwa [henter]

/-- Breaking off. -/
theorem Progress.breakOff (hnil : ∀ k, P k []) (h : Progress program P todo) :
    Progress program P (breakOff todo) := by
  have h := h.enter hnil
  unfold Stages.breakOff
  generalize Stages.enter todo = todo at *
  rcases h with h | ⟨before, stage, after, stage', after', hprogram, htodo, hafter, hdone, hlength, hthreads⟩
  · rw [h]
    exact .inl rfl
  · subst htodo
    exact .inr ⟨before, stage, after, stage', [], hprogram, by simp, List.nil_prefix, hdone, hlength, hthreads⟩

variable [DecidableEq α] {k : Nat} {a : α}

/-- What performing an action does to the program. -/
theorem perform_eq_some_iff : perform k a todo = some todo' ↔
    ∃ stage rest thread, enter todo = stage :: rest ∧ stage[k]? = some (a :: thread) ∧
      todo' = stage.set k thread :: rest := by
  unfold perform
  split
  · rename_i h
    simp [h]
  · rename_i stage rest h
    split
    · rename_i b thread hk
      constructor
      · intro heq
        split at heq
        · rename_i hb
          subst hb
          exact ⟨stage, rest, thread, h, hk, (Option.some.inj heq).symm⟩
        · cases heq
      · rintro ⟨stage', rest', thread', h', hk', rfl⟩
        rw [h] at h'
        obtain ⟨rfl, rfl⟩ := List.cons_eq_cons.mp h'
        rw [hk] at hk'
        obtain ⟨rfl, rfl⟩ := List.cons_eq_cons.mp (Option.some.inj hk')
        rw [if_pos rfl]
    · rename_i hk
      constructor
      · intro heq
        cases heq
      · rintro ⟨stage', rest', thread', h', hk', rfl⟩
        rw [h] at h'
        obtain ⟨rfl, rfl⟩ := List.cons_eq_cons.mp h'
        exact absurd hk' (hk a thread')

/-- **An action is performed only after the threads of all earlier stages are through.** -/
theorem Progress.before (hnil : ∀ k, P k []) (h : Progress program P todo)
    (hperform : perform k a todo = some todo') :
    ∃ before stage after, program = before ++ stage :: after ∧ a ∈ stage.actions ∧ ∀ st ∈ before, Done P st := by
  obtain ⟨stage₁, rest, thread, henter, hk, -⟩ := perform_eq_some_iff.mp hperform
  have h := h.enter hnil
  rw [henter] at h
  rcases h with h | ⟨before, stage, after, stage', after', hprogram, htodo, hafter, hdone, hlength, hthreads⟩
  · cases h
  · obtain ⟨rfl, rfl⟩ := List.cons_eq_cons.mp htodo
    obtain ⟨done, hstage, -⟩ := hthreads k _ hk
    exact ⟨before, stage, after, hprogram,
      List.mem_flatten.mpr ⟨_, List.mem_of_getElem? hstage, by simp⟩, hdone⟩

/-- An action that does not occur in the first stages of a program is performed only after all of them. -/
theorem Progress.done_before {first later : List (Stage α)} (hnil : ∀ k, P k [])
    (h : Progress (first ++ later) P todo) (hperform : perform k a todo = some todo')
    (ha : ∀ st ∈ first, a ∉ st.actions) : ∀ st ∈ first, Done P st := by
  obtain ⟨before, stage, after, hprogram, hmem, hdone⟩ := h.before hnil hperform
  rcases List.append_eq_append_iff.mp hprogram with ⟨rest, hbefore, -⟩ | ⟨rest, hfirst, hrest⟩
  · intro st hst
    exact hdone st (by rw [hbefore]; exact List.mem_append_left _ hst)
  · cases rest with
    | nil =>
      intro st hst
      rw [List.append_nil] at hfirst
      exact hdone st (hfirst ▸ hst)
    | cons stage' rest =>
      -- the stage of the action would be one of the first
      obtain ⟨rfl, -⟩ := List.cons_eq_cons.mp hrest
      exact absurd hmem (ha stage (by rw [hfirst]; simp))

/-- Performing an action. -/
theorem Progress.perform (hnil : ∀ k, P k []) (h : Progress program P todo)
    (hperform : perform k a todo = some todo') (hPQ : ∀ k done, P k done → Q k done)
    (ha : ∀ done, P k done → Q k (done ++ [a])) : Progress program Q todo' := by
  obtain ⟨stage₁, rest, thread, henter, hk, rfl⟩ := perform_eq_some_iff.mp hperform
  have h := h.enter hnil
  rw [henter] at h
  rcases h with h | ⟨before, stage, after, stage', after', hprogram, htodo, hafter, hdone, hlength, hthreads⟩
  · cases h
  · obtain ⟨rfl, rfl⟩ := List.cons_eq_cons.mp htodo
    have hlt : k < stage₁.length := (List.getElem?_eq_some_iff.mp hk).1
    refine .inr ⟨before, stage, after, stage₁.set k thread, rest, hprogram, rfl, hafter,
      fun st hst j done hj => hPQ j done (hdone st hst j done hj), by rw [List.length_set, hlength], ?_⟩
    intro j left hj
    by_cases hjk : k = j
    · -- the thread that has performed the action
      subst hjk
      rw [List.getElem?_set_self hlt, Option.some.injEq] at hj
      subst hj
      obtain ⟨done, hstage, hP⟩ := hthreads k _ hk
      exact ⟨done ++ [a], by rw [hstage, List.append_assoc, List.singleton_append], ha done hP⟩
    · rw [List.getElem?_set_ne hjk] at hj
      obtain ⟨done, hstage, hP⟩ := hthreads j left hj
      exact ⟨done, hstage, hPQ j done hP⟩

end Stages
