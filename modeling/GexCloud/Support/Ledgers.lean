import Mathlib.Data.List.Basic

/-! # Ledgers

What is acquired must be released, and is used only in between. A ledger is the list of what has been done with the
resources of one kind, of which there is at most one at a time.

* `Entry`, `post` — an entry, and what is held after it, when it is in order.
* `Tracks` — a ledger that is in order, with what is held in the end.
* **`tracks_append_iff`** — a ledger is in order when its parts are.
* `Tracks.event` — one more event, of those that a ledger is made of. -/

namespace Ledgers

/-- An entry about a resource. -/
inductive Entry (R : Type)
  | acquire (r : R)
  /-- It is acquired unless it is held. -/
  | renew (r : R)
  | use (r : R)
  | release (r : R)
  /-- It is not to be held. -/
  | without (r : R)

variable {E R : Type} [DecidableEq R] {held held' : Option R} {entries entries' : List (Entry R)} {r : R}

/-- What is held after an entry; `none` when the entry is not in order. -/
def post (held : Option R) : Entry R → Option (Option R)
  | .acquire r => if held = none then some (some r) else none
  | .renew r => if held = none ∨ held = some r then some (some r) else none
  | .use r => if held = some r then some held else none
  | .release r => if held = some r then some none else none
  | .without r => if held = some r then none else some held

/-- What is held after a list of entries. -/
def follow : Option R → List (Entry R) → Option (Option R)
  | held, [] => some held
  | held, entry :: entries => (post held entry).bind fun held => follow held entries

/-- **A ledger is in order**, and this is held in the end. -/
def Tracks (held : Option R) (entries : List (Entry R)) : Prop := follow none entries = some held

/-- A ledger is followed part by part. -/
theorem follow_append (held : Option R) (entries entries' : List (Entry R)) :
    follow held (entries ++ entries') = (follow held entries).bind fun held => follow held entries' := by
  induction entries generalizing held with
  | nil => rfl
  | cons entry entries ih =>
    rw [List.cons_append, follow, follow]
    cases post held entry with
    | none => rfl
    | some held => exact ih held

/-- In the beginning nothing is held. -/
theorem tracks_nil : Tracks (none : Option R) [] := rfl

/-- **A ledger is in order when its parts are**, one after the other. -/
theorem tracks_append_iff : Tracks held' (entries ++ entries') ↔
    ∃ held, Tracks held entries ∧ follow held entries' = some held' := by
  rw [Tracks, follow_append, Option.bind_eq_some_iff]
  rfl

/-- What is used is held. -/
theorem Tracks.of_use (h : Tracks held (entries ++ .use r :: entries')) : Tracks (some r) entries := by
  obtain ⟨before, hbefore, hrest⟩ := tracks_append_iff.mp h
  rw [follow, post] at hrest
  split at hrest
  · rename_i heq
    rwa [heq] at hbefore
  · cases hrest

variable {entry : E → Option (Entry R)} {events : List E} {e : E}

/-- What is held after one more event. -/
theorem Tracks.event (h : Tracks held (events.filterMap entry)) (he : follow held (entry e).toList = some held') :
    Tracks held' ((events ++ [e]).filterMap entry) := by
  rw [List.filterMap_append]
  refine tracks_append_iff.mpr ⟨held, h, ?_⟩
  cases hentry : entry e with
  | none =>
    rw [List.filterMap_cons_none hentry]
    rwa [hentry] at he
  | some x =>
    rw [List.filterMap_cons_some hentry]
    rwa [hentry] at he

/-- An event that makes no entry. -/
theorem Tracks.event_none (h : Tracks held (events.filterMap entry)) (he : entry e = none) :
    Tracks held ((events ++ [e]).filterMap entry) := by
  refine h.event ?_
  rw [he]
  rfl

/-- An event that makes an entry in order. -/
theorem Tracks.event_some {x : Entry R} (h : Tracks held (events.filterMap entry)) (he : entry e = some x)
    (hpost : post held x = some held') : Tracks held' ((events ++ [e]).filterMap entry) := by
  refine h.event ?_
  rw [he, Option.toList_some, follow, hpost]
  rfl

end Ledgers
