import GexCloud.Support.Texts

/-! # The part of a line between two marks

What the regular expression `opening.*closing` finds in a line: it starts at the first `opening` that has
a `closing` behind it, and, since `*` is greedy, ends with the last `closing`.

* `upToLast` — a line up to the last `closing`.
* `spanned` — the match, and **`spanned_eq_none_iff`**: when there is none.
* **`spanned_of_last`** — a line that starts with `opening` and has one `closing`. -/

namespace Texts

variable {opening closing : Text}

/-- A line up to the last `closing`, with it. -/
def upToLast (closing : Text) : Text → Option Text
  | [] => none
  | c :: s =>
    match upToLast closing s with
    | some m => some (c :: m)
    | none => if closing <+: c :: s then some closing else none

/-- The match of `opening.*closing` in a line. -/
def spanned (opening closing : Text) : Text → Option Text
  | [] => none
  | c :: s =>
    if opening <+: c :: s then
      match upToLast closing ((c :: s).drop opening.length) with
      | some m => some (opening ++ m)
      | none => spanned opening closing s
    else spanned opening closing s

/-- It starts the line and ends with `closing`. -/
theorem upToLast_spec {s m : Text} (h : upToLast closing s = some m) :
    m <+: s ∧ closing <:+ m := by
  induction s generalizing m with
  | nil => cases h
  | cons c s ih =>
    cases hs : upToLast closing s with
    | some m' =>
      simp only [upToLast, hs] at h
      obtain rfl := Option.some.inj h
      obtain ⟨hstart, hsuffix⟩ := ih hs
      exact ⟨List.cons_prefix_cons.mpr ⟨rfl, hstart⟩, hsuffix.trans (List.suffix_cons c m')⟩
    | none =>
      simp only [upToLast, hs] at h
      by_cases hhere : closing <+: c :: s
      · rw [if_pos hhere] at h
        obtain rfl := Option.some.inj h
        exact ⟨hhere, List.suffix_rfl⟩
      · rw [if_neg hhere] at h
        cases h

/-- There is one iff `closing` is in the line. -/
theorem upToLast_eq_none_iff {s : Text} (hne : closing ≠ []) :
    upToLast closing s = none ↔ ¬closing <:+: s := by
  induction s with
  | nil => simp [upToLast, List.infix_nil, hne]
  | cons c s ih =>
    rw [List.infix_cons_iff, not_or, ← ih]
    cases hs : upToLast closing s with
    | some m' => simp [upToLast, hs]
    | none => simp [upToLast, hs]

/-- What is in front of it is kept. -/
theorem upToLast_append {s m : Text} (h : upToLast closing s = some m) (front : Text) :
    upToLast closing (front ++ s) = some (front ++ m) := by
  induction front with
  | nil => exact h
  | cons c front ih => rw [List.cons_append, upToLast, ih, List.cons_append]

/-- The first `closing` is the last when none is behind, also none that starts within it. -/
theorem upToLast_of_last {rest : Text} {c : Char} {tail : Text} (hclosing : closing = c :: tail)
    (h : ¬closing <:+: tail ++ rest) : upToLast closing (closing ++ rest) = some closing := by
  have hnone : upToLast closing (tail ++ rest) = none :=
    (upToLast_eq_none_iff (by simp [hclosing])).mpr h
  have hhere : closing <+: c :: (tail ++ rest) := by
    rw [← List.cons_append, ← hclosing]
    exact List.prefix_append closing rest
  have hcons : closing ++ rest = c :: (tail ++ rest) := by rw [hclosing, List.cons_append]
  rw [hcons, upToLast, hnone]
  exact if_pos hhere

/-- A line that starts with `opening`, and what is behind it up to the last `closing`. -/
theorem spanned_append {s m : Text} (hne : opening ≠ []) (h : upToLast closing s = some m) :
    spanned opening closing (opening ++ s) = some (opening ++ m) := by
  obtain ⟨c, opening', rfl⟩ := List.exists_cons_of_ne_nil hne
  have hhere : c :: opening' <+: c :: (opening' ++ s) := List.prefix_append (c :: opening') s
  rw [List.cons_append, spanned, if_pos hhere, ← List.cons_append, List.drop_left, h]

/-- **A line that starts with `opening` and has one `closing`**. -/
theorem spanned_of_last {front rest : Text} {c : Char} {tail : Text} (hne : opening ≠ [])
    (hclosing : closing = c :: tail) (h : ¬closing <:+: tail ++ rest) :
    spanned opening closing (opening ++ (front ++ (closing ++ rest))) =
      some (opening ++ (front ++ closing)) :=
  spanned_append hne (upToLast_append (upToLast_of_last hclosing h) front)

/-- **No match** is no `closing` anywhere behind an `opening`. -/
theorem spanned_eq_none_iff {s : Text} (hopening : opening ≠ []) (hclosing : closing ≠ []) :
    spanned opening closing s = none ↔
    ∀ front behind, s = front ++ (opening ++ behind) → ¬closing <:+: behind := by
  induction s with
  | nil =>
    refine iff_of_true rfl fun front behind h => ?_
    exact absurd (List.append_eq_nil_iff.mp (List.append_eq_nil_iff.mp h.symm).2).1 hopening
  | cons c s ih =>
    -- a match here, or one further on
    have hsplit : (∀ front behind, c :: s = front ++ (opening ++ behind) → ¬closing <:+: behind) ↔
        (∀ behind, c :: s = opening ++ behind → ¬closing <:+: behind) ∧
        ∀ front behind, s = front ++ (opening ++ behind) → ¬closing <:+: behind := by
      constructor
      · intro h
        exact ⟨fun behind => h [] behind, fun front behind hs => h (c :: front) behind (by rw [hs]; rfl)⟩
      · rintro ⟨hhere, hlater⟩ front behind hs
        cases front with
        | nil => exact hhere behind hs
        | cons d front =>
          rw [List.cons_append, List.cons_eq_cons] at hs
          exact hlater front behind hs.2
    rw [hsplit, ← ih]
    by_cases hhere : opening <+: c :: s
    · obtain ⟨behind, hbehind⟩ := hhere
      have hdrop : (c :: s).drop opening.length = behind := by rw [← hbehind, List.drop_left]
      have hone : (∀ behind, c :: s = opening ++ behind → ¬closing <:+: behind) ↔
          ¬closing <:+: behind := by
        constructor
        · intro h
          exact h behind hbehind.symm
        · rintro h behind' hs
          rwa [← List.append_cancel_left (hbehind.trans hs)]
      rw [hone, ← upToLast_eq_none_iff hclosing, spanned, if_pos ⟨behind, hbehind⟩, hdrop]
      cases upToLast closing behind with
      | some m => simp
      | none => simp
    · rw [spanned, if_neg hhere, iff_and_self]
      rintro - behind hs
      exact absurd ⟨behind, hs.symm⟩ hhere

end Texts
