import GexCloud.Support.Texts

/-! # Glob patterns

Which paths a glob pattern finds, for patterns made of literal characters, the wildcard `*` and the
component `**`. A path is the list of its components.

* `Hidden` — a name with a leading dot, which no wildcard stands for.
* `wild` — a name against the characters of a pattern; `fnmatch` also heeds the leading dot.
* `globMatch` — a path against the components of a pattern.
* **`globMatch_suffix_iff`** — what `**/*suffix` finds.
* **`globMatch_below_iff`** — what `**/*/name` finds. -/

namespace Glob

open Texts

/-! ## Names -/

/-- A name with a leading dot. -/
def Hidden (name : Text) : Prop := name.head? = some '.'

instance (name : Text) : Decidable (Hidden name) := by unfold Hidden; infer_instance

/-- A list whose first element is accepted and whose rest is. -/
def first {α : Type} (ok : α → Bool) (rest : List α → Bool) : List α → Bool
  | [] => false
  | x :: s => ok x && rest s

/-- A pattern for one character asks for one. -/
theorem first_iff {α : Type} {ok : α → Bool} {rest : List α → Bool} {s : List α} :
    first ok rest s = true ↔ ∃ x s', s = x :: s' ∧ ok x = true ∧ rest s' = true := by
  cases s with
  | nil => simp [first]
  | cons x s =>
    rw [first, Bool.and_eq_true]
    constructor
    · rintro ⟨hx, hs⟩
      exact ⟨x, s, rfl, hx, hs⟩
    · rintro ⟨_, _, heq, hx, hs⟩
      obtain ⟨rfl, rfl⟩ := List.cons_eq_cons.mp heq
      exact ⟨hx, hs⟩

/-- The name against the characters of the pattern: `*` stands for any characters. -/
def wild : Text → Text → Bool
  | [], s => s.isEmpty
  | c :: p, s => if c = '*' then s.tails.any (wild p) else first (fun x => decide (c = x)) (wild p) s

/-- The name against the pattern: a leading dot must stand in the pattern. -/
def fnmatch (p s : Text) : Bool := (decide (p.head? = some '.') || !decide (Hidden s)) && wild p s

/-- A pattern without wildcards matches itself only. -/
theorem wild_literal {p : Text} (h : '*' ∉ p) (s : Text) : wild p s = decide (p = s) := by
  induction p generalizing s with
  | nil => cases s <;> rfl
  | cons c p ih =>
    rw [List.mem_cons, not_or] at h
    rw [wild, if_neg (fun hc => h.1 hc.symm)]
    cases s with
    | nil => rfl
    | cons x s => simp [first, ih h.2 s]

/-- A wildcard stands for what is in front of a suffix. -/
theorem wild_star_iff {p s : Text} : wild ('*' :: p) s = true ↔ ∃ t, t <:+ s ∧ wild p t = true := by
  rw [wild, if_pos rfl, List.any_eq_true]
  simp only [List.mem_tails]

/-- Wildcards can stand for nothing. -/
theorem wild_filter (p : Text) : wild p (p.filter (· != '*')) = true := by
  induction p with
  | nil => rfl
  | cons c p ih =>
    by_cases hc : c = '*'
    · subst hc
      rw [List.filter_cons_of_neg (by decide), wild_star_iff]
      exact ⟨_, List.suffix_refl _, ih⟩
    · rw [List.filter_cons_of_pos (by simpa using hc), wild, if_neg hc, first_iff]
      exact ⟨c, _, rfl, decide_eq_true rfl, ih⟩

/-- Literal characters in front of a pattern stand for themselves. -/
theorem wild_append_iff {l : Text} (h : '*' ∉ l) {p s : Text} :
    wild (l ++ p) s = true ↔ ∃ t, s = l ++ t ∧ wild p t = true := by
  induction l generalizing s with
  | nil => simp
  | cons c l ih =>
    rw [List.mem_cons, not_or] at h
    rw [List.cons_append, wild, if_neg (fun hc => h.1 hc.symm), first_iff]
    simp only [decide_eq_true_eq, ih h.2]
    constructor
    · rintro ⟨x, s', rfl, rfl, t, rfl, ht⟩
      exact ⟨t, rfl, ht⟩
    · rintro ⟨t, rfl, ht⟩
      exact ⟨c, l ++ t, rfl, rfl, t, rfl, ht⟩

/-- A wildcard in front of literal characters asks for the ending. -/
theorem wild_star {p : Text} (h : '*' ∉ p) (s : Text) : wild ('*' :: p) s = decide (p <:+ s) := by
  rw [Bool.eq_iff_iff, wild_star_iff, decide_eq_true_eq]
  simp only [wild_literal h, decide_eq_true_eq]
  constructor
  · rintro ⟨t, ht, rfl⟩
    exact ht
  · intro hs
    exact ⟨p, hs, rfl⟩

/-- A wildcard skips any beginning. -/
theorem wild_star_append {p t : Text} (h : wild p t = true) (s : Text) :
    wild ('*' :: p) (s ++ t) = true :=
  wild_star_iff.mpr ⟨t, List.suffix_append s t, h⟩

/-- What a pattern asks for behind its last wildcard is the ending of every name it matches. -/
theorem suffix_of_wild {suffix : Text} (h : '*' ∉ suffix) {p s : Text}
    (hs : wild (p ++ '*' :: suffix) s = true) : suffix <:+ s := by
  induction p generalizing s with
  | nil => rwa [List.nil_append, wild_star h, decide_eq_true_eq] at hs
  | cons c p ih =>
    rw [List.cons_append] at hs
    by_cases hc : c = '*'
    · rw [hc, wild_star_iff] at hs
      obtain ⟨t, ht, hwild⟩ := hs
      exact (ih hwild).trans ht
    · rw [wild, if_neg hc, first_iff] at hs
      obtain ⟨x, s', rfl, -, hwild⟩ := hs
      exact (ih hwild).trans (List.suffix_cons x s')

/-- A name that is not hidden is compared character by character. -/
theorem fnmatch_of_not_hidden {s : Text} (h : ¬ Hidden s) (p : Text) : fnmatch p s = wild p s := by
  simp [fnmatch, h]

/-- What `*p` matches: the names with this ending, unless they are hidden. -/
theorem fnmatch_star_iff {p : Text} (h : '*' ∉ p) (s : Text) :
    fnmatch ('*' :: p) s = true ↔ ¬ Hidden s ∧ p <:+ s := by
  simp [fnmatch, wild_star h]

/-- What a pattern without wildcards matches. -/
theorem fnmatch_literal_iff {p : Text} (h : '*' ∉ p) (s : Text) : fnmatch p s = true ↔ p = s := by
  rw [fnmatch, wild_literal h, Bool.and_eq_true, decide_eq_true_eq]
  constructor
  · exact And.right
  · rintro rfl
    refine ⟨?_, rfl⟩
    by_cases hp : Hidden p
    · rw [Bool.or_eq_true, decide_eq_true_eq]
      exact .inl hp
    · simp [hp]

/-! ## Paths -/

/-- The pattern component `**/`: directories that are not hidden, any number of them, and then what
`rest` asks for. -/
def anyDirs (rest : List Text → Bool) : List Text → Bool
  | [] => rest []
  | c :: cs => rest (c :: cs) || (!decide (Hidden c) && anyDirs rest cs)

/-- The path against the components of the pattern. -/
def globMatch : List Text → List Text → Bool
  | [], cs => cs.isEmpty
  | p :: ps, cs =>
    if p = ['*', '*'] then anyDirs (globMatch ps) cs else first (fnmatch p) (globMatch ps) cs

/-- What `**/` finds: a path with visible directories in front of a rest that is asked for. -/
theorem anyDirs_iff {rest : List Text → Bool} {cs : List Text} :
    anyDirs rest cs = true ↔ ∃ dirs cs', cs = dirs ++ cs' ∧ (∀ d ∈ dirs, ¬ Hidden d) ∧
      rest cs' = true := by
  induction cs with
  | nil => simp [anyDirs]
  | cons c cs ih =>
    rw [anyDirs, Bool.or_eq_true, Bool.and_eq_true, ih]
    constructor
    · rintro (h | ⟨hc, dirs, cs', rfl, hdirs, h⟩)
      · exact ⟨[], c :: cs, rfl, by simp, h⟩
      · refine ⟨c :: dirs, cs', rfl, ?_, h⟩
        rintro d (_ | ⟨_, hd⟩)
        · simpa using hc
        · exact hdirs d hd
    · rintro ⟨dirs, cs', hcs, hdirs, h⟩
      cases dirs with
      | nil =>
        left
        rwa [hcs]
      | cons d dirs =>
        obtain ⟨rfl, rfl⟩ := List.cons_eq_cons.mp hcs
        right
        exact ⟨by simpa using hdirs c List.mem_cons_self, dirs, cs', rfl,
          fun e he => hdirs e (List.mem_cons_of_mem c he), h⟩

/-- One component of the pattern against one component of the path. -/
theorem globMatch_cons_iff {p : Text} (hp : p ≠ ['*', '*']) {ps cs : List Text} :
    globMatch (p :: ps) cs = true ↔
      ∃ c cs', cs = c :: cs' ∧ fnmatch p c = true ∧ globMatch ps cs' = true := by
  rw [globMatch, if_neg hp, first_iff]

/-- The empty pattern is for the empty path. -/
theorem globMatch_nil_iff {cs : List Text} : globMatch [] cs = true ↔ cs = [] := by
  cases cs <;> simp [globMatch]

/-- **What `**/*suffix` finds**: the paths without hidden components whose last one has the ending. -/
theorem globMatch_suffix_iff {suffix : Text} (h : '*' ∉ suffix) {dirs : List Text} {name : Text} :
    globMatch [['*', '*'], '*' :: suffix] (dirs ++ [name]) = true ↔
      (∀ d ∈ dirs, ¬ Hidden d) ∧ ¬ Hidden name ∧ suffix <:+ name := by
  have hne : '*' :: suffix ≠ ['*', '*'] := by
    rintro heq
    rw [List.tail_eq_of_cons_eq heq] at h
    exact h List.mem_cons_self
  rw [globMatch, if_pos rfl, anyDirs_iff]
  constructor
  · rintro ⟨ds, cs, heq, hds, hcs⟩
    obtain ⟨c, cs, rfl, hc, hnil⟩ := (globMatch_cons_iff hne).mp hcs
    rw [globMatch_nil_iff] at hnil
    subst hnil
    obtain ⟨rfl, hname⟩ := List.append_inj' heq rfl
    obtain rfl : name = c := List.head_eq_of_cons_eq hname
    exact ⟨hds, (fnmatch_star_iff h name).mp hc⟩
  · rintro ⟨hds, hname⟩
    exact ⟨dirs, [name], rfl, hds,
      (globMatch_cons_iff hne).mpr ⟨name, [], rfl, (fnmatch_star_iff h name).mpr hname, rfl⟩⟩

/-- **What `**/*/literal` finds**: the paths without hidden directories, with at least one directory,
that end with the name. -/
theorem globMatch_below_iff {literal : Text} (h : '*' ∉ literal) {dirs : List Text} {name : Text} :
    globMatch [['*', '*'], ['*'], literal] (dirs ++ [name]) = true ↔
      dirs ≠ [] ∧ (∀ d ∈ dirs, ¬ Hidden d) ∧ name = literal := by
  have hne : literal ≠ ['*', '*'] := by
    rintro rfl
    exact h List.mem_cons_self
  rw [globMatch, if_pos rfl, anyDirs_iff]
  constructor
  · rintro ⟨ds, cs, heq, hds, hcs⟩
    obtain ⟨d, cs, rfl, hd, hcs⟩ := (globMatch_cons_iff (by decide)).mp hcs
    obtain ⟨c, cs, rfl, hc, hnil⟩ := (globMatch_cons_iff hne).mp hcs
    rw [globMatch_nil_iff] at hnil
    subst hnil
    -- the last two components are the directory for `*` and the name
    rw [List.append_cons ds d [c]] at heq
    obtain ⟨rfl, hname⟩ := List.append_inj' heq rfl
    obtain rfl : name = c := List.head_eq_of_cons_eq hname
    refine ⟨by simp, ?_, ((fnmatch_literal_iff h name).mp hc).symm⟩
    intro e he
    rcases List.mem_append.mp he with he | he
    · exact hds e he
    · rw [List.mem_singleton.mp he]
      exact ((fnmatch_star_iff (by simp) d).mp hd).1
  · rintro ⟨hdirs, hds, rfl⟩
    obtain ⟨ds, d, rfl⟩ := (List.eq_nil_or_concat' dirs).resolve_left hdirs
    refine ⟨ds, [d, name], by simp, fun e he => hds e (by simp [he]), ?_⟩
    refine (globMatch_cons_iff (by decide)).mpr ⟨d, [name], rfl, ?_, ?_⟩
    · exact (fnmatch_star_iff (by simp) d).mpr ⟨hds d (by simp), List.nil_suffix⟩
    · exact (globMatch_cons_iff hne).mpr ⟨name, [], rfl, (fnmatch_literal_iff h name).mpr rfl, rfl⟩

end Glob
