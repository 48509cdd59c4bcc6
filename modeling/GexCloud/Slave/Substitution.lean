import GexCloud.Slave.Playbook

/-! # Substitutions line by line

`s/…/…/g` of `sed`, as the scripts of a node use it on `/etc/hosts`.

* **`substituteInduction`** — a line is gone through match by match, and character by character between them.
* `found` — the matches, and **`substitute_eq_self_iff`**: a line stays when each of them is its replacement.
* **`substitute_cases`** — a line either gets the replacement, or is left, and the name is not in it.
* **`splitOn_sed`** — the lines of a file are substituted one by one. -/

namespace GexCloud.Slave

open Texts Avahi

variable {pattern replacement line m s t : Text} {c : Char}

/-- The matches in a line, after so many characters that are already replaced. -/
def found (pattern : Text) : Nat → Text → List Text
  | _, [] => []
  | k + 1, _ :: cs => found pattern k cs
  | 0, ch :: cs =>
    if pattern ≠ [] ∧ matchesAt pattern (ch :: cs) = true then
      (ch :: cs).take pattern.length :: found pattern (pattern.length - 1) cs
    else found pattern 0 cs

/-! ## Matches -/

/-- A match is as long as the pattern. -/
theorem length_le_of_matchesAt (h : matchesAt pattern line = true) : pattern.length ≤ line.length := by
  induction pattern generalizing line with
  | nil => exact Nat.zero_le _
  | cons p ps ih =>
    cases line with
    | nil => cases h
    | cons c cs =>
      rw [matchesAt, Bool.and_eq_true] at h
      exact Nat.succ_le_succ (ih h.2)

/-- What is behind a match does not matter. -/
theorem matchesAt_append_of_length_le (h : pattern.length ≤ m.length) (t : Text) :
    matchesAt pattern (m ++ t) = matchesAt pattern m := by
  induction pattern generalizing m with
  | nil => cases m <;> cases t <;> rfl
  | cons p ps ih =>
    cases m with
    | nil => cases h
    | cons c m => rw [List.cons_append, matchesAt, matchesAt, ih (Nat.le_of_succ_le_succ h)]

/-- What follows a match is no matter. -/
theorem matchesAt_append_of_matchesAt (h : matchesAt pattern m = true) (t : Text) :
    matchesAt pattern (m ++ t) = true := by
  rw [matchesAt_append_of_length_le (length_le_of_matchesAt h), h]

/-- A match of two patterns, one behind the other. -/
theorem matchesAt_append_iff {p q l : Text} : matchesAt (p ++ q) l = true ↔
    ∃ x y, l = x ++ y ∧ x.length = p.length ∧ matchesAt p x = true ∧ matchesAt q y = true := by
  induction p generalizing l with
  | nil =>
    refine ⟨fun h => ⟨[], l, rfl, rfl, rfl, h⟩, ?_⟩
    rintro ⟨x, y, rfl, hlength, -, h⟩
    rw [List.length_eq_zero_iff.mp hlength]
    exact h
  | cons ch p ih =>
    cases l with
    | nil =>
      refine iff_of_false nofun ?_
      rintro ⟨x, y, hnil, hlength, -⟩
      rw [(List.append_eq_nil_iff.mp hnil.symm).1] at hlength
      cases hlength
    | cons d l =>
      rw [List.cons_append, matchesAt, Bool.and_eq_true, ih]
      constructor
      · rintro ⟨hd, x, y, rfl, hlength, hx, hy⟩
        exact ⟨d :: x, y, rfl, congrArg Nat.succ hlength, by rw [matchesAt, hd, hx]; rfl, hy⟩
      · rintro ⟨x, y, hl, hlength, hx, hy⟩
        cases x with
        | nil => cases hlength
        | cons e x =>
          obtain ⟨rfl, rfl⟩ := List.cons_eq_cons.mp hl
          rw [matchesAt, Bool.and_eq_true] at hx
          exact ⟨hx.1, x, y, rfl, Nat.succ.inj hlength, hx.2, hy⟩

/-- The characters of the pattern that are no dots are those of the text. -/
theorem getElem?_of_matchesAt {text : Text} (h : matchesAt pattern text = true) {i : Nat}
    (hc : pattern[i]? = some c) (hdot : c ≠ '.') : text[i]? = some c := by
  induction pattern generalizing text i with
  | nil => cases hc
  | cons p ps ih =>
    cases text with
    | nil => cases h
    | cons ch cs =>
      rw [matchesAt, Bool.and_eq_true, Bool.or_eq_true, beq_iff_eq, beq_iff_eq] at h
      cases i with
      | zero =>
        obtain rfl : p = c := by simpa using hc
        rw [h.1.resolve_left hdot]
        rfl
      | succ i => exact ih h.2 hc

/-- A pattern without dots matches itself only. -/
theorem isPrefix_of_matchesAt {pattern : Text} (hdot : '.' ∉ pattern) {text : Text}
    (h : Avahi.matchesAt pattern text = true) : pattern <+: text := by
  induction pattern generalizing text with
  | nil => exact List.nil_prefix
  | cons p ps ih =>
    rw [List.mem_cons, not_or] at hdot
    cases text with
    | nil => cases h
    | cons ch cs =>
      rw [Avahi.matchesAt, Bool.and_eq_true, Bool.or_eq_true, beq_iff_eq, beq_iff_eq] at h
      exact List.cons_prefix_cons.mpr ⟨h.1.resolve_left fun heq => hdot.1 heq.symm, ih hdot.2 h.2⟩

/-! ## Lines -/

/-- The rest of a match is passed over. -/
theorem substitute_skip (s t : Text) :
    substitute pattern replacement s.length (s ++ t) = substitute pattern replacement 0 t := by
  induction s with
  | nil => rfl
  | cons c s ih => exact ih

/-- **A match is replaced.** -/
theorem substitute_hit (hne : pattern ≠ []) (hlength : m.length = pattern.length) (hm : matchesAt pattern m = true)
    (t : Text) : substitute pattern replacement 0 (m ++ t) = replacement ++ substitute pattern replacement 0 t := by
  cases m with
  | nil => exact absurd (List.length_eq_zero_iff.mp hlength.symm) hne
  | cons c m =>
    have hskip : pattern.length - 1 = m.length := by
      rw [← hlength]
      rfl
    rw [List.cons_append, substitute, if_pos ⟨hne, matchesAt_append_of_matchesAt hm t⟩, hskip, substitute_skip]

/-- **A character at which no match starts is kept.** -/
theorem substitute_miss (h : matchesAt pattern (c :: t) = false) :
    substitute pattern replacement 0 (c :: t) = c :: substitute pattern replacement 0 t := by
  rw [substitute, if_neg fun hmatch => by rw [h] at hmatch; cases hmatch.2]

/-- **A line is gone through** match by match, and character by character between them. -/
theorem substituteInduction {motive : Text → Prop} (hne : pattern ≠ []) (nil : motive [])
    (hit : ∀ m t, m.length = pattern.length → matchesAt pattern m = true → motive t → motive (m ++ t))
    (miss : ∀ c t, matchesAt pattern (c :: t) = false → motive t → motive (c :: t)) (line : Text) : motive line := by
  induction hlength : line.length using Nat.strong_induction_on generalizing line with
  | _ n ih =>
    subst hlength
    cases line with
    | nil => exact nil
    | cons c cs =>
      by_cases hmatch : matchesAt pattern (c :: cs) = true
      · have hle := length_le_of_matchesAt hmatch
        have htake : ((c :: cs).take pattern.length).length = pattern.length := List.length_take_of_le hle
        have hpos := List.length_pos_iff.mpr hne
        rw [← List.take_append_drop pattern.length (c :: cs)] at hmatch ⊢
        rw [matchesAt_append_of_length_le htake.ge] at hmatch
        refine hit _ _ htake hmatch (ih _ ?_ _ rfl)
        rw [List.length_drop]
        omega
      · exact miss c cs (by simpa using hmatch) (ih cs.length (Nat.lt_succ_self _) cs rfl)

/-- Nothing is looked for in the rest of a match. -/
theorem found_skip (s t : Text) : found pattern s.length (s ++ t) = found pattern 0 t := by
  induction s with
  | nil => rfl
  | cons c s ih => exact ih

/-- A match in front is the first that is found. -/
theorem found_hit (hne : pattern ≠ []) (hlength : m.length = pattern.length) (hm : matchesAt pattern m = true)
    (t : Text) : found pattern 0 (m ++ t) = m :: found pattern 0 t := by
  cases m with
  | nil => exact absurd (List.length_eq_zero_iff.mp hlength.symm) hne
  | cons c m =>
    have hskip : pattern.length - 1 = m.length := by
      rw [← hlength]
      rfl
    have htake : (c :: (m ++ t)).take pattern.length = c :: m := by
      rw [← hlength, ← List.cons_append, List.take_left]
    rw [List.cons_append, found, if_pos ⟨hne, matchesAt_append_of_matchesAt hm t⟩, hskip, found_skip, htake]

/-- Where there is none, the search goes on behind the first character. -/
theorem found_miss (h : matchesAt pattern (c :: t) = false) : found pattern 0 (c :: t) = found pattern 0 t := by
  rw [found, if_neg fun hmatch => by rw [h] at hmatch; cases hmatch.2]

/-- **A line is substituted in two parts** where no match reaches from one into the other. -/
theorem substitute_append (hne : pattern ≠ []) {s t : Text}
    (hcut : ∀ v, v <:+ s → v ≠ [] → matchesAt pattern (v ++ t) = true → pattern.length ≤ v.length) :
    substitute pattern replacement 0 (s ++ t) =
      substitute pattern replacement 0 s ++ substitute pattern replacement 0 t := by
  induction s using substituteInduction hne with
  | nil => rfl
  | hit m s hlength hm ih =>
    have hrest := ih fun v hv => hcut v (hv.trans (List.suffix_append m s))
    rw [List.append_assoc, substitute_hit hne hlength hm, hrest, substitute_hit hne hlength hm, List.append_assoc]
  | miss c s hmiss ih =>
    have hrest := ih fun v hv => hcut v (hv.trans (List.suffix_cons c s))
    have hboth : matchesAt pattern (c :: (s ++ t)) = false := by
      rw [← Bool.not_eq_true, ← List.cons_append]
      intro hmatch
      rw [matchesAt_append_of_length_le (hcut _ List.suffix_rfl (List.cons_ne_nil c s) hmatch), hmiss] at hmatch
      cases hmatch
    rw [List.cons_append, substitute_miss hboth, hrest, substitute_miss hmiss, List.cons_append]

/-- Without a match a line stays. -/
theorem substitute_of_forall (h : ∀ v, v <:+ line → v ≠ [] → matchesAt pattern v = false) :
    substitute pattern replacement 0 line = line := by
  induction line with
  | nil => rfl
  | cons c line ih =>
    rw [substitute_miss (h _ List.suffix_rfl (List.cons_ne_nil c line)), ih fun v hv =>
      h v (hv.trans (List.suffix_cons c line))]

/-- Without a pattern nothing is substituted. -/
theorem substitute_nil (line : Text) : substitute [] replacement 0 line = line := by
  induction line with
  | nil => rfl
  | cons c line ih => rw [substitute, if_neg fun h => h.1 rfl, ih]

/-- The length of a line that is substituted. -/
theorem length_substitute (hne : pattern ≠ []) (line : Text) :
    (substitute pattern replacement 0 line).length + (found pattern 0 line).length * pattern.length =
      line.length + (found pattern 0 line).length * replacement.length := by
  induction line using substituteInduction hne with
  | nil => simp [substitute, found]
  | hit m t hlength hm ih =>
    rw [substitute_hit hne hlength hm, found_hit hne hlength hm, List.length_append, List.length_append,
      List.length_cons, Nat.succ_mul, Nat.succ_mul]
    omega
  | miss c t hmiss ih =>
    rw [substitute_miss hmiss, found_miss hmiss, List.length_cons, List.length_cons]
    omega

/-- **A line stays** exactly when each match is the replacement. -/
theorem substitute_eq_self_iff (hne : pattern ≠ []) (line : Text) :
    substitute pattern replacement 0 line = line ↔ ∀ m ∈ found pattern 0 line, m = replacement := by
  constructor
  · intro h
    have hlength := @length_substitute _ replacement hne line
    rw [h, Nat.add_left_cancel_iff] at hlength
    by_cases hnone : found pattern 0 line = []
    · rw [hnone]
      exact nofun
    -- the replacement is as long as a match, so that the matches are at the same places
    have hsame : pattern.length = replacement.length :=
      Nat.eq_of_mul_eq_mul_left (List.length_pos_iff.mpr hnone) hlength
    clear hlength hnone
    induction line using substituteInduction hne with
    | nil => exact nofun
    | hit m t hlength hm ih =>
      rw [substitute_hit hne hlength hm] at h
      obtain ⟨hrep, hrest⟩ := List.append_inj h (hsame.symm.trans hlength.symm)
      rw [found_hit hne hlength hm]
      exact List.forall_mem_cons.mpr ⟨hrep.symm, ih hrest⟩
    | miss c t hmiss ih =>
      rw [substitute_miss hmiss] at h
      rw [found_miss hmiss]
      exact ih (List.cons_eq_cons.mp h).2
  · intro h
    induction line using substituteInduction hne with
    | nil => rfl
    | hit m t hlength hm ih =>
      rw [found_hit hne hlength hm, List.forall_mem_cons] at h
      rw [substitute_hit hne hlength hm, ih h.2, h.1]
    | miss c t hmiss ih =>
      rw [found_miss hmiss] at h
      rw [substitute_miss hmiss, ih h]

/-- A match that is found is in the line. -/
theorem exists_of_mem_found (hne : pattern ≠ []) (h : m ∈ found pattern 0 line) :
    ∃ s t, line = s ++ (m ++ t) ∧ m.length = pattern.length ∧ matchesAt pattern m = true := by
  induction line using substituteInduction hne with
  | nil => cases h
  | hit m' t hlength hm ih =>
    rw [found_hit hne hlength hm, List.mem_cons] at h
    obtain rfl | h := h
    · exact ⟨[], t, rfl, hlength, hm⟩
    · obtain ⟨s, t, rfl, hmatch⟩ := ih h
      exact ⟨m' ++ s, t, (List.append_assoc m' s _).symm, hmatch⟩
  | miss c t hmiss ih =>
    rw [found_miss hmiss] at h
    obtain ⟨s, t, rfl, hmatch⟩ := ih h
    exact ⟨c :: s, t, rfl, hmatch⟩


/-- **What a substitution does to a line**: it puts in the replacement, or the name is not in the line. -/
theorem substitute_cases (hne : pattern ≠ []) (line : Text) :
    replacement <:+: substitute pattern replacement 0 line ∨
      (substitute pattern replacement 0 line = line ∧ ¬ pattern <:+: line) := by
  induction line with
  | nil =>
    refine .inr ⟨rfl, fun h => hne ?_⟩
    exact List.infix_nil.mp h
  | cons c cs ih =>
    rw [substitute]
    by_cases hmatch : matchesAt pattern (c :: cs) = true
    · rw [if_pos ⟨hne, hmatch⟩]
      exact .inl (List.prefix_append _ _).isInfix
    · rw [if_neg fun h => hmatch h.2]
      rcases ih with hput | ⟨heq, hinfix⟩
      · exact .inl (hput.trans (List.suffix_cons c _).isInfix)
      · refine .inr ⟨by rw [heq], fun h => ?_⟩
        rcases List.infix_cons_iff.mp h with ⟨rest, hrest⟩ | h
        · rw [← hrest] at hmatch
          exact hmatch (matchesAt_append pattern rest)
        · exact hinfix h

/-- A character of a line that is substituted is one of the line or of the replacement. -/
theorem mem_substitute (k : Nat) (h : c ∈ substitute pattern replacement k line) : c ∈ replacement ∨ c ∈ line := by
  induction line generalizing k with
  | nil =>
    rw [substitute] at h
    cases h
  | cons ch cs ih =>
    cases k with
    | succ k => exact (ih k h).imp_right (List.mem_cons_of_mem ch)
    | zero =>
      rw [substitute] at h
      split at h
      · obtain h | h := List.mem_append.mp h
        · exact .inl h
        · exact (ih _ h).imp_right (List.mem_cons_of_mem ch)
      · obtain rfl | h := List.mem_cons.mp h
        · exact .inr List.mem_cons_self
        · exact (ih _ h).imp_right (List.mem_cons_of_mem ch)

/-- A substitution makes no line ends. -/
theorem newline_not_mem_substitute (hreplacement : '\n' ∉ replacement) (k : Nat) (hline : '\n' ∉ line) :
    '\n' ∉ substitute pattern replacement k line := fun h =>
  (mem_substitute k h).elim hreplacement hline

/-! ## Files -/

/-- **The lines of a file are substituted one by one.** -/
theorem splitOn_sed (hreplacement : '\n' ∉ replacement) (content : Text) :
    (sed pattern replacement content).splitOn '\n' =
      (content.splitOn '\n').map (substitute pattern replacement 0) := by
  refine List.splitOn_intercalate '\n' ?_ (by simp)
  intro piece hpiece
  obtain ⟨line, hline, rfl⟩ := List.mem_map.mp hpiece
  exact newline_not_mem_substitute hreplacement 0 (not_mem_of_mem_splitOn hline)

/-- A line of a file that is substituted. -/
theorem mem_bodies_sed (hreplacement : '\n' ∉ replacement) {content body : Text}
    (h : body ∈ bodies (sed pattern replacement content)) :
    ∃ line, body = substitute pattern replacement 0 line := by
  have hmem : body ∈ (sed pattern replacement content).splitOn '\n' := by
    rw [splitOn_newline]
    exact List.mem_append_left _ h
  rw [splitOn_sed hreplacement] at hmem
  obtain ⟨line, -, rfl⟩ := List.mem_map.mp hmem
  exact ⟨line, rfl⟩

/-- A name that is in a file is replaced there. -/
theorem isInfix_sed (hreplacement : '\n' ∉ replacement) (hpattern : '\n' ∉ pattern) (hne : pattern ≠ [])
    {content : Text} (h : pattern <:+: content) : replacement <:+: sed pattern replacement content := by
  obtain ⟨piece, hpiece, hinfix⟩ := exists_mem_splitOn h hpattern
  obtain hput | ⟨-, hno⟩ := @substitute_cases _ replacement hne piece
  · have hmem : substitute pattern replacement 0 piece ∈ (sed pattern replacement content).splitOn '\n' := by
      rw [splitOn_sed hreplacement]
      exact List.mem_map_of_mem hpiece
    exact hput.trans (isInfix_of_mem_splitOnP hmem)
  · exact absurd hinfix hno

end GexCloud.Slave
