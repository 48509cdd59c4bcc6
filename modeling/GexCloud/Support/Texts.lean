import Mathlib.Data.List.Basic
import Mathlib.Data.List.DropRight
import Mathlib.Data.List.Infix

/-! # Texts as lists of characters

A text is the list of its characters. The file cuts texts into lines the way `readlines` does, each
line keeping its terminator, and says when cutting and joining commute:

* **`lines`** — the lines of a text; `lines_flatten` joins them again.
* **`Terminated`** — a text that is empty or ends with a newline; appending to such a text appends
  to its lines (`lines_append`).
* **`IsLine`** — one terminated line.
* **`bodies`** — the lines without their terminators; `deleteLines` drops some of them.
* **`cut`** — a text before and after the first occurrence of a character, as `strchr` finds it.
* **`stripBy`** — a text without the white space around it, for any notion of white space. -/

namespace Texts

/-- A text, as the list of its characters. -/
abbrev Text := List Char

instance (t : Text) (ts : List Text) : Decidable (t ∈ ts) := inferInstance

/-- The lines of a text, each with its terminator; only the last may lack one. -/
def lines : Text → List Text
  | [] => []
  | c :: cs =>
    if c = '\n' then ['\n'] :: lines cs
    else
      match lines cs with
      | [] => [[c]]
      | l :: ls => (c :: l) :: ls

@[simp] theorem lines_nil : lines [] = [] := rfl

/-- A leading newline is a line of its own. -/
@[simp] theorem lines_newline_cons (cs : Text) : lines ('\n' :: cs) = ['\n'] :: lines cs := by
  simp [lines]

/-- Any other leading character joins the first line. -/
theorem lines_cons {c : Char} (h : c ≠ '\n') (cs : Text) :
    lines (c :: cs) = (c :: (lines cs).headD []) :: (lines cs).tail := by
  cases hl : lines cs <;> simp [lines, h, hl]

/-- Joining the lines gives the text back. -/
@[simp] theorem lines_flatten (t : Text) : (lines t).flatten = t := by
  induction t with
  | nil => rfl
  | cons c cs ih =>
    by_cases h : c = '\n'
    · subst h; simp [ih]
    · rw [lines_cons h]
      cases hl : lines cs with
      | nil => simp [hl] at ih; simp [ih]
      | cons l ls => simp [hl] at ih; simp [ih]

/-- A text that is not empty has a line. -/
theorem lines_ne_nil {t : Text} (h : t ≠ []) : lines t ≠ [] := by
  intro hnil
  have hflat := lines_flatten t
  rw [hnil] at hflat
  exact h hflat.symm

/-- A text whose last character, if it has one, is a newline. -/
def Terminated (t : Text) : Prop := t = [] ∨ t.getLast? = some '\n'

instance (t : Text) : Decidable (Terminated t) := by unfold Terminated; infer_instance

/-- The empty text is terminated. -/
theorem terminated_nil : Terminated [] := Or.inl rfl

/-- A text that ends with a newline is terminated. -/
theorem terminated_append_newline (t : Text) : Terminated (t ++ ['\n']) := Or.inr (by simp)

/-- A text is terminated when its last character is a newline. -/
theorem terminated_cons_iff {c : Char} {cs : Text} :
    Terminated (c :: cs) ↔ (cs = [] → c = '\n') ∧ Terminated cs := by
  cases cs with
  | nil => simp [Terminated]
  | cons d ds => simp [Terminated, List.getLast?_cons_cons]

/-- What follows a terminated text starts on a line of its own. -/
theorem lines_append {a : Text} (ha : Terminated a) (b : Text) :
    lines (a ++ b) = lines a ++ lines b := by
  induction a with
  | nil => rfl
  | cons c cs ih =>
    obtain ⟨hlast, hcs⟩ := terminated_cons_iff.mp ha
    by_cases h : c = '\n'
    · subst h
      simp [ih hcs]
    · cases cs with
      | nil => exact absurd (hlast rfl) h
      | cons d ds =>
        obtain ⟨l, ls, hl⟩ := List.exists_cons_of_ne_nil (lines_ne_nil (List.cons_ne_nil d ds))
        rw [List.cons_append, lines_cons h, lines_cons h, ih hcs, hl]
        rfl

/-- One terminated line: a newline ends it and occurs nowhere else in it. -/
def IsLine (l : Text) : Prop := ∃ body : Text, '\n' ∉ body ∧ l = body ++ ['\n']

/-- A terminated line is cut into itself. -/
theorem lines_of_isLine {l : Text} (h : IsLine l) : lines l = [l] := by
  obtain ⟨body, hb, rfl⟩ := h
  induction body with
  | nil => rfl
  | cons c cs ih =>
    rw [List.mem_cons, not_or] at hb
    rw [List.cons_append, lines_cons (fun hc => hb.1 hc.symm), ih hb.2]
    simp

/-- A text without line ends is one line. -/
theorem lines_of_not_mem {t : Text} (hne : t ≠ []) (h : '\n' ∉ t) : lines t = [t] := by
  induction t with
  | nil => exact absurd rfl hne
  | cons c cs ih =>
    rw [List.mem_cons, not_or] at h
    rw [lines_cons (fun hc => h.1 hc.symm)]
    cases cs with
    | nil => rfl
    | cons d ds => rw [ih (by simp) h.2]; rfl

/-- A terminated line is a terminated text. -/
theorem IsLine.terminated {l : Text} (h : IsLine l) : Terminated l := by
  obtain ⟨body, -, rfl⟩ := h
  exact terminated_append_newline body

/-- The first line of a text. -/
theorem lines_append_newline_cons {body : Text} (h : '\n' ∉ body) (rest : Text) :
    lines (body ++ '\n' :: rest) = (body ++ ['\n']) :: lines rest := by
  have hline : IsLine (body ++ ['\n']) := ⟨body, h, rfl⟩
  rw [List.append_cons, lines_append hline.terminated, lines_of_isLine hline, List.singleton_append]

/-- Terminated texts in sequence. -/
theorem Terminated.append {a b : Text} (ha : Terminated a) (hb : Terminated b) :
    Terminated (a ++ b) := by
  obtain rfl | hb := hb
  · simpa using ha
  · right
    rw [List.getLast?_append, hb]
    rfl

/-- Every line of a terminated text is terminated. -/
theorem isLine_of_mem_lines {t l : Text} (ht : Terminated t) (hl : l ∈ lines t) : IsLine l := by
  induction t generalizing l with
  | nil => simp at hl
  | cons c cs ih =>
    obtain ⟨hlast, hcs⟩ := terminated_cons_iff.mp ht
    by_cases h : c = '\n'
    · subst h
      rw [lines_newline_cons, List.mem_cons] at hl
      obtain rfl | hl := hl
      · exact ⟨[], by simp, rfl⟩
      · exact ih hcs hl
    · cases cs with
      | nil => exact absurd (hlast rfl) h
      | cons d ds =>
        obtain ⟨first, rest, hlines⟩ := List.exists_cons_of_ne_nil (lines_ne_nil (List.cons_ne_nil d ds))
        rw [lines_cons h, hlines, List.headD_cons, List.tail_cons, List.mem_cons] at hl
        obtain rfl | hl := hl
        · obtain ⟨body, hbody, rfl⟩ := ih hcs (hlines ▸ List.mem_cons_self)
          exact ⟨c :: body, by simp [Ne.symm h, hbody], rfl⟩
        · exact ih hcs (hlines ▸ List.mem_cons_of_mem _ hl)

/-- Terminated lines in sequence are a terminated text. -/
theorem terminated_flatten {ls : List Text} (h : ∀ l ∈ ls, IsLine l) : Terminated ls.flatten := by
  induction ls with
  | nil => exact terminated_nil
  | cons l ls ih =>
    rw [List.flatten_cons]
    exact (h l List.mem_cons_self).terminated.append (ih fun x hx => h x (List.mem_cons_of_mem _ hx))

/-- Terminated lines in sequence are cut into themselves. -/
theorem lines_flatten_of_isLine {ls : List Text} (h : ∀ l ∈ ls, IsLine l) :
    lines ls.flatten = ls := by
  induction ls with
  | nil => rfl
  | cons l ls ih =>
    have hl := h l List.mem_cons_self
    rw [List.flatten_cons, lines_append hl.terminated, lines_of_isLine hl,
      ih fun x hx => h x (List.mem_cons_of_mem _ hx)]
    rfl

/-! ## Lines without their terminators -/

/-- A line without its terminator. -/
def chomp (l : Text) : Text := l.takeWhile (· != '\n')

/-- The terminator goes. -/
@[simp] theorem chomp_append_newline {body : Text} (h : '\n' ∉ body) :
    chomp (body ++ ['\n']) = body := by
  have hne : ∀ x ∈ body, (x != '\n') = true := fun x hx => by
    rw [bne_iff_ne]
    rintro rfl
    exact h hx
  rw [chomp, List.takeWhile_append_of_pos hne]
  simp

/-- The lines of a text without their terminators. -/
def bodies (t : Text) : List Text := (lines t).map chomp

/-- What follows a terminated text adds its lines. -/
theorem bodies_append {a : Text} (ha : Terminated a) (b : Text) : bodies (a ++ b) = bodies a ++ bodies b := by
  rw [bodies, lines_append ha, List.map_append, bodies, bodies]

/-- A text without line ends is its only line. -/
theorem bodies_of_not_mem {t : Text} (hne : t ≠ []) (h : '\n' ∉ t) : bodies t = [t] := by
  rw [bodies, lines_of_not_mem hne h, List.map_singleton, chomp, List.takeWhile_eq_self_iff.mpr]
  intro c hc
  rw [bne_iff_ne]
  rintro rfl
  exact h hc

/-- The first line of a text, without its terminator. -/
theorem bodies_append_newline_cons {body : Text} (h : '\n' ∉ body) (rest : Text) :
    bodies (body ++ '\n' :: rest) = body :: bodies rest := by
  rw [bodies, lines_append_newline_cons h, List.map_cons, chomp_append_newline h, bodies]

/-- A text that is not terminated ends with a line that is open. -/
theorem exists_open_line {t : Text} (h : ¬ Terminated t) :
    ∃ a l, t = a ++ l ∧ Terminated a ∧ l ≠ [] ∧ '\n' ∉ l := by
  induction t with
  | nil => exact absurd terminated_nil h
  | cons c cs ih =>
    by_cases hcs : Terminated cs
    · -- only the first character can be the open line
      rw [terminated_cons_iff, and_iff_left hcs, Classical.not_imp] at h
      obtain ⟨rfl, hc⟩ := h
      exact ⟨[], [c], rfl, terminated_nil, List.cons_ne_nil _ _, by simpa using Ne.symm hc⟩
    · obtain ⟨a, l, rfl, ha, hne, hl⟩ := ih hcs
      by_cases hopen : a = [] ∧ c ≠ '\n'
      · obtain ⟨rfl, hc⟩ := hopen
        exact ⟨[], c :: l, rfl, terminated_nil, List.cons_ne_nil _ _, by simp [Ne.symm hc, hl]⟩
      · refine ⟨c :: a, l, rfl, terminated_cons_iff.mpr ⟨fun hnil => ?_, ha⟩, hne, hl⟩
        by_contra hc
        exact hopen ⟨hnil, hc⟩

/-- A text split at its line ends: its lines, and behind the last line end nothing. -/
theorem splitOn_newline (t : Text) : t.splitOn '\n' = bodies t ++ if Terminated t then [[]] else [] := by
  induction t with
  | nil => rfl
  | cons c cs ih =>
    rw [List.splitOn_cons_eq_if_modifyHead, ih]
    by_cases h : c = '\n'
    · subst h
      have hiff : Terminated ('\n' :: cs) ↔ Terminated cs := by
        rw [terminated_cons_iff]
        exact and_iff_right fun _ => rfl
      simp only [hiff, bodies, lines_newline_cons]
      rfl
    · cases cs with
      | nil => simp [Terminated, h, bodies, lines, chomp]
      | cons d ds =>
        have hiff : Terminated (c :: d :: ds) ↔ Terminated (d :: ds) := by
          rw [terminated_cons_iff]
          exact and_iff_right fun hnil => absurd hnil (List.cons_ne_nil _ _)
        obtain ⟨first, rest, hlines⟩ := List.exists_cons_of_ne_nil (lines_ne_nil (List.cons_ne_nil d ds))
        have hc : (c == '\n') = false := by simpa using h
        simp only [hiff, bodies, lines_cons h, hlines, hc]
        simp [chomp, h]

/-- Lines appended to a terminated text are its last. -/
theorem bodies_append_lines {a : Text} {bs : List Text} (ha : Terminated a)
    (h : ∀ body ∈ bs, '\n' ∉ body) :
    bodies (a ++ (bs.map (· ++ ['\n'])).flatten) = bodies a ++ bs := by
  have hlines : ∀ l ∈ bs.map (· ++ ['\n']), IsLine l := by
    intro l hl
    obtain ⟨body, hbody, rfl⟩ := List.mem_map.mp hl
    exact ⟨body, h body hbody, rfl⟩
  have hchomp : ∀ body ∈ bs, chomp (body ++ ['\n']) = body := fun body hbody =>
    chomp_append_newline (h body hbody)
  rw [bodies, lines_append ha, lines_flatten_of_isLine hlines, List.map_append, List.map_map]
  exact congrArg (bodies a ++ ·) ((List.map_congr_left hchomp).trans (List.map_id bs))

/-- A text without the lines of which `p` holds. -/
def deleteLines (p : Text → Bool) (t : Text) : Text :=
  ((lines t).filter fun l => !p (chomp l)).flatten

/-- Only the lines of which `p` holds go. -/
theorem bodies_deleteLines {t : Text} (ht : Terminated t) (p : Text → Bool) :
    bodies (deleteLines p t) = (bodies t).filter fun l => !p l := by
  have hlines : ∀ l ∈ (lines t).filter fun l => !p (chomp l), IsLine l := fun l hl =>
    isLine_of_mem_lines ht (List.mem_of_mem_filter hl)
  rw [bodies, deleteLines, lines_flatten_of_isLine hlines, bodies, List.filter_map]
  rfl

/-- Without a line of which `p` holds nothing goes. -/
theorem deleteLines_eq_self {t : Text} {p : Text → Bool} (h : (bodies t).filter p = []) :
    deleteLines p t = t := by
  have hall : (lines t).filter (fun l => !p (chomp l)) = lines t := by
    rw [List.filter_eq_self]
    intro l hl
    have hbody : chomp l ∈ bodies t := List.mem_map_of_mem hl
    simpa using List.filter_eq_nil_iff.mp h _ hbody
  rw [deleteLines, hall, lines_flatten]

/-- Deleting lines leaves a terminated text. -/
theorem terminated_deleteLines {t : Text} (ht : Terminated t) (p : Text → Bool) :
    Terminated (deleteLines p t) :=
  terminated_flatten fun _ hl => isLine_of_mem_lines ht (List.mem_of_mem_filter hl)

/-! ## Cutting at a character -/

/-- What is before the first occurrence of the character and, if there is one, what is behind. -/
def cut (c : Char) (s : Text) : Text × Option Text :=
  match s.dropWhile (· != c) with
  | [] => (s, none)
  | _ :: rest => (s.takeWhile (· != c), some rest)

/-- Cutting at a character that occurs nowhere before. -/
theorem cut_append {c : Char} {a : Text} (h : c ∉ a) (b : Text) : cut c (a ++ c :: b) = (a, some b) := by
  have hne : ∀ x ∈ a, (x != c) = true := fun x hx => by
    rw [bne_iff_ne]
    rintro rfl
    exact h hx
  unfold cut
  rw [List.dropWhile_append_of_pos hne, List.takeWhile_append_of_pos hne]
  simp

/-- Cutting without an occurrence. -/
theorem cut_of_not_mem {c : Char} {a : Text} (h : c ∉ a) : cut c a = (a, none) := by
  have hdrop : a.dropWhile (· != c) = [] := by
    rw [List.dropWhile_eq_nil_iff]
    intro x hx
    rw [bne_iff_ne]
    rintro rfl
    exact h hx
  unfold cut
  rw [hdrop]

/-- What is behind the cut is in the text. -/
theorem mem_of_cut {c x : Char} {s a b : Text} (h : cut c s = (a, some b)) (hx : x ∈ b) : x ∈ s := by
  unfold cut at h
  split at h
  · cases h
  · rename_i y rest hdrop
    obtain ⟨-, hrest⟩ := Prod.mk.inj h
    obtain rfl := Option.some.inj hrest
    have hsub : rest.Sublist s := (List.sublist_cons_self y rest).trans
      (hdrop ▸ List.dropWhile_sublist _)
    exact hsub.subset hx

/-- A cut text is what is before the character, the character and what is behind. -/
theorem eq_of_cut {c : Char} {s a b : Text} (h : cut c s = (a, some b)) : s = a ++ c :: b ∧ c ∉ a := by
  unfold cut at h
  split at h
  · cases h
  · rename_i y rest hdrop
    obtain ⟨rfl, hrest⟩ := Prod.mk.inj h
    obtain rfl := Option.some.inj hrest
    have hy : y = c := by
      have hhead := List.head_dropWhile_not (· != c) (l := s) (by rw [hdrop]; exact List.cons_ne_nil _ _)
      simpa [hdrop] using hhead
    subst hy
    refine ⟨?_, fun hmem => ?_⟩
    · rw [← hdrop, List.takeWhile_append_dropWhile]
    · have hne := List.mem_takeWhile_imp hmem
      simp at hne

/-- No piece between separators contains a separator. -/
theorem eq_false_of_mem_splitOnP {p : Char → Bool} {s piece : Text} (h : piece ∈ s.splitOnP p) :
    ∀ c ∈ piece, p c = false := by
  induction s generalizing piece with
  | nil =>
    rw [List.splitOnP_nil, List.mem_singleton] at h
    simp [h]
  | cons x s ih =>
    rw [List.splitOnP_cons_eq_if_modifyHead] at h
    split at h
    · obtain rfl | h := List.mem_cons.mp h
      · simp
      · exact ih h
    · rename_i hx
      obtain ⟨first, rest, hsplit⟩ := List.exists_cons_of_ne_nil (List.splitOnP_ne_nil p s)
      rw [hsplit, List.modifyHead_cons, List.mem_cons] at h
      obtain rfl | h := h
      · exact List.forall_mem_cons.mpr ⟨by simpa using hx, ih (hsplit ▸ List.mem_cons_self)⟩
      · exact ih (hsplit ▸ List.mem_cons_of_mem first h)

/-- No piece between separators contains the separator. -/
theorem not_mem_of_mem_splitOn {c : Char} {s piece : Text} (h : piece ∈ s.splitOn c) : c ∉ piece := by
  rw [List.splitOn_eq_splitOnP] at h
  intro hc
  simpa using eq_false_of_mem_splitOnP h c hc

/-- The first piece of a text that is split is in front. -/
theorem isPrefix_of_splitOnP {p : Char → Bool} {s first : Text} {rest : List Text}
    (h : s.splitOnP p = first :: rest) : first <+: s := by
  induction s generalizing first rest with
  | nil =>
    rw [List.splitOnP_nil, List.cons_eq_cons] at h
    rw [← h.1]
  | cons c s ih =>
    rw [List.splitOnP_cons_eq_if_modifyHead] at h
    split at h
    · rw [← (List.cons_eq_cons.mp h).1]
      exact List.nil_prefix
    · obtain ⟨first', rest', hs⟩ := List.exists_cons_of_ne_nil (List.splitOnP_ne_nil p s)
      rw [hs, List.modifyHead_cons, List.cons_eq_cons] at h
      rw [← h.1]
      exact List.cons_prefix_cons.mpr ⟨rfl, ih hs⟩

/-- A piece of a text that is split is in the text. -/
theorem isInfix_of_mem_splitOnP {p : Char → Bool} {s w : Text} (h : w ∈ s.splitOnP p) : w <:+: s := by
  induction s generalizing w with
  | nil =>
    rw [List.splitOnP_nil, List.mem_singleton] at h
    rw [h]
  | cons c s ih =>
    obtain ⟨first, rest, hsplit⟩ := List.exists_cons_of_ne_nil (List.splitOnP_ne_nil p (c :: s))
    rw [hsplit, List.mem_cons] at h
    obtain rfl | h := h
    · exact (isPrefix_of_splitOnP hsplit).isInfix
    -- the other pieces are pieces of the rest
    have hmem : w ∈ s.splitOnP p := by
      rw [List.splitOnP_cons_eq_if_modifyHead] at hsplit
      split at hsplit
      · rw [(List.cons_eq_cons.mp hsplit).2]
        exact h
      · obtain ⟨first', rest', hs⟩ := List.exists_cons_of_ne_nil (List.splitOnP_ne_nil p s)
        rw [hs, List.modifyHead_cons, List.cons_eq_cons] at hsplit
        rw [hs, hsplit.2]
        exact List.mem_cons_of_mem _ h
    exact (ih hmem).trans (List.suffix_cons c s).isInfix

/-- A text without the separator stays together. -/
theorem exists_splitOn_append {c : Char} {s : Text} (h : c ∉ s) (b : Text) :
    ∃ first rest, (s ++ b).splitOn c = first :: rest ∧ s <+: first := by
  induction s with
  | nil =>
    obtain ⟨first, rest, hb⟩ := List.exists_cons_of_ne_nil (List.splitOn_ne_nil c b)
    exact ⟨first, rest, hb, List.nil_prefix⟩
  | cons x s ih =>
    rw [List.mem_cons, not_or] at h
    obtain ⟨first, rest, hb, hprefix⟩ := ih h.2
    refine ⟨x :: first, rest, ?_, List.cons_prefix_cons.mpr ⟨rfl, hprefix⟩⟩
    rw [List.cons_append, List.splitOn_cons_eq_if_modifyHead, if_neg (by simpa using Ne.symm h.1), hb]
    rfl

/-- What is in a text and does not contain the separator is in a piece. -/
theorem exists_mem_splitOn {c : Char} {s t : Text} (h : s <:+: t) (hs : c ∉ s) :
    ∃ piece ∈ t.splitOn c, s <:+: piece := by
  obtain ⟨a, b, rfl⟩ := h
  induction a with
  | nil =>
    obtain ⟨first, rest, hb, hprefix⟩ := exists_splitOn_append hs b
    refine ⟨first, ?_, hprefix.isInfix⟩
    rw [List.nil_append, hb]
    exact List.mem_cons_self
  | cons x a ih =>
    obtain ⟨piece, hpiece, hinfix⟩ := ih
    rw [List.cons_append, List.cons_append, List.splitOn_cons_eq_if_modifyHead]
    split
    · exact ⟨piece, List.mem_cons_of_mem _ hpiece, hinfix⟩
    · obtain ⟨first, rest, hsplit⟩ := List.exists_cons_of_ne_nil (List.splitOn_ne_nil c (a ++ s ++ b))
      rw [hsplit, List.modifyHead_cons]
      rw [hsplit, List.mem_cons] at hpiece
      obtain rfl | hpiece := hpiece
      · exact ⟨x :: piece, List.mem_cons_self, hinfix.trans (List.suffix_cons x piece).isInfix⟩
      · exact ⟨piece, List.mem_cons_of_mem _ hpiece, hinfix⟩

/-- A line is in the text. -/
theorem isInfix_of_mem_bodies {t body : Text} (h : body ∈ bodies t) : body <:+: t := by
  refine isInfix_of_mem_splitOnP (p := fun x => x == '\n') ?_
  change body ∈ t.splitOn '\n'
  rw [splitOn_newline]
  exact List.mem_append_left _ h

/-- A line of a terminated text is in it with its terminator. -/
theorem isInfix_append_newline {t body : Text} (ht : Terminated t) (h : body ∈ bodies t) :
    body ++ ['\n'] <:+: t := by
  obtain ⟨l, hl, rfl⟩ := List.mem_map.mp h
  obtain ⟨b, hb, rfl⟩ := isLine_of_mem_lines ht hl
  rw [chomp_append_newline hb]
  conv_rhs => rw [← lines_flatten t]
  exact List.infix_of_mem_flatten hl

/-- Two endings of a text have the same last character. -/
theorem getLast?_eq_of_suffix {a b name : Text} (ha : a <:+ name) (hb : b <:+ name) (hane : a ≠ [])
    (hbne : b ≠ []) : a.getLast? = b.getLast? := by
  obtain ⟨s, rfl⟩ := ha
  obtain ⟨t, ht⟩ := hb
  have hlast := congrArg List.getLast? ht
  rw [List.getLast?_append_of_ne_nil _ hbne, List.getLast?_append_of_ne_nil _ hane] at hlast
  exact hlast.symm

/-- A joined text is in the whole. -/
theorem infix_intercalate {ts : List Text} {t : Text} (h : t ∈ ts) (sep : Text) :
    t <:+: sep.intercalate ts := by
  have hmem : t ∈ ts.intersperse sep := by
    induction ts with
    | nil => cases h
    | cons s ts ih =>
      cases ts with
      | nil => exact h
      | cons s' ts =>
        rw [List.intersperse_cons_cons]
        obtain rfl | h := List.mem_cons.mp h
        · exact List.mem_cons_self
        · exact List.mem_cons_of_mem _ (List.mem_cons_of_mem _ (ih h))
  exact List.infix_of_mem_flatten hmem

/-! ## Stripping -/

/-- A list without the elements that count as white space at its ends. -/
def stripBy {α : Type} (isSpace : α → Bool) (s : List α) : List α :=
  (s.dropWhile isSpace).rdropWhile isSpace

/-- Stripping takes nothing in. -/
theorem mem_of_mem_stripBy {α : Type} {isSpace : α → Bool} {s : List α} {x : α}
    (h : x ∈ stripBy isSpace s) : x ∈ s :=
  (List.dropWhile_sublist _).subset ((List.rdropWhile_prefix _ _).subset h)

/-- Stripping twice is stripping once. -/
theorem stripBy_idem {α : Type} (isSpace : α → Bool) (s : List α) :
    stripBy isSpace (stripBy isSpace s) = stripBy isSpace s := by
  have hfront : ((s.dropWhile isSpace).rdropWhile isSpace).dropWhile isSpace =
      (s.dropWhile isSpace).rdropWhile isSpace := by
    cases hr : (s.dropWhile isSpace).rdropWhile isSpace with
    | nil => rfl
    | cons x r =>
      -- the first element stands where the front was stripped
      obtain ⟨rest, hrest⟩ := hr ▸ List.rdropWhile_prefix isSpace (s.dropWhile isSpace)
      have hx : isSpace x = false := by
        have hhead := List.head_dropWhile_not isSpace (l := s) (by rw [← hrest]; simp)
        simpa [← hrest] using hhead
      rw [List.dropWhile_cons, hx]
      rfl
  unfold stripBy
  rw [hfront, List.rdropWhile_idempotent]

/-- White space in front of a stripped list is stripped. -/
theorem stripBy_cons {α : Type} {isSpace : α → Bool} {s : List α} {x : α} (hx : isSpace x = true)
    (hs : stripBy isSpace s = s) : stripBy isSpace (x :: s) = s := by
  conv_rhs => rw [← hs]
  unfold stripBy
  rw [List.dropWhile_cons, if_pos hx]

/-- A list without white space at its ends is stripped already. -/
theorem stripBy_of_ends {α : Type} {isSpace : α → Bool} {s : List α}
    (hfirst : ∀ y ∈ s.head?, isSpace y = false) (hlast : ∀ y ∈ s.getLast?, isSpace y = false) :
    stripBy isSpace s = s := by
  have hend : s.rdropWhile isSpace = s := by
    rw [List.rdropWhile_eq_self_iff]
    intro hne hspace
    rw [hlast _ (List.getLast_mem_getLast? hne)] at hspace
    cases hspace
  cases s with
  | nil => rfl
  | cons y s => rw [stripBy, List.dropWhile_cons_of_neg (by simp [hfirst y rfl]), hend]

/-- White space behind a text without any at its ends is stripped. -/
theorem stripBy_append_of_ends {α : Type} {isSpace : α → Bool} {s : List α} {x : α}
    (hfirst : ∀ y ∈ s.head?, isSpace y = false) (hlast : ∀ y ∈ s.getLast?, isSpace y = false)
    (hx : isSpace x = true) : stripBy isSpace (s ++ [x]) = s := by
  cases s with
  | nil => simp [stripBy, hx]
  | cons y s =>
    -- in front there is nothing to strip, and behind only the one element
    have hfront : (y :: s ++ [x]).dropWhile isSpace = y :: s ++ [x] :=
      List.dropWhile_cons_of_neg (by simp [hfirst y rfl])
    have hstrip := stripBy_of_ends hfirst hlast
    rw [stripBy, List.dropWhile_cons_of_neg (by simp [hfirst y rfl])] at hstrip
    rw [stripBy, hfront, List.rdropWhile_concat_pos _ _ _ hx, hstrip]

/-- A list without white space is stripped already. -/
theorem stripBy_of_forall {α : Type} {isSpace : α → Bool} {s : List α}
    (hs : ∀ y ∈ s, isSpace y = false) : stripBy isSpace s = s :=
  stripBy_of_ends (fun y hy => hs y (List.mem_of_mem_head? hy))
    fun y hy => hs y (List.mem_of_mem_getLast? hy)

/-- White space behind a text without any is stripped. -/
theorem stripBy_append_singleton {α : Type} {isSpace : α → Bool} {s : List α} {x : α}
    (hs : ∀ y ∈ s, isSpace y = false) (hx : isSpace x = true) : stripBy isSpace (s ++ [x]) = s :=
  stripBy_append_of_ends (fun y hy => hs y (List.mem_of_mem_head? hy))
    (fun y hy => hs y (List.mem_of_mem_getLast? hy)) hx

end Texts
