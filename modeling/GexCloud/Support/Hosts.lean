import GexCloud.Support.Texts

/-! # Lines of a hosts file

A line of `/etc/hosts` is an address and the names of it, with white space between them; what is behind a number sign
is a comment.

* `wordsBy` — a text without its separators, `words` a line without its white space.
* `entry` — the words up to a comment.
* `address`, `names` — the first one, and the others. -/

namespace Hosts

open Texts

/-! ## Words -/

/-- The pieces of a text between separators, without the empty ones. -/
def wordsBy (p : Char → Bool) (s : Text) : List Text := (s.splitOnP p).filter (· ≠ [])

/-- A text without separators is its only word. -/
theorem wordsBy_of_forall {p : Char → Bool} {s : Text} (h : ∀ c ∈ s, p c = false) :
    wordsBy p s = if s = [] then [] else [s] := by
  rw [wordsBy, List.splitOnP_eq_singleton h]
  cases s <;> simp

/-- A separator divides the words. -/
theorem wordsBy_append_cons {p : Char → Bool} (s t : Text) {c : Char} (h : p c = true) :
    wordsBy p (s ++ c :: t) = wordsBy p s ++ wordsBy p t := by
  rw [wordsBy, List.splitOnP_append_cons s t h, List.filter_append]
  rfl

/-- The first word, and the others. -/
theorem wordsBy_cons {p : Char → Bool} {s : Text} (hs : ∀ c ∈ s, p c = false) (hne : s ≠ []) {c : Char}
    (h : p c = true) (t : Text) : wordsBy p (s ++ c :: t) = s :: wordsBy p t := by
  rw [wordsBy_append_cons s t h, wordsBy_of_forall hs, if_neg hne]
  rfl

/-- Texts with a separator between them have the words of all of them. -/
theorem wordsBy_intercalate {p : Char → Bool} {c : Char} (h : p c = true) (texts : List Text) :
    wordsBy p ([c].intercalate texts) = texts.flatMap (wordsBy p) := by
  induction texts with
  | nil => rfl
  | cons s texts ih =>
    cases texts with
    | nil => rw [List.intercalate_singleton, List.flatMap_singleton]
    | cons t texts =>
      rw [List.intercalate_cons_cons, List.append_assoc, List.singleton_append, wordsBy_append_cons _ _ h, ih]
      rfl

/-- The characters of a text that is given are checked one by one. -/
theorem forall_of_all {p : Char → Bool} {t : Text} (h : t.all (fun c => !p c) = true) : ∀ c ∈ t, p c = false := by
  intro c hc
  simpa using List.all_eq_true.mp h c hc

/-- A word has no separator, and is not empty. -/
theorem forall_of_mem_wordsBy {p : Char → Bool} {s w : Text} (h : w ∈ wordsBy p s) :
    w ≠ [] ∧ ∀ c ∈ w, p c = false := by
  obtain ⟨hmem, hne⟩ := List.mem_filter.mp h
  exact ⟨by simpa using hne, eq_false_of_mem_splitOnP hmem⟩

/-- White space in a line. -/
def isBlank (c : Char) : Bool := c == ' ' || c == '\t'

/-- The words of a text. -/
def words (s : Text) : List Text := wordsBy isBlank s

/-! ## Entries -/

/-- The words of a line, without its comment. -/
def entry (line : Text) : List Text := words (line.takeWhile (· != '#'))

/-- The address of a line. -/
def address (line : Text) : Option Text := (entry line).head?

/-- The names in a line. -/
def names (line : Text) : List Text := (entry line).tail

/-- Two words. -/
theorem words_pair {a b : Text} (ha : ∀ c ∈ a, isBlank c = false) (hb : ∀ c ∈ b, isBlank c = false) (hane : a ≠ [])
    (hbne : b ≠ []) : words (a ++ ' ' :: b) = [a, b] := by
  rw [words, wordsBy_cons ha hane (by decide), wordsBy_of_forall hb, if_neg hbne]

/-- Without a number sign there is no comment. -/
theorem entry_of_not_mem {line : Text} (h : '#' ∉ line) : entry line = words line := by
  rw [entry, List.takeWhile_eq_self_iff.mpr]
  intro c hc
  rw [bne_iff_ne]
  rintro rfl
  exact h hc

/-- A word is in the text. -/
theorem isInfix_of_mem_words {s w : Text} (h : w ∈ words s) : w <:+: s :=
  isInfix_of_mem_splitOnP (List.mem_of_mem_filter h)

/-- A name is in the line. -/
theorem isInfix_of_mem_names {line name : Text} (h : name ∈ names line) : name <:+: line :=
  (isInfix_of_mem_words (List.mem_of_mem_tail h)).trans (List.takeWhile_prefix _).isInfix

end Hosts
