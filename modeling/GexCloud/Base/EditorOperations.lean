import GexCloud.Base.EditUtils
import Mathlib.Data.List.Count
import Mathlib.Data.Option.Basic

/-! # `Editor` with both kinds of patterns

The operations of `Editor` take a `Regexp` or a `String` to search for. `line.match` makes a regular expression
of a `String`, or raises when it is none; `line.gsub!` looks for its characters: `replace` tests a line with the
one and changes it with the other, and stores the `nil` of a `gsub!` that changes nothing.

* `Operation`, `run`, `Does` — the five methods, and what it is for one of them to do what it reports.
* `matchingTurns_eq_iff` — when `replace` counts the lines that match.
* `Sound` — what an operation needs: a pattern that compiles, and `replace` more than that.
* **`does_iff`** — an operation does what it reports exactly when it is sound. -/

namespace GexCloud

open Texts

namespace Editor

/-- A call of a method of `Editor`; the pattern is taken as it is read at the call. -/
inductive Operation
  | replace (search : Pattern) (replace : Ref)
  | replaceLines (search : Pattern) (replace : Ref)
  | removeLines (search : Pattern)
  | appendLineAfter (search : Pattern) (lineToAppend : Ref)
  | appendLineIfMissing (search : Pattern) (lineToAppend : Ref)

namespace Operation

/-- The call. -/
def run : Operation → Editor → Strings → Except RubyError (Nat × Editor × Strings)
  | replace search text => Editor.replace search text
  | replaceLines search text => Editor.replaceLines search text
  | removeLines search => Editor.removeLines search
  | appendLineAfter search line => Editor.appendLineAfter search line
  | appendLineIfMissing search line => Editor.appendLineIfMissing search line

/-- The pattern of a call. -/
def search : Operation → Pattern
  | replace search _ | replaceLines search _ | removeLines search | appendLineAfter search _
  | appendLineIfMissing search _ => search

/-- The edit that is documented: the lines it is about are those `line.match` finds. -/
def edit : Operation → Edit
  | replace search text => .replace search.regexp text
  | replaceLines search text => .replaceLine search.regexp text
  | removeLines search => .deleteLine search.regexp
  | appendLineAfter search line => .insertAfter search.regexp line
  | appendLineIfMissing search line => .insertIfNoMatch search.regexp line

/-- The operation does what it reports: it leaves the lines the documentation says, each a string, and returns
their number. -/
def Does (op : Operation) (e : Editor) (s : Strings) (ls : List Text) : Prop :=
  ∃ e' s', op.run e s = .ok (op.edit.count ls, e', s') ∧ e'.Represents s' (op.edit.apply s.text ls)

/-- What `replace` needs beside a pattern that compiles: a line that matches still matches when its turn comes,
`gsub!` can change it then, and in the end its text is the documented one. The turns matter where an object is at
several places, or is the replacement itself. -/
def ReplaceSound (search : Pattern) (replace : Ref) (e : Editor) (s : Strings) : Prop :=
  Turns search replace
      (fun t r => search.regexp.isMatch (s.text r) = true →
        search.regexp.isMatch (t.text r) = true ∧ Substitutes search replace t r)
      e.lines.reduceOption s ∧
    ∀ r ∈ e.lines.reduceOption, search.regexp.isMatch (s.text r) = true →
      (e.lines.reduceOption.foldl (visit search replace) s).text r =
        search.regexp.replaceAll (s.text replace) (s.text r)

/-- What an operation needs beside a pattern that compiles. -/
def Needs : Operation → Editor → Strings → Prop
  | replace search text, e, s => ReplaceSound search text e s
  | _, _, _ => True

/-- What an operation needs: a pattern that compiles, unless there is no line to test, and for `replace` more. -/
def Sound (op : Operation) (e : Editor) (s : Strings) : Prop :=
  (e.lines = [] ∨ ∃ re, op.search.matcher = .ok re) ∧ op.Needs e s

end Operation

variable {e : Editor} {s : Strings} {ls : List Text} {re : Regexp} {search : Pattern}

/-! ## The turns of `replace` -/

/-- What holds at every turn implies what follows from it there. -/
theorem Turns.imp {replace : Ref} {Q Q' : Strings → Ref → Prop} {refs : List Ref} {s : Strings}
    (h : Turns search replace Q refs s) (hQ : ∀ t, ∀ r ∈ refs, Q t r → Q' t r) :
    Turns search replace Q' refs s := by
  induction refs generalizing s with
  | nil => trivial
  | cons r refs ih =>
    exact ⟨hQ s r List.mem_cons_self h.1, ih h.2 fun t x hx => hQ t x (List.mem_cons_of_mem r hx)⟩

/-- Every line has its turn. -/
theorem Turns.forall {replace : Ref} {P : Ref → Prop} {refs : List Ref} {s : Strings}
    (h : Turns search replace (fun _ r => P r) refs s) : ∀ r ∈ refs, P r := by
  induction refs generalizing s with
  | nil => exact List.forall_mem_nil P
  | cons r refs ih => exact List.forall_mem_cons.mpr ⟨h.1, ih h.2⟩

/-- Two things that hold at every turn hold together. -/
theorem Turns.and {replace : Ref} {Q Q' : Strings → Ref → Prop} {refs : List Ref} {s : Strings}
    (h : Turns search replace Q refs s) (h' : Turns search replace Q' refs s) :
    Turns search replace (fun t r => Q t r ∧ Q' t r) refs s := by
  induction refs generalizing s with
  | nil => trivial
  | cons r refs ih => exact ⟨⟨h.1, h'.1⟩, ih h.2 h'.2⟩

/-- At every turn, a line that matches has matched at the start. -/
theorem turns_isMatch (search : Pattern) (replace : Ref) (refs : List Ref) (s : Strings) :
    Turns search replace (fun t r => search.regexp.isMatch (t.text r) = true →
      search.regexp.isMatch (s.text r) = true) refs s := by
  induction refs generalizing s with
  | nil => trivial
  | cons r refs ih =>
    exact ⟨id, (ih (visit search replace s r)).imp fun t x _ hx hm => isMatch_of_visit (hx hm)⟩

/-- Lines that are objects of their own, the replacement none of them, have their first texts at their turns. -/
theorem turns_eq (search : Pattern) {replace : Ref} {refs : List Ref} (hd : refs.Nodup) (hp : replace ∉ refs)
    (s : Strings) : Turns search replace (fun t r => t.text r = s.text r ∧ t.text replace = s.text replace ∧
      t.frozen = s.frozen) refs s := by
  induction refs generalizing s with
  | nil => trivial
  | cons r refs ih =>
    rw [List.nodup_cons] at hd
    rw [List.mem_cons, not_or] at hp
    refine ⟨⟨rfl, rfl, rfl⟩, (ih hd.2 hp.2 (visit search replace s r)).imp fun t x hx ht => ?_⟩
    have hne : x ≠ r := ne_of_mem_of_not_mem hx hd.1
    rwa [visit_text_of_ne hne, visit_text_of_ne hp.1, visit_frozen] at ht

/-- Of two conditions, one stronger than the other, the same number of elements meets both exactly when every
element that meets the weaker one meets the stronger one. -/
theorem countP_eq_iff_of_imp {α : Type} {p q : α → Bool} {l : List α} (h : ∀ x ∈ l, p x = true → q x = true) :
    l.countP p = l.countP q ↔ ∀ x ∈ l, q x = true → p x = true := by
  induction l with
  | nil => simp
  | cons a l ih =>
    have hle : l.countP p ≤ l.countP q := List.countP_mono_left fun x hx => h x (List.mem_cons_of_mem a hx)
    have hl := ih fun x hx => h x (List.mem_cons_of_mem a hx)
    have ha := h a List.mem_cons_self
    rw [List.countP_cons, List.countP_cons, List.forall_mem_cons, ← hl]
    cases hp : p a with
    | true => simp [ha hp]
    | false =>
      cases hq : q a with
      | true =>
        simp only [Bool.false_eq_true, if_false, if_true, forall_const, false_and, iff_false]
        omega
      | false => simp

/-- A line that matches at its turn is counted: as many as match at the start exactly when each of these does. -/
theorem matchingTurns_spec (search : Pattern) (replace : Ref) (refs : List Ref) (s : Strings) :
    matchingTurns search replace refs s ≤ refs.countP (fun r => search.regexp.isMatch (s.text r)) ∧
      (matchingTurns search replace refs s = refs.countP (fun r => search.regexp.isMatch (s.text r)) ↔
        Turns search replace (fun t r => search.regexp.isMatch (s.text r) = true →
          search.regexp.isMatch (t.text r) = true) refs s) := by
  induction refs generalizing s with
  | nil => exact ⟨Nat.le_refl 0, by simp [matchingTurns, Turns]⟩
  | cons r refs ih =>
    obtain ⟨hle, hcount⟩ := ih (visit search replace s r)
    -- the lines of the rest that match after the visit have matched before it
    have hbefore : ∀ x ∈ refs, search.regexp.isMatch ((visit search replace s r).text x) = true →
        search.regexp.isMatch (s.text x) = true := fun x _ => isMatch_of_visit
    have hmono : refs.countP (fun x => search.regexp.isMatch ((visit search replace s r).text x)) ≤
        refs.countP fun x => search.regexp.isMatch (s.text x) := List.countP_mono_left hbefore
    have hsum : (r :: refs).countP (fun x => search.regexp.isMatch (s.text x)) =
        refs.countP (fun x => search.regexp.isMatch (s.text x)) + (search.regexp.isMatch (s.text r)).toNat := by
      rw [List.countP_cons]
      cases search.regexp.isMatch (s.text r) <;> rfl
    rw [matchingTurns, hsum]
    refine ⟨by omega, fun h => ?_, fun h => ?_⟩
    · have hall := hcount.mp (by omega)
      have hsame := (countP_eq_iff_of_imp hbefore).mp (by omega)
      exact ⟨id, hall.imp fun t x hx hafter hm => hafter (hsame x hx hm)⟩
    · have hcounted := hcount.mpr (h.2.imp fun t x _ hx hm => hx (isMatch_of_visit hm))
      have hstill : ∀ x ∈ refs, search.regexp.isMatch (s.text x) = true →
          search.regexp.isMatch ((visit search replace s r).text x) = true :=
        ((h.2.and (turns_isMatch search replace refs _)).imp fun t x _ hx hm => hx.2 (hx.1 hm)).forall
      have hsame := (countP_eq_iff_of_imp hbefore).mpr hstill
      omega

/-- `replace` does what it reports exactly when it is sound, for a pattern that compiles. -/
theorem replace_does_iff (h : e.Represents s ls) (hre : search.matcher = .ok re) (text : Ref) :
    Operation.Does (.replace search text) e s ls ↔ Operation.ReplaceSound search text e s := by
  obtain ⟨refs, hl, rfl⟩ := h
  have hlines : e.lines.reduceOption = refs := by rw [hl]; simp [List.reduceOption]
  have hcountP : (refs.map s.text).countP search.regexp.isMatch =
      refs.countP fun x => search.regexp.isMatch (s.text x) := List.countP_map ..
  obtain ⟨-, hcount⟩ := matchingTurns_spec search text refs s
  rw [Operation.ReplaceSound, hlines]
  constructor
  · rintro ⟨e', s', hdone, refs', hl', htexts⟩
    obtain ⟨⟨count, lines, s₁⟩, hloop, he⟩ := Runs.bind_eq_ok_iff.mp
      (show (replaceLoop search text e.lines s >>= _) = _ from hdone)
    simp only [pure, Except.pure, Except.ok.injEq, Prod.mk.injEq] at he
    obtain ⟨rfl, rfl, rfl⟩ := he
    -- the entries are strings, so `gsub!` could change each line that matched at its turn
    have hstrings : none ∉ lines := by
      rw [show lines = _ from hl']
      simp
    rw [hl] at hloop
    have hturns := turns_of_replaceLoop hre hloop (.inr hstrings)
    rw [replaceLoop_eq_ok hre hturns] at hloop
    simp only [Except.ok.injEq, Prod.mk.injEq] at hloop
    obtain ⟨hc, hentries, rfl⟩ := hloop
    have hrefs : refs' = refs := by
      rw [← hentries] at hl'
      exact (List.map_injective_iff.mpr (Option.some_injective _) hl').symm
    subst hrefs
    have hmatch := hcount.mp (hc.trans hcountP)
    refine ⟨(hmatch.and hturns).imp fun t r _ hr hm => ⟨hr.1 hm, hr.2 (hr.1 hm)⟩, fun r hr hm => ?_⟩
    have htext := List.map_inj_left.mp (htexts.trans (List.map_map ..)) r hr
    exact htext.trans (if_pos hm)
  · rintro ⟨hturns, htexts⟩
    have hmatch : Turns search text (fun t r => search.regexp.isMatch (s.text r) = true →
        search.regexp.isMatch (t.text r) = true) refs s := hturns.imp fun t r _ hr hm => (hr hm).1
    have hsub : Turns search text (fun t r => search.regexp.isMatch (t.text r) = true →
        Substitutes search text t r) refs s :=
      (hturns.and (turns_isMatch search text refs s)).imp fun t r _ hr hm => (hr.1 (hr.2 hm)).2
    refine ⟨⟨refs.map some⟩, refs.foldl (visit search text) s, ?_, refs, rfl, ?_⟩
    · rw [Operation.run, Editor.replace, hl, replaceLoop_eq_ok hre hsub, hcount.mpr hmatch, ← hcountP]
      rfl
    · refine (List.map_congr_left fun r hr => ?_).trans (List.map_map ..).symm
      rw [Function.comp_apply]
      split
      · rename_i hm
        exact htexts r hr hm
      · rename_i hm
        exact foldl_visit_text_of_ne fun x _ hx => fun heq => hm (heq ▸ hx)

/-! ## Patterns that do not compile -/

/-- Without lines nothing is tested. -/
theorem does_of_nil (op : Operation) (hl : e.lines = []) : op.Does e s [] := by
  obtain ⟨lines⟩ := e
  obtain rfl : lines = [] := hl
  cases op with
  | replace search text => exact ⟨⟨[]⟩, s, rfl, [], rfl, rfl⟩
  | replaceLines search text => exact ⟨⟨[]⟩, s, rfl, [], rfl, rfl⟩
  | removeLines search => exact ⟨⟨[]⟩, s, rfl, [], rfl, rfl⟩
  | appendLineAfter search line => exact ⟨⟨[]⟩, s, rfl, [], rfl, rfl⟩
  | appendLineIfMissing search line => exact ⟨⟨[some line]⟩, s, rfl, [line], rfl, rfl⟩

/-- `line.match` raises when its pattern does not compile. -/
theorem lineMatches_eq_error {error : RubyError} (h : search.matcher = .error error) (line : Option Ref) :
    ∃ error, lineMatches s search line = .error error := by
  cases line with
  | none => exact ⟨_, rfl⟩
  | some r => exact ⟨error, by rw [lineMatches, h]; rfl⟩

/-- A pass over some lines raises when its pattern does not compile. -/
theorem eachLine_eq_error {error : RubyError} (h : search.matcher = .error error)
    (emit : Option Ref → Bool → List (Option Ref)) {lines : List (Option Ref)} (hl : lines ≠ []) :
    ∃ error, eachLine s search emit lines = .error error := by
  obtain ⟨line, rest, rfl⟩ := List.exists_cons_of_ne_nil hl
  obtain ⟨error, hline⟩ := lineMatches_eq_error (s := s) h line
  exact ⟨error, by rw [eachLine, hline]; rfl⟩

/-- With a line, a pattern that does not compile makes the operation raise. -/
theorem run_eq_error {op : Operation} {error : RubyError} (hl : e.lines ≠ [])
    (h : op.search.matcher = .error error) : ∃ error, op.run e s = .error error := by
  cases op with
  | replace search text =>
    replace h : search.matcher = .error error := h
    obtain ⟨line, rest, hcons⟩ := List.exists_cons_of_ne_nil hl
    obtain ⟨error, hline⟩ := lineMatches_eq_error (s := s) h line
    exact ⟨error, by rw [Operation.run, Editor.replace, hcons, replaceLoop, hline]; rfl⟩
  | replaceLines search text =>
    replace h : search.matcher = .error error := h
    obtain ⟨error, hpass⟩ := eachLine_eq_error (s := s) h (fun line found => [if found then some text else line]) hl
    exact ⟨error, by rw [Operation.run, Editor.replaceLines, hpass]; rfl⟩
  | removeLines search =>
    replace h : search.matcher = .error error := h
    obtain ⟨error, hpass⟩ := eachLine_eq_error (s := s) h (fun line found => if found then [] else [line]) hl
    exact ⟨error, by rw [Operation.run, Editor.removeLines, hpass]; rfl⟩
  | appendLineAfter search text =>
    replace h : search.matcher = .error error := h
    obtain ⟨error, hpass⟩ :=
      eachLine_eq_error (s := s) h (fun line found => line :: if found then [some text] else []) hl
    exact ⟨error, by rw [Operation.run, Editor.appendLineAfter, hpass]; rfl⟩
  | appendLineIfMissing search text =>
    replace h : search.matcher = .error error := h
    obtain ⟨line, rest, hcons⟩ := List.exists_cons_of_ne_nil hl
    obtain ⟨error, hline⟩ := lineMatches_eq_error (s := s) h line
    exact ⟨error, by rw [Operation.run, Editor.appendLineIfMissing, hcons, List.anyM, hline]; rfl⟩

/-- An operation that meets what is documented does what it reports. -/
theorem Meets.does {op : Operation} {edit : Edit} (hedit : op.edit = edit) (h : Meets op.run edit e s ls) :
    op.Does e s ls := by
  subst hedit
  obtain ⟨e', hrun, hrep, -⟩ := h
  exact ⟨e', s, hrun, hrep⟩

/-- With a pattern that compiles, the operations other than `replace` need nothing. -/
theorem does_iff_needs {op : Operation} (h : e.Represents s ls) (hre : op.search.matcher = .ok re) :
    op.Does e s ls ↔ op.Needs e s := by
  have hregexp : op.search.regexp = re := regexp_eq hre
  cases op with
  | replace search text => exact replace_does_iff h hre text
  | replaceLines search text =>
    exact iff_of_true (Meets.does (congrArg (Edit.replaceLine · text) hregexp) (replaceLines_meets h hre text)) trivial
  | removeLines search =>
    exact iff_of_true (Meets.does (congrArg Edit.deleteLine hregexp) (removeLines_meets h hre)) trivial
  | appendLineAfter search line =>
    exact iff_of_true
      (Meets.does (congrArg (Edit.insertAfter · line) hregexp) (appendLineAfter_meets h hre line)) trivial
  | appendLineIfMissing search line =>
    exact iff_of_true
      (Meets.does (congrArg (Edit.insertIfNoMatch · line) hregexp) (appendLineIfMissing_meets h hre line)) trivial

end Editor

/-- **An operation does what it reports exactly when it is sound.** -/
theorem Editor.Operation.does_iff {op : Editor.Operation} {e : Editor} {s : Strings} {ls : List Text}
    (h : e.Represents s ls) : op.Does e s ls ↔ op.Sound e s := by
  cases hre : op.search.matcher with
  | ok re =>
    have hcompiles : e.lines = [] ∨ ∃ re, op.search.matcher = .ok re := .inr ⟨re, hre⟩
    rw [Sound, and_iff_right hcompiles]
    exact Editor.does_iff_needs h hre
  | error error =>
    by_cases hl : e.lines = []
    · obtain ⟨refs, hrefs, rfl⟩ := h
      obtain rfl : refs = [] := List.map_eq_nil_iff.mp (hrefs.symm.trans hl)
      refine iff_of_true (does_of_nil op hl) ⟨.inl hl, ?_⟩
      cases op with
      | replace search text => simp [Needs, ReplaceSound, hl, Turns]
      | _ => trivial
    · refine iff_of_false ?_ ?_
      · rintro ⟨e', s', hrun, -⟩
        obtain ⟨error, herror⟩ := run_eq_error (s := s) hl hre
        rw [hrun] at herror
        cases herror
      · rintro ⟨hnone | ⟨re, hok⟩, -⟩
        · exact hl hnone
        · rw [hre] at hok
          cases hok

/-- Lines that are objects of their own, the replacement none of them: `replace` needs the two readings of the
pattern to agree on the lines that match, and these not to be frozen. -/
theorem Editor.replaceSound_iff {e : Editor} {s : Strings} {search : Pattern} {text : Ref}
    (hd : e.lines.Nodup) (htext : some text ∉ e.lines) :
    Operation.ReplaceSound search text e s ↔ ∀ r, some r ∈ e.lines → search.regexp.isMatch (s.text r) = true →
      Substitutes search text s r ∧
        search.substituter.replaceAll (s.text text) (s.text r) = search.regexp.replaceAll (s.text text) (s.text r) := by
  have hrefs : e.lines.reduceOption.Nodup := hd.filterMap fun x y r hx hy => (hx.trans hy.symm : x = y)
  have hnot : text ∉ e.lines.reduceOption := fun hmem => htext (List.reduceOption_mem_iff.mp hmem)
  have hturns := turns_eq search hrefs hnot s
  -- the turn of a line finds it as it was at the start
  have hsame : ∀ {t r}, t.text r = s.text r ∧ t.text text = s.text text ∧ t.frozen = s.frozen →
      (Substitutes search text t r ↔ Substitutes search text s r) := by
    rintro t r ⟨hr, hp, hf⟩
    rw [Substitutes, Substitutes, hr, hp, hf]
  have hlast : ∀ r ∈ e.lines.reduceOption, search.regexp.isMatch (s.text r) = true →
      (e.lines.reduceOption.foldl (visit search text) s).text r =
        search.substituter.replaceAll (s.text text) (s.text r) := fun r hr hm =>
    foldl_visit_text_of_mem hr hm (hrefs.filter _) fun x hx _ => ne_of_mem_of_not_mem hx hnot
  simp only [← List.reduceOption_mem_iff]
  constructor
  · rintro ⟨hsound, htexts⟩ r hr hm
    refine ⟨?_, (hlast r hr hm).symm.trans (htexts r hr hm)⟩
    exact ((hsound.and hturns).imp fun t x _ hx hmx => (hsame hx.2).mp (hx.1 hmx).2).forall r hr hm
  · intro h
    refine ⟨hturns.imp fun t r hr ht hm => ⟨?_, (hsame ht).mpr (h r hr hm).1⟩, fun r hr hm => ?_⟩
    · rwa [ht.1]
    · exact (hlast r hr hm).trans (h r hr hm).2

/-- `/^.*name.*$/`, for a name without special characters and a replacement without backslashes. -/
def wholeLine (name : Text) : Regexp where
  isMatch text := (text.splitOn '\n').any fun line => decide (name <:+: line)
  gsub replacement text :=
    .ok (['\n'].intercalate ((text.splitOn '\n').map fun line => if name <:+: line then replacement else line))

/-- `Regexp.new` of the strings below: `^.*web.*$` is an expression, `a` is one, `*.gex` is none. -/
def regexpNew (source : Text) : Except RubyError Regexp :=
  if source = "^.*web.*$".toList then .ok (wholeLine "web".toList)
  else if source = "a".toList then .ok (.letter 'a')
  else .error (.regexpError source)

/-- What `delete_string_matches` searches for when the container is `web`, as the `String` it is. -/
def webLines : Pattern := .ofString regexpNew "^.*web.*$".toList

/-- A wildcard as `remove_dnsmasq_entries_by_wildcard` is given one. -/
def gexNames : Pattern := .ofString regexpNew "*.gex".toList

/-- An empty string, `b`, and then the lines of an editor. -/
def replacements : Strings where
  text r := if r = 1 then "b".toList else []
  frozen _ := false
  fresh := 2

/-- An editor with the one line that the container `web` has. -/
def webEditor : Editor × Strings := Editor.new ["10.0.0.5 web.local\n".toList] replacements

/-- An editor that holds one string twice, as `append_line_after` leaves it. -/
def sharedEditor : Editor × Strings := (⟨[some 2, some 2]⟩, replacements.allocAll ["a\n".toList])

/-- An editor with two lines. -/
def twoEditor : Editor × Strings := Editor.new ["a\n".toList, "c\n".toList] replacements

/-- A `String` leaves `nil` where its line was; a line that is there twice is counted once; and a `String` that is
no regular expression makes `remove_lines` raise. -/
theorem Editor.replace_not_does :
    (((Operation.replace webLines 0).run webEditor.1 webEditor.2).map
        (fun result => (result.1, result.2.1.lines)) = .ok (1, [none]) ∧
      ¬ (Operation.replace webLines 0).Does webEditor.1 webEditor.2 ["10.0.0.5 web.local\n".toList]) ∧
    (((Operation.replace (.ofRegexp (.letter 'a')) 1).run sharedEditor.1 sharedEditor.2).map
        (fun result => result.1) = .ok 1 ∧
      sharedEditor.1.Represents sharedEditor.2 ["a\n".toList, "a\n".toList] ∧
      ¬ (Operation.replace (.ofRegexp (.letter 'a')) 1).Does sharedEditor.1 sharedEditor.2
        ["a\n".toList, "a\n".toList]) ∧
    (Operation.removeLines gexNames).run webEditor.1 webEditor.2 = .error (.regexpError "*.gex".toList) ∧
      ¬ (Operation.removeLines gexNames).Does webEditor.1 webEditor.2 ["10.0.0.5 web.local\n".toList] := by
  have hweb : ((Operation.replace webLines 0).run webEditor.1 webEditor.2).map
      (fun result => (result.1, result.2.1.lines)) = .ok (1, [none]) := by
    rfl
  have hshared : ((Operation.replace (.ofRegexp (.letter 'a')) 1).run sharedEditor.1 sharedEditor.2).map
      (fun result => result.1) = .ok 1 := by
    rfl
  have hgex : (Operation.removeLines gexNames).run webEditor.1 webEditor.2 =
      .error (.regexpError "*.gex".toList) := by
    rfl
  refine ⟨⟨hweb, ?_⟩, ⟨hshared, ⟨[2, 2], rfl, rfl⟩, ?_⟩, hgex, ?_⟩
  · rintro ⟨e', s', hrun, refs, hl, -⟩
    rw [hrun] at hweb
    cases refs with
    | nil => simp [Except.map, hl] at hweb
    | cons r refs => simp [Except.map, hl] at hweb
  · rintro ⟨e', s', hrun, -⟩
    rw [hrun] at hshared
    cases hshared
  · rintro ⟨e', s', hrun, -⟩
    rw [hrun] at hgex
    cases hgex

/-- `replace` with the `String` `a`, which both readings find in the first line. -/
theorem Editor.Operation.does_iff_two :
    (Operation.replace (.ofString regexpNew "a".toList) 1).Does twoEditor.1 twoEditor.2
      ["a\n".toList, "c\n".toList] := by
  refine (does_iff (new_represents ..)).mpr ⟨.inr ⟨.letter 'a', rfl⟩, ?_⟩
  refine (replaceSound_iff (by decide) (by decide)).mpr fun r hr hm => ?_
  simp only [Editor.new, replacements, List.length_cons, List.length_nil, List.range'_succ, List.range'_zero,
    List.map_cons, List.map_nil, List.mem_cons, Option.some.injEq, List.not_mem_nil, or_false] at hr
  rcases hr with rfl | rfl
  · exact ⟨⟨rfl, rfl, _, rfl⟩, rfl⟩
  · exact absurd hm (by decide)

end GexCloud
