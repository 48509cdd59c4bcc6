import GexCloud.Base.Ruby
import GexCloud.Support.Runs
import Mathlib.Data.List.Nodup
import Mathlib.Data.List.ReduceOption
import Mathlib.Logic.Function.Basic

/-! # `edit_utils.rb`: `Editor` and `FileEdit`

The line editor of the Ruby scripts and its copy in the Chef cookbook. Lines are Ruby `String`
objects: an operation that inserts or substitutes a line stores the object it is given, at every place,
and `gsub!` changes an object in place, wherever else it is held.

* `Strings` — the objects there are, which all editors and the script share.
* `Editor` — the five methods, on lists of references to them.
* `Edit` — a call with a `Regexp`, and what it is documented to do with a list of line texts.
* `replaceLoop_eq_ok` — the `map!` of `replace`: the objects are changed one after another.
* **`perform_spec`** — a call does what it is documented to do, provided it changes no object twice and
  not the one it was given. -/

namespace GexCloud

open Texts

/-- The identity of a Ruby `String` object. -/
abbrev Ref := Nat

/-- The `String` objects there are. -/
structure Strings where
  /-- The current text of each object. -/
  text : Ref → Text
  /-- Whether an object is frozen. -/
  frozen : Ref → Bool
  /-- The next unused identity. -/
  fresh : Ref

namespace Strings

/-- A program that starts has none. -/
def start : Strings := ⟨fun _ => [], fun _ => false, 0⟩

/-- New objects with the given texts; their identities are `fresh`, `fresh + 1` and so on. -/
def allocAll (s : Strings) (texts : List Text) : Strings where
  text r := if r < s.fresh then s.text r else texts.getD (r - s.fresh) []
  frozen r := decide (r < s.fresh) && s.frozen r
  fresh := s.fresh + texts.length

/-- An object is changed in place. -/
def set (s : Strings) (r : Ref) (text : Text) : Strings := { s with text := Function.update s.text r text }

/-- An object stays frozen or not when its text is changed. -/
@[simp] theorem set_frozen (s : Strings) (r : Ref) (text : Text) : (s.set r text).frozen = s.frozen := rfl

/-- No object is made by that. -/
@[simp] theorem set_fresh (s : Strings) (r : Ref) (text : Text) : (s.set r text).fresh = s.fresh := rfl

/-- The text of the object that is changed. -/
@[simp] theorem set_text_self (s : Strings) (r : Ref) (text : Text) : (s.set r text).text r = text :=
  Function.update_self ..

/-- The text of another object. -/
theorem set_text_of_ne {s : Strings} {r x : Ref} (h : x ≠ r) (text : Text) :
    (s.set r text).text x = s.text x := Function.update_of_ne h ..

/-- New objects leave those there are. -/
theorem allocAll_text {s : Strings} {r : Ref} (h : r < s.fresh) (texts : List Text) :
    (s.allocAll texts).text r = s.text r := if_pos h

end Strings

/-- `Editor`: the line list, whose entries may be `nil`. -/
structure Editor where
  /-- `@lines`. -/
  lines : List (Option Ref)

namespace Editor

/-- `Editor.new(lines)` on the strings `readlines` returns, each an object of its own. -/
def new (texts : List Text) (s : Strings) : Editor × Strings :=
  (⟨(List.range' s.fresh texts.length).map some⟩, s.allocAll texts)

/-- `line.match(search)`; on `nil` there is no such method, and a `String` is compiled. -/
def lineMatches (s : Strings) (search : Pattern) : Option Ref → Except RubyError Bool
  | none => .error .noMethodError
  | some r => do
    let re ← search.matcher
    return re.isMatch (s.text r)

/-- A pass over the lines: each is tested and gives the entries `emit` makes of it; the first
component counts the lines that matched. -/
def eachLine (s : Strings) (search : Pattern) (emit : Option Ref → Bool → List (Option Ref)) :
    List (Option Ref) → Except RubyError (Nat × List (Option Ref))
  | [] => .ok (0, [])
  | line :: rest => do
    let found ← lineMatches s search line
    let (count, lines) ← eachLine s search emit rest
    return (count + found.toNat, emit line found ++ lines)

/-- `append_line_after`: the inserted entries are all the one argument object. -/
def appendLineAfter (search : Pattern) (lineToAppend : Ref) (e : Editor) (s : Strings) :
    Except RubyError (Nat × Editor × Strings) := do
  let (_, lines) ← eachLine s search
    (fun line found => line :: if found then [some lineToAppend] else []) e.lines
  return (lines.length - e.lines.length, ⟨lines⟩, s)

/-- `append_line_if_missing`: `find` stops at the first matching line. -/
def appendLineIfMissing (search : Pattern) (lineToAppend : Ref) (e : Editor) (s : Strings) :
    Except RubyError (Nat × Editor × Strings) := do
  if ← e.lines.anyM (lineMatches s search) then
    return (0, e, s)
  else
    return (1, ⟨e.lines ++ [some lineToAppend]⟩, s)

/-- `remove_lines`. -/
def removeLines (search : Pattern) (e : Editor) (s : Strings) : Except RubyError (Nat × Editor × Strings) := do
  let (count, lines) ← eachLine s search (fun line found => if found then [] else [line]) e.lines
  return (count, ⟨lines⟩, s)

/-- `line.gsub!(search, replace)`: the same object with a new text, or `nil` when there is nothing to
substitute. The text of `replace` is read when the line has its turn. -/
def gsubBang (substituter : Regexp) (replace : Ref) (s : Strings) :
    Option Ref → Except RubyError (Option Ref × Strings)
  | none => .error .noMethodError
  | some r =>
    if s.frozen r then .error (.runtimeError "can't modify frozen String".toList)
    else if substituter.isMatch (s.text r) then do
      let text ← substituter.gsub (s.text replace) (s.text r)
      return (some r, s.set r text)
    else .ok (none, s)

/-- The `map!` of `replace`: each matching line becomes what `gsub!` returns. -/
def replaceLoop (search : Pattern) (replace : Ref) :
    List (Option Ref) → Strings → Except RubyError (Nat × List (Option Ref) × Strings)
  | [], s => .ok (0, [], s)
  | line :: rest, s => do
    if ← lineMatches s search line then
      let (line, s) ← gsubBang search.substituter replace s line
      let (count, lines, s) ← replaceLoop search replace rest s
      return (count + 1, line :: lines, s)
    else
      let (count, lines, s) ← replaceLoop search replace rest s
      return (count, line :: lines, s)

/-- `replace`. -/
def replace (search : Pattern) (replace : Ref) (e : Editor) (s : Strings) :
    Except RubyError (Nat × Editor × Strings) := do
  let (count, lines, s) ← replaceLoop search replace e.lines s
  return (count, ⟨lines⟩, s)

/-- `replace_lines`: the matching entries all become the one argument object. -/
def replaceLines (search : Pattern) (replace : Ref) (e : Editor) (s : Strings) :
    Except RubyError (Nat × Editor × Strings) := do
  let (count, lines) ← eachLine s search
    (fun line found => [if found then some replace else line]) e.lines
  return (count, ⟨lines⟩, s)

end Editor

/-- `FileEdit`: an editor on the lines of a file and whether it has unwritten changes. -/
structure FileEdit where
  /-- `@editor`. -/
  editor : Editor
  /-- `@original_pathname`. -/
  originalPathname : Text
  /-- `@changes`, whose initial `nil` reads as false. -/
  changes : Bool

namespace FileEdit

/-- `FileEdit.new filepath`. -/
def new (files : Files) (filepath : Text) (s : Strings) : Except RubyError (FileEdit × Strings) :=
  match files filepath with
  | none => .error (.argumentError ("File '".toList ++ filepath ++ "' does not exist".toList))
  | some content =>
    let (editor, s) := Editor.new (lines content) s
    .ok (⟨editor, filepath, false⟩, s)

/-- The common form of the editing methods: `@changes = (editor.… > 0) || @changes`. -/
def track (operation : Editor → Strings → Except RubyError (Nat × Editor × Strings)) (f : FileEdit)
    (s : Strings) : Except RubyError (FileEdit × Strings) := do
  let (count, editor, s) ← operation f.editor s
  return ({ f with editor, changes := decide (0 < count) || f.changes }, s)

/-- `search_file_replace_line`. -/
def searchFileReplaceLine (regex : Pattern) (newline : Ref) :
    FileEdit → Strings → Except RubyError (FileEdit × Strings) :=
  track (Editor.replaceLines regex newline)

/-- `search_file_replace`. -/
def searchFileReplace (regex : Pattern) (replace : Ref) :
    FileEdit → Strings → Except RubyError (FileEdit × Strings) :=
  track (Editor.replace regex replace)

/-- `search_file_delete_line`. -/
def searchFileDeleteLine (regex : Pattern) : FileEdit → Strings → Except RubyError (FileEdit × Strings) :=
  track (Editor.removeLines regex)

/-- `search_file_delete`: the replacement is a new object without text. -/
def searchFileDelete (regex : Pattern) (f : FileEdit) (s : Strings) :
    Except RubyError (FileEdit × Strings) :=
  searchFileReplace regex s.fresh f (s.allocAll [[]])

/-- `insert_line_after_match`. -/
def insertLineAfterMatch (regex : Pattern) (newline : Ref) :
    FileEdit → Strings → Except RubyError (FileEdit × Strings) :=
  track (Editor.appendLineAfter regex newline)

/-- `insert_line_if_no_match`. -/
def insertLineIfNoMatch (regex : Pattern) (newline : Ref) :
    FileEdit → Strings → Except RubyError (FileEdit × Strings) :=
  track (Editor.appendLineIfMissing regex newline)

/-- `newfile.puts(line)`: a missing newline is added, `nil` prints as an empty line. -/
def puts : Option Text → Text
  | none => ['\n']
  | some line => if line.getLast? = some '\n' then line else line ++ ['\n']

/-- The text `write_file` writes. -/
def output (e : Editor) (s : Strings) : Text := (e.lines.map fun line => puts (line.map s.text)).flatten

/-- `write_file`: back up the file and write the lines, only if something changed. -/
def writeFile (f : FileEdit) (s : Strings) (files : Files) : Except RubyError (FileEdit × Files) :=
  if f.changes then
    match files f.originalPathname with
    | none => .error (.commandFailed ("cp ".toList ++ f.originalPathname))
    | some old =>
      let files := Function.update files (f.originalPathname ++ ".old".toList) (some old)
      let files := Function.update files f.originalPathname (some (output f.editor s))
      .ok ({ f with changes := false }, files)
  else .ok ({ f with changes := false }, files)

end FileEdit

/-- `delete_string_matches`: the editor it makes is dropped without `write_file`. The pattern is the
`String` `^.*match.*$`. -/
def deleteStringMatches (files : Files) (file : Text) (pattern : Pattern) (s : Strings) :
    Except RubyError Files := do
  let (edit, s) ← FileEdit.new files file s
  let _ ← edit.searchFileDelete pattern s
  return files

/-! ## The editing operations with `Regexp` patterns -/

/-- An editing operation called with a `Regexp` and, where it needs one, a `String` object. -/
inductive Edit
  /-- `search_file_replace_line`. -/
  | replaceLine (re : Regexp) (newline : Ref)
  /-- `search_file_replace`. -/
  | replace (re : Regexp) (replacement : Ref)
  /-- `search_file_delete_line`. -/
  | deleteLine (re : Regexp)
  /-- `insert_line_after_match`. -/
  | insertAfter (re : Regexp) (newline : Ref)
  /-- `insert_line_if_no_match`. -/
  | insertIfNoMatch (re : Regexp) (newline : Ref)

namespace Edit

/-- Issuing the operation on a `FileEdit`. -/
def perform : Edit → FileEdit → Strings → Except RubyError (FileEdit × Strings)
  | replaceLine re newline => FileEdit.searchFileReplaceLine (.ofRegexp re) newline
  | replace re replacement => FileEdit.searchFileReplace (.ofRegexp re) replacement
  | deleteLine re => FileEdit.searchFileDeleteLine (.ofRegexp re)
  | insertAfter re newline => FileEdit.insertLineAfterMatch (.ofRegexp re) newline
  | insertIfNoMatch re newline => FileEdit.insertLineIfNoMatch (.ofRegexp re) newline

/-- The `String` object the operation is given. -/
def argument : Edit → Option Ref
  | replaceLine _ r | replace _ r | insertAfter _ r | insertIfNoMatch _ r => some r
  | deleteLine _ => none

/-- **The documented effect** of the operation on the line texts, the objects having the texts `text`. -/
def apply (text : Ref → Text) : Edit → List Text → List Text
  | replaceLine re newline, ls => ls.map fun l => if re.isMatch l then text newline else l
  | replace re replacement, ls => ls.map fun l => if re.isMatch l then re.replaceAll (text replacement) l else l
  | deleteLine re, ls => ls.filter fun l => !re.isMatch l
  | insertAfter re newline, ls => ls.flatMap fun l => if re.isMatch l then [l, text newline] else [l]
  | insertIfNoMatch re newline, ls => if ls.any re.isMatch then ls else ls ++ [text newline]

/-- Whether the operation reports a change. -/
def touches : Edit → List Text → Bool
  | replaceLine re _, ls | replace re _, ls | deleteLine re, ls | insertAfter re _, ls =>
    ls.any re.isMatch
  | insertIfNoMatch re _, ls => !ls.any re.isMatch

/-- The number of lines the operation changes, deletes or adds, as documented. -/
def count : Edit → List Text → Nat
  | replaceLine re _, ls | replace re _, ls | deleteLine re, ls | insertAfter re _, ls => ls.countP re.isMatch
  | insertIfNoMatch re _, ls => if ls.any re.isMatch then 0 else 1

/-- A change is reported when something is counted. -/
theorem count_pos (op : Edit) (ls : List Text) : decide (0 < op.count ls) = op.touches ls := by
  rw [Bool.eq_iff_iff, decide_eq_true_eq]
  cases op with
  | insertIfNoMatch re newline => cases hm : ls.any re.isMatch <;> simp [count, touches, hm]
  | replaceLine re _ => simp [count, touches, List.countP_pos_iff]
  | replace re _ => simp [count, touches, List.countP_pos_iff]
  | deleteLine re => simp [count, touches, List.countP_pos_iff]
  | insertAfter re _ => simp [count, touches, List.countP_pos_iff]

/-- Only the text of the argument counts. -/
theorem apply_congr {op : Edit} {text text' : Ref → Text} (h : ∀ r, op.argument = some r → text r = text' r)
    (ls : List Text) : op.apply text ls = op.apply text' ls := by
  cases op with
  | deleteLine re => rfl
  | replaceLine re r => rw [apply, apply, h r rfl]
  | replace re r => rw [apply, apply, h r rfl]
  | insertAfter re r => rw [apply, apply, h r rfl]
  | insertIfNoMatch re r => rw [apply, apply, h r rfl]

end Edit

namespace Editor

/-- Whether an entry is a line that matches. -/
def found (s : Strings) (re : Regexp) (line : Option Ref) : Bool := line.any fun r => re.isMatch (s.text r)

/-- The editor holds exactly the line texts `ls`. -/
def Represents (e : Editor) (s : Strings) (ls : List Text) : Prop :=
  ∃ refs : List Ref, e.lines = refs.map some ∧ refs.map s.text = ls

variable {e : Editor} {s : Strings} {ls : List Text} {re : Regexp} {search : Pattern}

/-- A new editor holds the lines it is given. -/
theorem new_represents (texts : List Text) (s : Strings) :
    (Editor.new texts s).1.Represents (Editor.new texts s).2 texts := by
  refine ⟨List.range' s.fresh texts.length, rfl, ?_⟩
  apply List.ext_getElem
  · simp
  · intro i hi hi'
    have hfresh : ¬ s.fresh + i < s.fresh := Nat.not_lt.mpr (Nat.le_add_right s.fresh i)
    simp [new, Strings.allocAll, hi', hfresh]

/-- The lines of a new editor are objects there are. -/
theorem new_lines_lt {texts : List Text} {r : Ref} (h : some r ∈ (Editor.new texts s).1.lines) :
    r < (Editor.new texts s).2.fresh := by
  simp only [new, List.mem_map, Option.some.injEq, exists_eq_right, List.mem_range'_1] at h
  exact h.2

/-- An editor whose objects keep their texts holds the same lines. -/
theorem Represents.congr {s' : Strings} (h : e.Represents s ls)
    (hsame : ∀ r, some r ∈ e.lines → s'.text r = s.text r) : e.Represents s' ls := by
  obtain ⟨refs, hl, rfl⟩ := h
  refine ⟨refs, hl, List.map_congr_left fun r hr => hsame r ?_⟩
  rw [hl]
  exact List.mem_map_of_mem hr

/-! ## The operations that only test the lines -/

/-- A pass over lines that are no `nil` succeeds, unless there is a line and the pattern does not
compile. -/
theorem eachLine_refs (h : search.matcher = .ok re) (emit : Option Ref → Bool → List (Option Ref))
    (refs : List Ref) :
    eachLine s search emit (refs.map some) =
      .ok (refs.countP fun r => re.isMatch (s.text r),
        refs.flatMap fun r => emit (some r) (re.isMatch (s.text r))) := by
  induction refs with
  | nil => rfl
  | cons r refs ih =>
    simp only [List.map_cons, eachLine, lineMatches, ih, h,
      List.countP_cons, List.flatMap_cons, bind, Except.bind, pure, Except.pure]
    cases re.isMatch (s.text r) <;> rfl

/-- What an operation that only tests the lines does: it counts what is documented, leaves the lines that are
documented, and adds no object but the one it is given. -/
def Meets (operation : Editor → Strings → Except RubyError (Nat × Editor × Strings)) (op : Edit) (e : Editor)
    (s : Strings) (ls : List Text) : Prop :=
  ∃ e', operation e s = .ok (op.count ls, e', s) ∧ e'.Represents s (op.apply s.text ls) ∧
    ∀ r, some r ∈ e'.lines → some r ∈ e.lines ∨ op.argument = some r

/-- Dropping the entries that match. -/
theorem flatMap_drop (p : Ref → Bool) (refs : List Ref) :
    (refs.flatMap fun r => if p r then [] else [some r]) = (refs.filter fun r => !p r).map some := by
  induction refs with
  | nil => rfl
  | cons r refs ih => cases hr : p r <;> simp [hr, ih]

/-- `remove_lines` deletes the matching lines. -/
theorem removeLines_meets (h : e.Represents s ls) (hre : search.matcher = .ok re) :
    Meets (removeLines search) (.deleteLine re) e s ls := by
  obtain ⟨refs, hl, rfl⟩ := h
  refine ⟨⟨(refs.filter fun r => !re.isMatch (s.text r)).map some⟩, ?_, ⟨_, rfl, ?_⟩, fun r hr => .inl ?_⟩
  · rw [removeLines, hl, eachLine_refs hre, flatMap_drop, Edit.count, List.countP_map]
    rfl
  · simp [Edit.apply, List.filter_map, Function.comp_def]
  · rw [hl]
    exact (List.filter_sublist.map some).subset hr

/-- Replacing the entries that match by the given object. -/
theorem flatMap_substitute (p : Ref → Bool) (new : Ref) (refs : List Ref) :
    (refs.flatMap fun r => [if p r then some new else some r]) =
      (refs.map fun r => if p r then new else r).map some := by
  induction refs with
  | nil => rfl
  | cons r refs ih => cases hr : p r <;> simp [hr, ih]

/-- `replace_lines` replaces the matching lines. -/
theorem replaceLines_meets (h : e.Represents s ls) (hre : search.matcher = .ok re) (newline : Ref) :
    Meets (replaceLines search newline) (.replaceLine re newline) e s ls := by
  obtain ⟨refs, hl, rfl⟩ := h
  refine ⟨⟨(refs.map fun r => if re.isMatch (s.text r) then newline else r).map some⟩, ?_, ⟨_, rfl, ?_⟩,
    fun r hr => ?_⟩
  · rw [replaceLines, hl, eachLine_refs hre, flatMap_substitute, Edit.count, List.countP_map]
    rfl
  · simp only [Edit.apply, List.map_map]
    refine List.map_congr_left fun r _ => ?_
    simp only [Function.comp_apply]
    split <;> rfl
  · simp only [List.mem_map, Option.some.injEq, exists_eq_right] at hr
    obtain ⟨x, hx, rfl⟩ := hr
    split
    · exact .inr rfl
    · exact .inl (by simp [hl, hx])

/-- Inserting the given object after each entry that matches. -/
theorem flatMap_insert (p : Ref → Bool) (new : Ref) (refs : List Ref) :
    (refs.flatMap fun r => some r :: if p r then [some new] else []) =
      (refs.flatMap fun r => if p r then [r, new] else [r]).map some := by
  induction refs with
  | nil => rfl
  | cons r refs ih => cases hr : p r <;> simp [hr, ih]

/-- Inserting after some elements adds as many elements. -/
theorem length_flatMap_insert (p : Ref → Bool) (new : Ref) (refs : List Ref) :
    (refs.flatMap fun r => some r :: if p r then [some new] else []).length =
      refs.length + refs.countP p := by
  induction refs with
  | nil => rfl
  | cons r refs ih => cases hr : p r <;> simp [hr, ih] <;> omega

/-- `append_line_after` inserts after the matching lines. -/
theorem appendLineAfter_meets (h : e.Represents s ls) (hre : search.matcher = .ok re) (newline : Ref) :
    Meets (appendLineAfter search newline) (.insertAfter re newline) e s ls := by
  obtain ⟨refs, hl, rfl⟩ := h
  have hcount : (refs.flatMap fun r => some r :: if re.isMatch (s.text r) then [some newline] else []).length -
      e.lines.length = Edit.count (.insertAfter re newline) (refs.map s.text) := by
    rw [length_flatMap_insert, hl, List.length_map, Nat.add_sub_cancel_left, Edit.count, List.countP_map]
    rfl
  refine ⟨⟨(refs.flatMap fun r => if re.isMatch (s.text r) then [r, newline] else [r]).map some⟩, ?_,
    ⟨_, rfl, ?_⟩, fun r hr => ?_⟩
  · rw [← hcount, appendLineAfter, hl, eachLine_refs hre, ← flatMap_insert]
    rfl
  · simp only [Edit.apply, List.map_flatMap, List.flatMap_map]
    congr 1
    funext r
    split <;> rfl
  · simp only [List.mem_map, Option.some.injEq, exists_eq_right, List.mem_flatMap] at hr
    obtain ⟨x, hx, hr⟩ := hr
    split at hr
    · rcases List.mem_pair.mp hr with rfl | rfl
      · exact .inl (by simp [hl, hx])
      · exact .inr rfl
    · rw [List.mem_singleton.mp hr]
      exact .inl (by simp [hl, hx])

/-- `find` finds a line exactly when some line text matches. -/
theorem anyM_lineMatches (hre : search.matcher = .ok re) (refs : List Ref) :
    (refs.map some).anyM (lineMatches s search) = .ok ((refs.map s.text).any re.isMatch) := by
  have hline : ∀ line ∈ refs.map some, lineMatches s search line = .ok (found s re line) := by
    intro line hline
    obtain ⟨r, -, rfl⟩ := List.mem_map.mp hline
    rw [lineMatches, hre]
    rfl
  rw [Runs.anyM_eq_ok hline]
  simp [found, List.any_map, Function.comp_def]

/-- `append_line_if_missing` appends when no line matches. -/
theorem appendLineIfMissing_meets (h : e.Represents s ls) (hre : search.matcher = .ok re) (newline : Ref) :
    Meets (appendLineIfMissing search newline) (.insertIfNoMatch re newline) e s ls := by
  obtain ⟨refs, hl, rfl⟩ := h
  cases hm : (refs.map s.text).any re.isMatch with
  | true =>
    refine ⟨e, ?_, ⟨refs, hl, ?_⟩, fun r hr => .inl hr⟩
    · rw [appendLineIfMissing, hl, anyM_lineMatches hre, hm, Edit.count, hm]
      rfl
    · rw [Edit.apply, hm]
      rfl
  | false =>
    refine ⟨⟨e.lines ++ [some newline]⟩, ?_, ⟨refs ++ [newline], ?_, ?_⟩, fun r hr => ?_⟩
    · rw [appendLineIfMissing, hl, anyM_lineMatches hre, hm, Edit.count, hm]
      rfl
    · rw [hl, List.map_append]
      rfl
    · rw [Edit.apply, hm, List.map_append]
      rfl
    · rcases List.mem_append.mp hr with hr | hr
      · exact .inl hr
      · exact .inr (List.mem_singleton.mp hr).symm

/-! ## `replace` -/

/-- The objects once `line.gsub!(search, replace)` was called on a line, if it matches. -/
def visit (search : Pattern) (replace : Ref) (s : Strings) (r : Ref) : Strings :=
  if search.regexp.isMatch (s.text r) then
    s.set r (search.substituter.replaceAll (s.text replace) (s.text r))
  else s

/-- `gsub!` on the object finds something to substitute, and neither it nor the replacement makes it raise. -/
def Substitutes (search : Pattern) (replace : Ref) (s : Strings) (r : Ref) : Prop :=
  s.frozen r = false ∧ search.substituter.isMatch (s.text r) = true ∧
    ∃ text, search.substituter.gsub (s.text replace) (s.text r) = .ok text

/-- Something holds of each line when its turn comes, the lines before it having been visited. -/
def Turns (search : Pattern) (replace : Ref) (Q : Strings → Ref → Prop) : List Ref → Strings → Prop
  | [], _ => True
  | r :: refs, s => Q s r ∧ Turns search replace Q refs (visit search replace s r)

/-- The number of lines that match when their turn comes. -/
def matchingTurns (search : Pattern) (replace : Ref) : List Ref → Strings → Nat
  | [], _ => 0
  | r :: refs, s =>
    matchingTurns search replace refs (visit search replace s r) + (search.regexp.isMatch (s.text r)).toNat

/-- The expression of a pattern that compiles. -/
theorem regexp_eq (h : search.matcher = .ok re) : search.regexp = re := by rw [Pattern.regexp, h]

/-- A visit keeps what is frozen. -/
@[simp] theorem visit_frozen (search : Pattern) (replace : Ref) (s : Strings) (r : Ref) :
    (visit search replace s r).frozen = s.frozen := by
  unfold visit
  split <;> rfl

/-- A visit makes no new object. -/
@[simp] theorem visit_fresh (search : Pattern) (replace : Ref) (s : Strings) (r : Ref) :
    (visit search replace s r).fresh = s.fresh := by
  unfold visit
  split <;> rfl

/-- Visits make no new object. -/
theorem foldl_visit_fresh (search : Pattern) (replace : Ref) (refs : List Ref) (s : Strings) :
    (refs.foldl (visit search replace) s).fresh = s.fresh := by
  induction refs generalizing s with
  | nil => rfl
  | cons r refs ih => rw [List.foldl_cons, ih, visit_fresh]

/-- A line that does not match is left as it is. -/
theorem visit_eq_self {replace r : Ref} (h : search.regexp.isMatch (s.text r) = false) :
    visit search replace s r = s := if_neg (by simp [h])

/-- A visit leaves the other objects. -/
theorem visit_text_of_ne {replace r x : Ref} (h : x ≠ r) : (visit search replace s r).text x = s.text x := by
  unfold visit
  split
  · exact Strings.set_text_of_ne h _
  · rfl

/-- A line that does not match never comes to match. -/
theorem isMatch_of_visit {replace r x : Ref}
    (h : search.regexp.isMatch ((visit search replace s r).text x) = true) :
    search.regexp.isMatch (s.text x) = true := by
  by_cases hx : x = r
  · subst hx
    by_contra hm
    rw [Bool.not_eq_true] at hm
    rw [visit_eq_self hm, hm] at h
    cases h
  · rwa [visit_text_of_ne hx] at h

/-- `gsub!` on a line it can change. -/
theorem gsubBang_eq_ok {replace r : Ref} (hm : search.regexp.isMatch (s.text r) = true)
    (h : Substitutes search replace s r) :
    gsubBang search.substituter replace s (some r) = .ok (some r, visit search replace s r) := by
  obtain ⟨hfrozen, hfinds, text, htext⟩ := h
  rw [gsubBang, if_neg (by simp [hfrozen]), if_pos hfinds, htext, visit, if_pos hm, Regexp.replaceAll, htext]
  rfl

/-- A line that has something to substitute, or that `gsub!` leaves a string, is one it could change. -/
theorem substitutes_of_gsubBang {replace r : Ref} {line : Option Ref} {s' : Strings}
    (h : gsubBang search.substituter replace s (some r) = .ok (line, s'))
    (hline : search.substituter.isMatch (s.text r) = true ∨ line ≠ none) : Substitutes search replace s r := by
  rw [gsubBang] at h
  cases hfrozen : s.frozen r with
  | true => simp [hfrozen] at h
  | false =>
    cases hfinds : search.substituter.isMatch (s.text r) with
    | false =>
      simp only [hfrozen, hfinds, Bool.false_eq_true, if_false, Except.ok.injEq, Prod.mk.injEq] at h
      rcases hline with hline | hline
      · exact absurd (hfinds.symm.trans hline) (by decide)
      · exact absurd h.1.symm hline
    | true =>
      rw [if_neg (by simp [hfrozen]), if_pos hfinds, Runs.bind_eq_ok_iff] at h
      obtain ⟨text, htext, -⟩ := h
      exact ⟨hfrozen, hfinds, text, htext⟩

/-- **The `map!` of `replace`** on lines that can be changed when their turn comes: it keeps the entries, and
the objects are visited one after another. -/
theorem replaceLoop_eq_ok (hre : search.matcher = .ok re) {replace : Ref} {refs : List Ref} {s : Strings}
    (h : Turns search replace (fun t r => search.regexp.isMatch (t.text r) = true → Substitutes search replace t r)
      refs s) :
    replaceLoop search replace (refs.map some) s =
      .ok (matchingTurns search replace refs s, refs.map some, refs.foldl (visit search replace) s) := by
  induction refs generalizing s with
  | nil => rfl
  | cons r refs ih =>
    obtain ⟨hr, hrest⟩ := h
    have hline : lineMatches s search (some r) = .ok (search.regexp.isMatch (s.text r)) := by
      rw [lineMatches, hre, regexp_eq hre]
      rfl
    rw [List.map_cons, replaceLoop, hline, List.foldl_cons, matchingTurns]
    cases hm : search.regexp.isMatch (s.text r) with
    | true =>
      show (gsubBang search.substituter replace s (some r) >>= _) = _
      rw [gsubBang_eq_ok hm (hr hm)]
      show (replaceLoop search replace (refs.map some) (visit search replace s r) >>= _) = _
      rw [ih hrest]
      rfl
    | false =>
      rw [visit_eq_self hm] at hrest
      show (replaceLoop search replace (refs.map some) s >>= _) = _
      rw [ih hrest, visit_eq_self hm]
      rfl

/-- Where `replace` returns, and every matching line has something to substitute or all lines are left
strings, the matching lines could be changed when their turn came. -/
theorem turns_of_replaceLoop (hre : search.matcher = .ok re) {replace : Ref} {refs : List Ref} {s s' : Strings}
    {count : Nat} {lines : List (Option Ref)}
    (h : replaceLoop search replace (refs.map some) s = .ok (count, lines, s'))
    (hlines : (∀ line, search.regexp.isMatch line = true → search.substituter.isMatch line = true) ∨ none ∉ lines) :
    Turns search replace (fun t r => search.regexp.isMatch (t.text r) = true → Substitutes search replace t r)
      refs s := by
  induction refs generalizing s count lines with
  | nil => trivial
  | cons r refs ih =>
    have hline : lineMatches s search (some r) = .ok (search.regexp.isMatch (s.text r)) := by
      rw [lineMatches, hre, regexp_eq hre]
      rfl
    rw [List.map_cons, replaceLoop, hline] at h
    cases hm : search.regexp.isMatch (s.text r) with
    | true =>
      rw [hm] at h
      obtain ⟨⟨line, s₁⟩, hgsub, h⟩ := Runs.bind_eq_ok_iff.mp
        (show (gsubBang search.substituter replace s (some r) >>= _) = _ from h)
      obtain ⟨⟨count', lines', s₂⟩, hrest, h⟩ := Runs.bind_eq_ok_iff.mp h
      simp only [pure, Except.pure, Except.ok.injEq, Prod.mk.injEq] at h
      obtain ⟨-, rfl, rfl⟩ := h
      rw [List.mem_cons, not_or] at hlines
      have hsub := substitutes_of_gsubBang hgsub (hlines.imp (fun hall => hall _ hm) fun h => Ne.symm h.1)
      rw [gsubBang_eq_ok hm hsub] at hgsub
      obtain ⟨-, rfl⟩ := Prod.mk.inj (Except.ok.inj hgsub)
      exact ⟨fun _ => hsub, ih hrest (hlines.imp_right And.right)⟩
    | false =>
      rw [hm] at h
      obtain ⟨⟨count', lines', s₂⟩, hrest, h⟩ := Runs.bind_eq_ok_iff.mp
        (show (replaceLoop search replace (refs.map some) s >>= _) = _ from h)
      simp only [pure, Except.pure, Except.ok.injEq, Prod.mk.injEq] at h
      obtain ⟨-, rfl, rfl⟩ := h
      rw [List.mem_cons, not_or] at hlines
      refine ⟨fun h => absurd (hm.symm.trans h) (by decide), ?_⟩
      rw [visit_eq_self hm]
      exact ih hrest (hlines.imp_right And.right)

/-- Some line matches when its turn comes exactly when one matches at the start. -/
theorem matchingTurns_pos (search : Pattern) (replace : Ref) (refs : List Ref) (s : Strings) :
    decide (0 < matchingTurns search replace refs s) = (refs.map s.text).any search.regexp.isMatch := by
  induction refs with
  | nil => rfl
  | cons r refs ih =>
    rw [matchingTurns, List.map_cons, List.any_cons]
    cases hm : search.regexp.isMatch (s.text r) with
    | true => simp
    | false =>
      -- nothing has changed before the turn of the next line
      rw [visit_eq_self hm, Bool.false_or, ← ih]
      rfl

/-- An object that is no matching line keeps its text. -/
theorem foldl_visit_text_of_ne {replace x : Ref} {refs : List Ref} {s : Strings}
    (h : ∀ r ∈ refs, search.regexp.isMatch (s.text r) = true → r ≠ x) :
    (refs.foldl (visit search replace) s).text x = s.text x := by
  induction refs generalizing s with
  | nil => rfl
  | cons r refs ih =>
    rw [List.foldl_cons, ih fun y hy hm => h y (List.mem_cons_of_mem r hy) (isMatch_of_visit hm)]
    cases hm : search.regexp.isMatch (s.text r) with
    | true => exact visit_text_of_ne (h r List.mem_cons_self hm).symm
    | false => rw [visit_eq_self hm]

/-- The text of a matching line that is at no other place, when the replacement is no matching line. -/
theorem foldl_visit_text_of_mem {replace x : Ref} {refs : List Ref} {s : Strings} (hx : x ∈ refs)
    (hm : search.regexp.isMatch (s.text x) = true)
    (hd : (refs.filter fun r => search.regexp.isMatch (s.text r)).Nodup)
    (hp : ∀ r ∈ refs, search.regexp.isMatch (s.text r) = true → r ≠ replace) :
    (refs.foldl (visit search replace) s).text x =
      search.substituter.replaceAll (s.text replace) (s.text x) := by
  induction refs generalizing s with
  | nil => cases hx
  | cons r refs ih =>
    rw [List.foldl_cons]
    by_cases hxr : x = r
    · subst hxr
      rw [List.filter_cons, if_pos hm, List.nodup_cons, List.mem_filter, not_and] at hd
      have hnot : x ∉ refs := fun hmem => hd.1 hmem hm
      rw [foldl_visit_text_of_ne fun y hy _ => ne_of_mem_of_not_mem hy hnot, visit, if_pos hm,
        Strings.set_text_self]
    · have htext : (visit search replace s r).text x = s.text x := visit_text_of_ne hxr
      have hrep : (visit search replace s r).text replace = s.text replace := by
        cases hr : search.regexp.isMatch (s.text r) with
        | true => exact visit_text_of_ne (hp r List.mem_cons_self hr).symm
        | false => rw [visit_eq_self hr]
      have hsub : List.Sublist (refs.filter fun y => search.regexp.isMatch ((visit search replace s r).text y))
          ((r :: refs).filter fun y => search.regexp.isMatch (s.text y)) :=
        (List.monotone_filter_right refs fun y hy => isMatch_of_visit hy).trans
          ((List.sublist_cons_self r refs).filter _)
      rw [ih ((List.mem_cons.mp hx).resolve_left hxr) (by rwa [htext]) (hd.sublist hsub)
        (fun y hy hmy => hp y (List.mem_cons_of_mem r hy) (isMatch_of_visit hmy)), htext, hrep]

end Editor

namespace Edit

/-- The objects the operation changes in place: the lines that `search_file_replace` finds. -/
def rewritten (e : Editor) (s : Strings) : Edit → List Ref
  | replace re _ => e.lines.reduceOption.filter fun r => re.isMatch (s.text r)
  | _ => []

/-- The operation changes no object twice, and not the one it is given. -/
def Apart (op : Edit) (e : Editor) (s : Strings) : Prop :=
  (op.rewritten e s).Nodup ∧ ∀ r ∈ op.rewritten e s, op.argument ≠ some r

/-- What an operation is documented to do with an editor and the objects. -/
structure Performed (op : Edit) (f f' : FileEdit) (s s' : Strings) (ls : List Text) : Prop where
  /-- The lines are those that are documented. -/
  represents : f'.editor.Represents s' (op.apply s.text ls)
  /-- A change is recorded. -/
  changes : f'.changes = (op.touches ls || f.changes)
  /-- It is an edit of the same file. -/
  name : f'.originalPathname = f.originalPathname
  /-- No other object comes in than the given one. -/
  lines : ∀ r, some r ∈ f'.editor.lines → some r ∈ f.editor.lines ∨ op.argument = some r
  /-- No other object changes than those the operation changes in place. -/
  texts : ∀ r ∉ op.rewritten f.editor s, s'.text r = s.text r
  fresh : s'.fresh = s.fresh

variable {f f' : FileEdit} {s s' : Strings} {ls : List Text}

/-- A tracked operation that only tests the lines. -/
theorem track_spec {operation : Editor → Strings → Except RubyError (Nat × Editor × Strings)} {op : Edit}
    (h : Editor.Meets operation op f.editor s ls) (hrun : FileEdit.track operation f s = .ok (f', s')) :
    Performed op f f' s s' ls := by
  obtain ⟨e', hop, hrep, hlines⟩ := h
  rw [FileEdit.track, hop] at hrun
  obtain ⟨rfl, rfl⟩ := Prod.mk.inj (Except.ok.inj hrun)
  exact ⟨hrep, by rw [← count_pos], rfl, hlines, fun _ _ => rfl, rfl⟩

/-- `search_file_replace` changes each line it finds once. -/
theorem replace_spec {re : Regexp} {replacement : Ref} (h : f.editor.Represents s ls)
    (hd : (Edit.replace re replacement).Apart f.editor s)
    (hrun : (Edit.replace re replacement).perform f s = .ok (f', s')) :
    Performed (.replace re replacement) f f' s s' ls := by
  obtain ⟨refs, hl, rfl⟩ := h
  have hlines : f.editor.lines.reduceOption = refs := by rw [hl]; simp [List.reduceOption]
  have hrewritten : (Edit.replace re replacement).rewritten f.editor s =
      refs.filter fun r => re.isMatch (s.text r) := by rw [rewritten, hlines]
  rw [Apart, hrewritten] at hd
  have hp : ∀ r ∈ refs, re.isMatch (s.text r) = true → r ≠ replacement := fun r hr hm heq =>
    hd.2 r (List.mem_filter.mpr ⟨hr, hm⟩) (congrArg some heq.symm)
  obtain ⟨⟨_, e', _⟩, hreplace, ht⟩ := Runs.bind_eq_ok_iff.mp
    (show (Editor.replace (.ofRegexp re) replacement f.editor s >>= _) = _ from hrun)
  obtain ⟨⟨count, lines, s₁⟩, hloop, he⟩ := Runs.bind_eq_ok_iff.mp hreplace
  rw [hl] at hloop
  -- a line the expression finds has something to substitute, so the loop is the one that visits them all
  have hturns := Editor.turns_of_replaceLoop rfl hloop (.inl fun _ => id)
  rw [Editor.replaceLoop_eq_ok rfl hturns] at hloop
  simp only [Except.ok.injEq, Prod.mk.injEq] at hloop
  obtain ⟨rfl, rfl, rfl⟩ := hloop
  simp only [pure, Except.pure, Except.ok.injEq, Prod.mk.injEq] at he
  obtain ⟨rfl, rfl, rfl⟩ := he
  obtain ⟨rfl, rfl⟩ := Prod.mk.inj (Except.ok.inj ht)
  refine ⟨⟨refs, rfl, ?_⟩, ?_, rfl, fun r hr => .inl (hl ▸ hr), fun r hr => ?_, ?_⟩
  · rw [apply, List.map_map]
    refine List.map_congr_left fun r hr => ?_
    rw [Function.comp_apply]
    split
    · rename_i hm
      exact Editor.foldl_visit_text_of_mem hr hm hd.1 hp
    · rename_i hm
      exact Editor.foldl_visit_text_of_ne fun x _ hx => fun heq => hm (heq ▸ hx)
  · show (decide _ || _) = _
    rw [Editor.matchingTurns_pos]
    rfl
  · rw [hrewritten] at hr
    exact Editor.foldl_visit_text_of_ne fun x hx hm heq => hr (List.mem_filter.mpr ⟨heq ▸ hx, heq ▸ hm⟩)
  · exact Editor.foldl_visit_fresh ..

/-- **An editing operation does what it is documented to do** with the lines the editor holds, and
records whether it changed anything. -/
theorem perform_spec (op : Edit) (h : f.editor.Represents s ls) (hd : op.Apart f.editor s)
    (hrun : op.perform f s = .ok (f', s')) : Performed op f f' s s' ls := by
  cases op with
  | replaceLine re newline => exact track_spec (Editor.replaceLines_meets h rfl newline) hrun
  | replace re replacement => exact replace_spec h hd hrun
  | deleteLine re => exact track_spec (Editor.removeLines_meets h rfl) hrun
  | insertAfter re newline => exact track_spec (Editor.appendLineAfter_meets h rfl newline) hrun
  | insertIfNoMatch re newline => exact track_spec (Editor.appendLineIfMissing_meets h rfl newline) hrun

/-- The documented effect of several operations, in order. -/
def applyAll (text : Ref → Text) (ops : List Edit) (ls : List Text) : List Text :=
  ops.foldl (fun ls op => op.apply text ls) ls

/-- Whether one of several operations, in order, reports a change. -/
def touchesAny (text : Ref → Text) : List Edit → List Text → Bool
  | [], _ => false
  | op :: ops, ls => op.touches ls || touchesAny text ops (op.apply text ls)

/-- No operations leave the lines. -/
@[simp] theorem applyAll_nil (text : Ref → Text) (ls : List Text) : applyAll text [] ls = ls := rfl

/-- One operation more. -/
theorem applyAll_concat (text : Ref → Text) (ops : List Edit) (op : Edit) (ls : List Text) :
    applyAll text (ops ++ [op]) ls = op.apply text (applyAll text ops ls) := by
  simp [applyAll, List.foldl_append]

/-- One operation more. -/
theorem touchesAny_concat (text : Ref → Text) (ops : List Edit) (op : Edit) (ls : List Text) :
    touchesAny text (ops ++ [op]) ls = (op.touches (applyAll text ops ls) || touchesAny text ops ls) := by
  induction ops generalizing ls with
  | nil => simp [touchesAny]
  | cons first ops ih =>
    simp only [List.cons_append, touchesAny, ih, applyAll, List.foldl_cons]
    cases first.touches ls <;> simp

/-- The text written for a list of lines. -/
def written (ls : List Text) : Text := (ls.map fun l => FileEdit.puts (some l)).flatten

/-- **The content obtained by applying the operations in order**; nothing is rewritten when none of
them changes anything. -/
def editedContent (text : Ref → Text) (ops : List Edit) (content : Text) : Text :=
  if touchesAny text ops (lines content) then written (applyAll text ops (lines content)) else content

/-- Without operations the content stays. -/
@[simp] theorem editedContent_nil (text : Ref → Text) (content : Text) : editedContent text [] content = content :=
  rfl

end Edit

/-- The text `write_file` writes is that of the lines the editor holds. -/
theorem FileEdit.output_eq {e : Editor} {s : Strings} {ls : List Text} (h : e.Represents s ls) :
    output e s = Edit.written ls := by
  obtain ⟨refs, hl, rfl⟩ := h
  simp [output, Edit.written, hl, Function.comp_def]

/-! ## The editing helper that writes nothing -/

/-- The `map!` of `replace` succeeds on lines that are not frozen, for a pattern that compiles and a
replacement that is none of the lines and can stand for every match. -/
theorem Editor.replaceLoop_isOk {search : Pattern} {re : Regexp} (hre : search.matcher = .ok re) {replace : Ref}
    {refs : List Ref} {s : Strings} (hfrozen : ∀ r ∈ refs, s.frozen r = false) (hmem : replace ∉ refs)
    (hgsub : ∀ line, ∃ text, search.substituter.gsub (s.text replace) line = .ok text) :
    ∃ result, replaceLoop search replace (refs.map some) s = .ok result := by
  induction refs generalizing s with
  | nil => exact ⟨_, rfl⟩
  | cons r refs ih =>
    rw [List.mem_cons, not_or] at hmem
    have hrest : ∀ x ∈ refs, s.frozen x = false := fun x hx => hfrozen x (List.mem_cons_of_mem r hx)
    rw [List.map_cons, replaceLoop, lineMatches, hre]
    show ∃ result, (if re.isMatch (s.text r) = true then _ else _) = Except.ok result
    split
    · rw [gsubBang, if_neg (by simp [hfrozen r List.mem_cons_self])]
      split
      · obtain ⟨text, htext⟩ := hgsub (s.text r)
        obtain ⟨result, hresult⟩ := ih (s := s.set r text) hrest hmem.2 fun line => by
          rw [Strings.set_text_of_ne hmem.1]
          exact hgsub line
        rw [htext]
        show ∃ result, (replaceLoop search replace (refs.map some) (s.set r text) >>= _) = _
        rw [hresult]
        exact ⟨_, rfl⟩
      · obtain ⟨result, hresult⟩ := ih hrest hmem.2 hgsub
        show ∃ result, (replaceLoop search replace (refs.map some) s >>= _) = _
        rw [hresult]
        exact ⟨_, rfl⟩
    · obtain ⟨result, hresult⟩ := ih hrest hmem.2 hgsub
      rw [hresult]
      exact ⟨_, rfl⟩

/-- An empty replacement stands for every match. -/
theorem gsub_nil (pattern text : Text) : ∃ result, gsub pattern [] text = .ok result := by
  unfold gsub
  split
  · exact ⟨_, rfl⟩
  · exact ⟨_, rfl⟩

/-- **`delete_string_matches` deletes nothing**: on a file that is there it changes no file, provided its
`String` is a regular expression. -/
theorem deleteStringMatches_eq {files : Files} {file content : Text} (h : files file = some content)
    {compile : Text → Except RubyError Regexp} {pattern : Text} {re : Regexp} (hre : compile pattern = .ok re)
    (s : Strings) : deleteStringMatches files file (.ofString compile pattern) s = .ok files := by
  -- the editor, and the object of the empty replacement behind its lines
  set s₁ := s.allocAll (lines content)
  set s₂ := s₁.allocAll [[]]
  set refs := List.range' s.fresh (lines content).length
  have hnew : FileEdit.new files file s = .ok (⟨⟨refs.map some⟩, file, false⟩, s₁) := by
    simp [FileEdit.new, h, Editor.new, s₁, refs]
  have hbound : ∀ r ∈ refs, s.fresh ≤ r ∧ r < s₁.fresh := fun r hr => by
    simpa [refs, s₁, Strings.allocAll, List.mem_range'_1] using hr
  have htext : s₂.text s₁.fresh = [] := by simp [s₂, Strings.allocAll]
  have hfrozen : ∀ r ∈ refs, s₂.frozen r = false := fun r hr => by
    have hnew : ¬ r < s.fresh := Nat.not_lt.mpr (hbound r hr).1
    simp [s₂, s₁, Strings.allocAll, hnew]
  obtain ⟨result, hloop⟩ := @Editor.replaceLoop_isOk (.ofString compile pattern) re hre s₁.fresh refs s₂ hfrozen
    (fun hmem => Nat.lt_irrefl _ (hbound _ hmem).2) fun line => htext.symm ▸ gsub_nil pattern line
  rw [deleteStringMatches, hnew]
  show (FileEdit.searchFileDelete _ _ _ >>= _) = _
  rw [FileEdit.searchFileDelete, FileEdit.searchFileReplace, FileEdit.track, Editor.replace]
  show ((((Editor.replaceLoop _ _ (refs.map some) s₂) >>= _) >>= _) >>= _) = _
  rw [hloop]
  rfl

end GexCloud
