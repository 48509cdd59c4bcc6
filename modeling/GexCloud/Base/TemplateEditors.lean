import GexCloud.Base.EditUtils
import GexCloud.Base.DockerUtils
import Mathlib.Data.List.Pairwise

/-! # `template_utils.rb`: `get_editor` and `commit_edits`

A `configure.rb` script opens editors on files of the container, edits through them, and the
processor commits all of them at the end. Opening copies the file to a temporary file of the host;
committing writes the changed editors to their temporary files and pushes **every** temporary file
back, so editors whose temporary files coincide, or that were opened on one file, interfere. And the
editors store the `String` objects the script gives them, which the script can give to several: an
object that one of them changes in place is changed in all.

* `CommitLaw` — what a script can expect: each opened file ends with all its edits, in order.
* `CallSound` — what a call must not do: change in place what is held elsewhere.
* `commitEdits_eq_ok` — the law holds of the Ruby scripts where the editors stay apart.
* `Chef.commitEdits_eq_ok` — the Chef port commits another list than the one it opens editors on. -/

namespace GexCloud

open Texts Runs

/-- One call of a configuration script; editors are known by the order in which they were opened. -/
inductive Call
  /-- `get_editor filename`. -/
  | getEditor (filename : Ref)
  /-- An editing method called on an editor opened before. -/
  | edit (handle : Nat) (op : Edit)

/-- The state a configuration script works on. -/
structure Session where
  /-- The files of the host and of the container. -/
  world : World
  /-- The `String` objects, those of the script among them. -/
  strings : Strings
  /-- The global `$editors`; a file name is the object that the script gave. -/
  editors : List (FileEdit × Ref)
  /-- `@editors` of the processor, which only the Chef port has. -/
  ownEditors : List (FileEdit × Ref)

/-- `get_editor` with the given naming of temporary files, `$container` being `container`. -/
def getEditorWith (tmp : Text → Text → Except RubyError Text) (container : Text) (filename : Ref)
    (s : Session) : Except RubyError Session := do
  let (tmpfile, world) ← xpullWith tmp (s.strings.text filename) (some container) s.world
  let (editor, strings) ← FileEdit.new world.host tmpfile s.strings
  return { s with world, strings, editors := s.editors ++ [(editor, filename)] }

/-- One call, with the given naming of temporary files. -/
def callWith (tmp : Text → Text → Except RubyError Text) (container : Text) (s : Session) :
    Call → Except RubyError Session
  | .getEditor filename => getEditorWith tmp container filename s
  | .edit handle op =>
    match s.editors[handle]? with
    | none => .error .noMethodError
    | some (editor, filename) => do
      let (editor, strings) ← op.perform editor s.strings
      return { s with strings, editors := s.editors.set handle (editor, filename) }

/-- The loop body of `commit_edits`. -/
def commitEntryWith (tmp : Text → Text → Except RubyError Text) (container : Text) (strings : Strings) (w : World)
    (entry : FileEdit × Ref) : Except RubyError World := do
  let (_, host) ← entry.1.writeFile strings w.host
  xpushWith tmp (strings.text entry.2) (some container) { w with host }

/-- `get_editor`. -/
def getEditor : Text → Ref → Session → Except RubyError Session := getEditorWith getTmpName

/-- One call of a configuration script of the Ruby scripts. -/
def call : Text → Session → Call → Except RubyError Session := callWith getTmpName

/-- `commit_edits`. -/
def commitEdits (container : Text) (s : Session) : Except RubyError Session := do
  let world ← runOk (commitEntryWith getTmpName container s.strings) s.world s.editors
  return { s with world, editors := [] }

namespace Chef

/-- `BashUtils.get_tmp_name`: `File.join("/tmp/#{container}", …)`. -/
def getTmpName (container filename : Text) : Except RubyError Text := do
  assertNoSlash filename
  return "/tmp/".toList ++ container ++ "/".toList ++ mangle filename

/-- One call of a configuration script of the Chef port: `get_editor` of `global_scope.rb` pushes on the
global `$editors`. -/
def call : Text → Session → Call → Except RubyError Session := callWith Chef.getTmpName

/-- `ERBProcessor#commit_edits`, which goes through the processor's own `@editors`. -/
def commitEdits (container : Text) (s : Session) : Except RubyError Session := do
  let world ← runOk (commitEntryWith Chef.getTmpName container s.strings) s.world s.ownEditors
  return { s with world, ownEditors := [] }

end Chef

/-! ## The law -/

/-- The opened files, in the order of their handles, the objects of the script having the texts `given`. -/
def opened (given : Ref → Text) (calls : List Call) : List Text :=
  calls.filterMap fun
    | .getEditor filename => some (given filename)
    | .edit _ _ => none

/-- The operations issued through one editor. -/
def handleEdits (calls : List Call) (handle : Nat) : List Edit :=
  calls.filterMap fun
    | .getEditor _ => none
    | .edit k op => if k = handle then some op else none

/-- The operations issued through all editors opened on one file, in program order. -/
def editsOn (given : Ref → Text) (calls : List Call) (filename : Text) : List Edit :=
  calls.filterMap fun
    | .getEditor _ => none
    | .edit k op => if (opened given calls)[k]? = some filename then some op else none

/-- **The commit law**: every opened file ends with the content that all operations issued on it
give, in program order, with the texts the script gave them, and every other file keeps its own. -/
def CommitLaw (given : Ref → Text) (calls : List Call) (before after : Files) : Prop :=
  ∀ f, after f =
    if f ∈ opened given calls then (before f).map (Edit.editedContent given (editsOn given calls f))
    else before f

/-! ## What a session of calls leaves behind -/

/-- The file an entry of `$editors` is pushed to. -/
def fileOf (strings : Strings) (entry : FileEdit × Ref) : Text := strings.text entry.2

/-- An object of the script that still has the text it was given. -/
def Intact (given : Ref → Text) (s : Session) (r : Ref) : Prop :=
  r < s.strings.fresh ∧ s.strings.text r = given r

/-- An object that is a line of another editor, or a file name. -/
def HeldElsewhere (s : Session) (handle : Nat) (r : Ref) : Prop :=
  ∃ k entry, s.editors[k]? = some entry ∧ (entry.2 = r ∨ k ≠ handle ∧ some r ∈ entry.1.editor.lines)

/-- The condition on one call: the file is not one `dcp` refuses, the objects of the script are as it made them,
and the operation changes no `String` object in place twice, nor one that is held elsewhere. -/
def CallSound (given : Ref → Text) (s : Session) : Call → Prop
  | .getEditor filename => Intact given s filename ∧ refused (given filename) = false
  | .edit handle op =>
    (∀ r, op.argument = some r → Intact given s r) ∧
      ∀ entry, s.editors[handle]? = some entry → op.Apart entry.1.editor s.strings ∧
        ∀ r ∈ op.rewritten entry.1.editor s.strings, ¬ HeldElsewhere s handle r

/-- The calls a session performs without an exception. -/
def Calls (tmp : Text → Text → Except RubyError Text) (container : Text) :
    Session → Call → Session → Prop :=
  fun s c t => callWith tmp container s c = .ok t

/-- An editor that holds what the operations issued through it made of its file. -/
structure EntryInv (container : Text) (before : Files) (given : Ref → Text) (strings : Strings) (ops : List Edit)
    (entry : FileEdit × Ref) : Prop where
  name : entry.1.originalPathname = tmpName container (fileOf strings entry)
  edited : ∃ content, before (fileOf strings entry) = some content ∧
    entry.1.editor.Represents strings (Edit.applyAll given ops (lines content)) ∧
    entry.1.changes = Edit.touchesAny given ops (lines content)

/-- The state of a session after some calls. -/
structure SessionInv (container : Text) (before : Files) (given : Ref → Text) (calls : List Call) (s : Session) :
    Prop where
  container_eq : s.world.container = before
  files : s.editors.map (fileOf s.strings) = opened given calls
  entries : ∀ k entry, s.editors[k]? = some entry →
    EntryInv container before given s.strings (handleEdits calls k) entry
  /-- What the editors hold are objects there are, so that the lines of a new editor are others. -/
  allocated : ∀ entry ∈ s.editors, entry.2 < s.strings.fresh ∧
    ∀ r, some r ∈ entry.1.editor.lines → r < s.strings.fresh
  unused : ∀ k, (opened given calls).length ≤ k → handleEdits calls k = []
  host : ∀ f ∈ opened given calls,
    (∀ g ∈ opened given calls, tmpName container g = tmpName container f → g = f) →
    s.world.host (tmpName container f) = before f
  pulled : ∀ f ∈ opened given calls, ∃ old, s.world.host (tmpName container f) = some old
  pushable : ∀ f ∈ opened given calls, f.getLast? ≠ some '/' ∧ refused f = false

/-- A file that is opened is the last one. -/
@[simp] theorem opened_concat_getEditor (given : Ref → Text) (calls : List Call) (f : Ref) :
    opened given (calls ++ [.getEditor f]) = opened given calls ++ [given f] := by
  simp [opened]

/-- An edit opens nothing. -/
@[simp] theorem opened_concat_edit (given : Ref → Text) (calls : List Call) (k : Nat) (op : Edit) :
    opened given (calls ++ [.edit k op]) = opened given calls := by
  simp [opened]

/-- Opening a file edits none. -/
@[simp] theorem handleEdits_concat_getEditor (calls : List Call) (f : Ref) (k : Nat) :
    handleEdits (calls ++ [.getEditor f]) k = handleEdits calls k := by
  simp [handleEdits]

/-- An operation is added to the operations of its own handle. -/
theorem handleEdits_concat_edit (calls : List Call) (k j : Nat) (op : Edit) :
    handleEdits (calls ++ [.edit k op]) j = handleEdits calls j ++ if k = j then [op] else [] := by
  by_cases h : k = j <;> simp [handleEdits, h]

variable {container : Text} {before : Files} {given : Ref → Text} {calls : List Call} {s t : Session}

/-- An editor whose objects keep their texts. -/
theorem EntryInv.congr {strings strings' : Strings} {ops : List Edit} {entry : FileEdit × Ref}
    (h : EntryInv container before given strings ops entry)
    (hname : strings'.text entry.2 = strings.text entry.2)
    (hlines : ∀ r, some r ∈ entry.1.editor.lines → strings'.text r = strings.text r) :
    EntryInv container before given strings' ops entry := by
  have hfile : fileOf strings' entry = fileOf strings entry := hname
  obtain ⟨hpath, content, hcontent, hrep, hchanges⟩ := h
  exact ⟨by rw [hfile, hpath], content, by rw [hfile, hcontent], hrep.congr hlines, hchanges⟩

/-- Opening an editor keeps the invariant. -/
theorem SessionInv.getEditor {f : Ref} (h : SessionInv container before given calls s)
    (hsound : CallSound given s (.getEditor f)) (hrun : getEditor container f s = .ok t) :
    SessionInv container before given (calls ++ [.getEditor f]) t := by
  obtain ⟨⟨hfresh, hgiven⟩, hf⟩ := hsound
  simp only [GexCloud.getEditor, getEditorWith, bind_eq_ok_iff] at hrun
  obtain ⟨⟨tmpfile, world⟩, hpull, ⟨editor, strings⟩, hnew, ht⟩ := hrun
  obtain ⟨htmp, content, hcontent, rfl⟩ := xpullWith_eq_ok_iff.mp hpull
  rw [hgiven] at htmp hcontent
  obtain ⟨hslash, rfl⟩ := getTmpName_eq_ok_iff.mp htmp
  obtain rfl := Except.ok.inj ht
  simp only [FileEdit.new, Function.update_self, Except.ok.injEq, Prod.mk.injEq] at hnew
  obtain ⟨rfl, rfl⟩ := hnew
  have hbefore : before (given f) = some content := by rw [← h.container_eq]; exact hcontent
  have hlen : s.editors.length = (opened given calls).length := by rw [← h.files, List.length_map]
  have hold : ∀ {r}, r < s.strings.fresh → (Editor.new (lines content) s.strings).2.text r = s.strings.text r :=
    fun hr => Strings.allocAll_text hr _
  have hgrow : s.strings.fresh ≤ (Editor.new (lines content) s.strings).2.fresh := Nat.le_add_right ..
  refine ⟨h.container_eq, ?_, ?_, ?_, ?_, ?_, ?_, ?_⟩
  · rw [opened_concat_getEditor, List.map_append, ← h.files]
    congr 1
    · exact List.map_congr_left fun entry hentry => hold (h.allocated entry hentry).1
    · exact congrArg (fun text => [text]) ((hold hfresh).trans hgiven)
  · intro k entry hk
    rw [handleEdits_concat_getEditor]
    rcases Nat.lt_trichotomy k s.editors.length with hlt | heq | hgt
    · rw [List.getElem?_append_left hlt] at hk
      have hmem := h.allocated entry (List.mem_of_getElem? hk)
      exact (h.entries k entry hk).congr (hold hmem.1) fun r hr => hold (hmem.2 r hr)
    · -- the new editor, through which nothing has been issued yet
      subst heq
      rw [List.getElem?_concat_length, Option.some.injEq] at hk
      subst hk
      rw [h.unused _ hlen.ge]
      have hfile : fileOf (Editor.new (lines content) s.strings).2
          (⟨(Editor.new (lines content) s.strings).1, tmpName container (given f), false⟩, f) = given f :=
        (hold hfresh).trans hgiven
      exact ⟨by rw [hfile], content, by rw [hfile, hbefore], Editor.new_represents .., rfl⟩
    · rw [List.getElem?_eq_none (by simp; omega)] at hk
      cases hk
  · intro entry hentry
    rcases List.mem_append.mp hentry with hentry | hentry
    · obtain ⟨hname, hlines⟩ := h.allocated entry hentry
      exact ⟨lt_of_lt_of_le hname hgrow, fun r hr => lt_of_lt_of_le (hlines r hr) hgrow⟩
    · rw [List.mem_singleton.mp hentry]
      exact ⟨lt_of_lt_of_le hfresh hgrow, fun r hr => Editor.new_lines_lt hr⟩
  · intro k hk
    rw [handleEdits_concat_getEditor]
    refine h.unused k (le_trans ?_ hk)
    simp
  · intro g hg halone
    rw [opened_concat_getEditor] at hg halone
    by_cases hgf : tmpName container g = tmpName container (given f)
    · obtain rfl : given f = g := halone (given f) (by simp) hgf.symm
      simp [hbefore]
    · have hmem : g ∈ opened given calls := by
        rcases List.mem_append.mp hg with hg | hg
        · exact hg
        · exact absurd (congrArg (tmpName container) (List.mem_singleton.mp hg)) hgf
      show Function.update s.world.host _ _ _ = _
      rw [Function.update_of_ne hgf]
      exact h.host g hmem fun x hx => halone x (List.mem_append_left _ hx)
  · intro g hg
    show ∃ old, Function.update s.world.host _ _ _ = some old
    by_cases hgf : tmpName container g = tmpName container (given f)
    · exact ⟨content, by rw [hgf, Function.update_self]⟩
    · rw [Function.update_of_ne hgf]
      rw [opened_concat_getEditor, List.mem_append, List.mem_singleton] at hg
      rcases hg with hg | rfl
      · exact h.pulled g hg
      · exact absurd rfl hgf
  · intro g hg
    rw [opened_concat_getEditor, List.mem_append, List.mem_singleton] at hg
    rcases hg with hg | rfl
    · exact h.pushable g hg
    · exact ⟨hslash, hf⟩

/-- Issuing an operation keeps the invariant. -/
theorem SessionInv.edit {k : Nat} {op : Edit} (h : SessionInv container before given calls s)
    (hsound : CallSound given s (.edit k op)) (hrun : call container s (.edit k op) = .ok t) :
    SessionInv container before given (calls ++ [.edit k op]) t := by
  obtain ⟨hintact, hapart⟩ := hsound
  simp only [call, callWith] at hrun
  cases hk : s.editors[k]? with
  | none => simp [hk] at hrun
  | some entry =>
    obtain ⟨editor, filename⟩ := entry
    obtain ⟨hd, helse⟩ := hapart _ hk
    obtain ⟨hname, content, hcontent, hrep, hchanges⟩ := h.entries k _ hk
    obtain ⟨hfilename, halloc⟩ := h.allocated _ (List.mem_of_getElem? hk)
    rw [hk] at hrun
    obtain ⟨⟨editor', strings⟩, hperform, ht⟩ := bind_eq_ok_iff.mp hrun
    obtain rfl := Except.ok.inj ht
    have hspec := op.perform_spec hrep hd hperform
    have hlt : k < s.editors.length := (List.getElem?_eq_some_iff.mp hk).1
    have hlen : s.editors.length = (opened given calls).length := by rw [← h.files, List.length_map]
    -- the objects that others hold keep their texts
    have hkept : ∀ {j : Nat} {other : FileEdit × Ref}, s.editors[j]? = some other →
        strings.text other.2 = s.strings.text other.2 ∧
          (j ≠ k → ∀ r, some r ∈ other.1.editor.lines → strings.text r = s.strings.text r) := by
      intro j other hj
      refine ⟨hspec.texts _ fun hmem => helse _ hmem ⟨j, other, hj, .inl rfl⟩, fun hjk r hr => ?_⟩
      exact hspec.texts r fun hmem => helse r hmem ⟨j, other, hj, .inr ⟨hjk, hr⟩⟩
    refine ⟨h.container_eq, ?_, ?_, ?_, ?_, ?_, ?_, ?_⟩
    · rw [opened_concat_edit, ← h.files]
      refine List.ext_getElem? fun j => ?_
      rw [List.getElem?_map, List.getElem?_map]
      by_cases hjk : k = j
      · subst hjk
        rw [List.getElem?_set_self hlt, hk]
        exact congrArg some (hkept hk).1
      · rw [List.getElem?_set_ne hjk]
        cases hj : s.editors[j]? with
        | none => rfl
        | some other => exact congrArg some (hkept hj).1
    · intro j entry hj
      rw [handleEdits_concat_edit]
      by_cases hjk : k = j
      · subst hjk
        rw [List.getElem?_set_self hlt, Option.some.injEq] at hj
        subst hj
        simp only [if_pos]
        have hfile : fileOf strings (editor', filename) = fileOf s.strings (editor, filename) := (hkept hk).1
        have htext : ∀ r, op.argument = some r → s.strings.text r = given r := fun r hr => (hintact r hr).2
        refine ⟨by rw [hfile]; exact hspec.name.trans hname, content, by rw [hfile]; exact hcontent, ?_, ?_⟩
        · rw [Edit.applyAll_concat, ← Edit.apply_congr htext]
          exact hspec.represents
        · rw [Edit.touchesAny_concat, ← hchanges]
          exact hspec.changes
      · rw [List.getElem?_set_ne hjk] at hj
        rw [if_neg hjk, List.append_nil]
        exact (h.entries j entry hj).congr (hkept hj).1 ((hkept hj).2 (Ne.symm hjk))
    · intro entry hentry
      show entry.2 < strings.fresh ∧ ∀ r, some r ∈ entry.1.editor.lines → r < strings.fresh
      rw [hspec.fresh]
      rcases List.mem_or_eq_of_mem_set hentry with hentry | rfl
      · exact h.allocated entry hentry
      · refine ⟨hfilename, fun r hr => ?_⟩
        rcases hspec.lines r hr with hr | hr
        · exact halloc r hr
        · exact (hintact r hr).1
    · intro j hj
      rw [opened_concat_edit] at hj
      rw [handleEdits_concat_edit, if_neg (by omega), List.append_nil]
      exact h.unused j hj
    · simpa using h.host
    · simpa using h.pulled
    · simpa using h.pushable

/-- A session starts without editors. -/
theorem SessionInv.start (hs : s.editors = []) : SessionInv container s.world.container given [] s where
  container_eq := rfl
  files := by simp [hs, opened]
  entries := by simp [hs]
  allocated := by simp [hs]
  unused := fun _ _ => rfl
  host := by simp [opened]
  pulled := by simp [opened]
  pushable := by simp [opened]

/-- **Every session keeps the invariant** as long as its calls meet the condition. -/
theorem SessionInv.of_run (hs : s.editors = [])
    (hrun : Run (guarded (CallSound given) (Calls getTmpName container)) s calls t) :
    SessionInv container s.world.container given calls t := by
  have := hrun.invariant_trace (fun past u => SessionInv container s.world.container given past u)
    (fun past u c v hu huv => by
      cases c with
      | getEditor f => exact hu.getEditor huv.1 huv.2
      | edit k op => exact hu.edit huv.1 huv.2)
    (SessionInv.start hs)
  simpa using this

/-! ## Committing -/

/-- The text an entry writes. -/
def entryOutput (strings : Strings) (entry : FileEdit × Ref) : Text := FileEdit.output entry.1.editor strings

/-- The files of the container once some editors have been committed, each changed one to its own
file. -/
def committed (strings : Strings) (editors : List (FileEdit × Ref)) (files : Files) : Files :=
  editors.foldl (fun files entry =>
    if entry.1.changes then Function.update files (fileOf strings entry) (some (entryOutput strings entry))
    else files) files

/-- **The condition on the editors of a session**: an editor that has nothing to write shares its
temporary file with no editor of another file, and no editor committed before it leaves its backup
there. -/
def TmpFilesApart (container : Text) (strings : Strings) (editors : List (FileEdit × Ref)) : Prop :=
  editors.Pairwise fun a b =>
    (a.1.changes = false ∨ b.1.changes = false → fileOf strings a ≠ fileOf strings b →
      tmpName container (fileOf strings a) ≠ tmpName container (fileOf strings b)) ∧
    (a.1.changes = true → b.1.changes = false →
      tmpName container (fileOf strings a) ++ ".old".toList ≠ tmpName container (fileOf strings b))

/-- What committing needs of an entry: a file that can be pushed, its temporary file in place. -/
structure Ready (container : Text) (strings : Strings) (w : World) (entry : FileEdit × Ref) : Prop where
  name : entry.1.originalPathname = tmpName container (fileOf strings entry)
  slash : (fileOf strings entry).getLast? ≠ some '/'
  accepted : refused (fileOf strings entry) = false
  exists_tmp : ∃ old, w.host (tmpName container (fileOf strings entry)) = some old
  /-- The temporary file of an editor with nothing to write holds the content of its file. -/
  current : entry.1.changes = false →
    w.host (tmpName container (fileOf strings entry)) = w.container (fileOf strings entry)

/-- Committing one entry. -/
theorem commitEntry_eq_ok {w : World} {entry : FileEdit × Ref} (h : Ready container strings w entry) :
    ∃ w', commitEntryWith getTmpName container strings w entry = .ok w' ∧
      w'.container = (if entry.1.changes then
        Function.update w.container (fileOf strings entry) (some (entryOutput strings entry)) else w.container) ∧
      w'.host = (if entry.1.changes then
        Function.update
          (Function.update w.host (tmpName container (fileOf strings entry) ++ ".old".toList)
            (w.host (tmpName container (fileOf strings entry))))
          (tmpName container (fileOf strings entry)) (some (entryOutput strings entry)) else w.host) := by
  obtain ⟨old, hold⟩ := h.exists_tmp
  cases hc : entry.1.changes with
  | true =>
    refine ⟨⟨_, _⟩, ?_, rfl, rfl⟩
    simp only [commitEntryWith, FileEdit.writeFile, hc, h.name, hold, if_true]
    exact xpush_eq_ok h.slash h.accepted (by simp [entryOutput, fileOf])
  | false =>
    have hcur := h.current hc
    refine ⟨w, ?_, rfl, rfl⟩
    simp only [commitEntryWith, FileEdit.writeFile, hc]
    show xpush (fileOf strings entry) (some container) w = _
    rw [xpush_eq_ok h.slash h.accepted hold, ← hold, hcur, Function.update_eq_self]

/-- Committing one entry keeps the entries after it ready. -/
theorem Ready.after {w w' : World} {a b : FileEdit × Ref} (ha : Ready container strings w a)
    (hb : Ready container strings w b)
    (happart : (a.1.changes = false ∨ b.1.changes = false → fileOf strings a ≠ fileOf strings b →
        tmpName container (fileOf strings a) ≠ tmpName container (fileOf strings b)) ∧
      (a.1.changes = true → b.1.changes = false →
        tmpName container (fileOf strings a) ++ ".old".toList ≠ tmpName container (fileOf strings b)))
    (hw : commitEntryWith getTmpName container strings w a = .ok w') : Ready container strings w' b := by
  obtain ⟨v, hv, hcontainer, hhost⟩ := commitEntry_eq_ok ha
  obtain rfl : v = w' := Except.ok.inj (hv.symm.trans hw)
  cases hc : a.1.changes with
  | false =>
    simp only [hc] at hcontainer hhost
    exact ⟨hb.name, hb.slash, hb.accepted, hhost ▸ hb.exists_tmp, by
      rw [hcontainer, hhost]; exact hb.current⟩
  | true =>
    simp only [hc, if_true] at hcontainer hhost
    obtain ⟨old, hold⟩ := ha.exists_tmp
    refine ⟨hb.name, hb.slash, hb.accepted, ?_, fun hbc => ?_⟩
    · rw [hhost, hold]
      by_cases h1 : tmpName container (fileOf strings b) = tmpName container (fileOf strings a)
      · exact ⟨_, by rw [h1, Function.update_self]⟩
      · rw [Function.update_of_ne h1]
        by_cases h2 : tmpName container (fileOf strings b) = tmpName container (fileOf strings a) ++ ".old".toList
        · exact ⟨_, by rw [h2, Function.update_self]⟩
        · rw [Function.update_of_ne h2]; exact hb.exists_tmp
    · rw [hcontainer, hhost]
      by_cases hf : fileOf strings a = fileOf strings b
      · rw [hf, Function.update_self, Function.update_self]
      · -- another file: neither the write nor the backup reaches the temporary file of `b`
        rw [Function.update_of_ne (fun h => happart.1 (.inr hbc) hf h.symm),
          Function.update_of_ne (fun h => happart.2 hc hbc h.symm),
          Function.update_of_ne (Ne.symm hf)]
        exact hb.current hbc

/-- **Committing ready editors** that stay apart writes each changed one to its own file. -/
theorem commitEntries_eq_ok {editors : List (FileEdit × Ref)} {w : World}
    (hready : ∀ entry ∈ editors, Ready container strings w entry)
    (hapart : TmpFilesApart container strings editors) :
    ∃ w', runOk (commitEntryWith getTmpName container strings) w editors = .ok w' ∧
      w'.container = committed strings editors w.container := by
  induction editors generalizing w with
  | nil => exact ⟨w, rfl, rfl⟩
  | cons entry editors ih =>
    obtain ⟨w₁, hw₁, hcontainer, -⟩ := commitEntry_eq_ok (hready entry List.mem_cons_self)
    rw [TmpFilesApart, List.pairwise_cons] at hapart
    obtain ⟨w₂, hw₂, hcommitted⟩ := ih (w := w₁)
      (fun b hb => (hready entry List.mem_cons_self).after (hready b (List.mem_cons_of_mem _ hb))
        (hapart.1 b hb) hw₁) hapart.2
    refine ⟨w₂, ?_, ?_⟩
    · simp only [runOk, bind_eq_ok_iff]
      exact ⟨w₁, hw₁, hw₂⟩
    · rw [hcommitted, hcontainer]
      rfl

/-- The first editor is committed first. -/
theorem committed_cons (entry : FileEdit × Ref) (editors : List (FileEdit × Ref)) (files : Files) :
    committed strings (entry :: editors) files =
      committed strings editors (if entry.1.changes then
        Function.update files (fileOf strings entry) (some (entryOutput strings entry)) else files) := rfl

/-- A file without changed editors is not written. -/
theorem committed_of_unchanged {editors : List (FileEdit × Ref)} {files : Files} {f : Text}
    (h : ∀ entry ∈ editors, fileOf strings entry = f → entry.1.changes = false) :
    committed strings editors files f = files f := by
  induction editors generalizing files with
  | nil => rfl
  | cons entry editors ih =>
    rw [committed_cons, ih fun b hb => h b (List.mem_cons_of_mem _ hb)]
    cases hc : entry.1.changes with
    | false => rw [if_neg (by simp)]
    | true =>
      rw [if_pos rfl]
      have hne : f ≠ fileOf strings entry := by
        rintro rfl
        rw [h entry List.mem_cons_self rfl] at hc
        cases hc
      exact Function.update_of_ne hne _ _

/-- A file ends with what its changed editors write, when they all write the same. -/
theorem committed_of_changed {editors : List (FileEdit × Ref)} {files : Files} {f out : Text}
    (hsame : ∀ entry ∈ editors, entry.1.changes = true → fileOf strings entry = f → entryOutput strings entry = out)
    (hmem : ∃ entry ∈ editors, entry.1.changes = true ∧ fileOf strings entry = f) :
    committed strings editors files f = some out := by
  induction editors generalizing files with
  | nil => simp at hmem
  | cons entry editors ih =>
    rw [committed_cons]
    by_cases htail : ∃ b ∈ editors, b.1.changes = true ∧ fileOf strings b = f
    · exact ih (fun b hb => hsame b (List.mem_cons_of_mem _ hb)) htail
    · -- the head is the last editor that writes the file
      obtain ⟨b, hb, hc, hbf⟩ := hmem
      rcases List.mem_cons.mp hb with rfl | hb
      · rw [committed_of_unchanged fun a ha haf => by
          by_contra hne
          exact htail ⟨a, ha, by simpa using hne, haf⟩]
        rw [if_pos hc, ← hbf, Function.update_self, hsame b List.mem_cons_self hc hbf]
      · exact absurd ⟨b, hb, hc, hbf⟩ htail

/-! ## The law of a session -/

/-- All operations issued on one file go through one of its editors. -/
def OneEditorPerFile (given : Ref → Text) (calls : List Call) : Prop :=
  ∀ i opᵢ j opⱼ f, Call.edit i opᵢ ∈ calls → Call.edit j opⱼ ∈ calls →
    (opened given calls)[i]? = some f → (opened given calls)[j]? = some f → i = j

/-- An editor through which nothing is issued. -/
theorem handleEdits_eq_nil {k : Nat} (h : ∀ op, Call.edit k op ∉ calls) :
    handleEdits calls k = [] := by
  refine List.filterMap_eq_nil_iff.mpr fun c hc => ?_
  cases c with
  | getEditor f => rfl
  | edit j op =>
    have hne : j ≠ k := by rintro rfl; exact h op hc
    simp [hne]

/-- With one editor per file, the operations on the file are those of that editor. -/
theorem editsOn_eq_handleEdits (hone : OneEditorPerFile given calls) {k : Nat} {op : Edit} {f : Text}
    (hk : Call.edit k op ∈ calls) (hf : (opened given calls)[k]? = some f) :
    editsOn given calls f = handleEdits calls k := by
  refine List.filterMap_congr fun c hc => ?_
  cases c with
  | getEditor g => rfl
  | edit j opⱼ =>
    by_cases hj : (opened given calls)[j]? = some f
    · obtain rfl := hone j opⱼ k op f hc hk hj hf
      simp [hf]
    · have hne : j ≠ k := by rintro rfl; exact hj hf
      simp [hj, hne]

/-- A file on which nothing is issued. -/
theorem editsOn_eq_nil {f : Text}
    (h : ∀ k op, Call.edit k op ∈ calls → (opened given calls)[k]? ≠ some f) : editsOn given calls f = [] := by
  refine List.filterMap_eq_nil_iff.mpr fun c hc => ?_
  cases c with
  | getEditor g => rfl
  | edit j op => simp [h j op hc]

/-- The operations issued through one editor are none, or all that are issued on its file. -/
theorem handleEdits_eq_nil_or (hone : OneEditorPerFile given calls) {k : Nat} {f : Text}
    (hf : (opened given calls)[k]? = some f) :
    handleEdits calls k = [] ∨ handleEdits calls k = editsOn given calls f := by
  by_cases h : ∃ op, Call.edit k op ∈ calls
  · obtain ⟨op, hop⟩ := h
    exact .inr (editsOn_eq_handleEdits hone hop hf).symm
  · exact .inl (handleEdits_eq_nil fun op hop => h ⟨op, hop⟩)

/-- Some editor of a file carries all operations issued on it. -/
theorem exists_handleEdits_eq (hone : OneEditorPerFile given calls) {f : Text} (hf : f ∈ opened given calls) :
    ∃ k, (opened given calls)[k]? = some f ∧ handleEdits calls k = editsOn given calls f := by
  by_cases h : ∃ k op, Call.edit k op ∈ calls ∧ (opened given calls)[k]? = some f
  · obtain ⟨k, op, hop, hk⟩ := h
    exact ⟨k, hk, (editsOn_eq_handleEdits hone hop hk).symm⟩
  · obtain ⟨k, hk⟩ := List.mem_iff_getElem?.mp hf
    have hnone : ∀ j op, Call.edit j op ∈ calls → (opened given calls)[j]? ≠ some f :=
      fun j op hop hj => h ⟨j, op, hop, hj⟩
    exact ⟨k, hk, by rw [editsOn_eq_nil hnone, handleEdits_eq_nil fun op hop => hnone k op hop hk]⟩

/-- **The commit law of a session**: the files the changed editors write are those the law asks for. -/
theorem SessionInv.commitLaw (h : SessionInv container before given calls s)
    (hone : OneEditorPerFile given calls) : CommitLaw given calls before (committed s.strings s.editors before) := by
  have hfile : ∀ {k : Nat} {entry : FileEdit × Ref}, s.editors[k]? = some entry →
      (opened given calls)[k]? = some (fileOf s.strings entry) := fun hk => by
    rw [← h.files, List.getElem?_map, hk]
    rfl
  intro f
  by_cases hf : f ∈ opened given calls
  · rw [if_pos hf]
    obtain ⟨k, hk, hall⟩ := exists_handleEdits_eq hone hf
    obtain ⟨entry, hentry, hentryf⟩ : ∃ entry, s.editors[k]? = some entry ∧ fileOf s.strings entry = f := by
      rw [← h.files, List.getElem?_map, Option.map_eq_some_iff] at hk
      exact hk
    subst hentryf
    obtain ⟨-, content, hcontent, hrep, hchanges⟩ := h.entries k entry hentry
    rw [hall] at hrep hchanges
    rw [hcontent, Option.map_some, Edit.editedContent, ← hchanges]
    cases hc : entry.1.changes with
    | true =>
      refine committed_of_changed (fun b hb hbc hbf => ?_) ⟨entry, List.mem_of_getElem? hentry, hc, rfl⟩
      obtain ⟨j, hj⟩ := List.mem_iff_getElem?.mp hb
      obtain ⟨-, content', hcontent', hrep', hchanges'⟩ := h.entries j b hj
      obtain rfl : content' = content := by
        rw [hbf, hcontent, Option.some.injEq] at hcontent'
        exact hcontent'.symm
      rcases handleEdits_eq_nil_or hone (hfile hj) with hnil | hops
      · rw [hnil] at hchanges'
        rw [hbc] at hchanges'
        cases hchanges'
      · rw [hops, hbf] at hrep'
        exact FileEdit.output_eq hrep'
    | false =>
      rw [committed_of_unchanged, hcontent]
      · rfl
      · intro b hb hbf
        obtain ⟨j, hj⟩ := List.mem_iff_getElem?.mp hb
        obtain ⟨-, content', hcontent', -, hchanges'⟩ := h.entries j b hj
        obtain rfl : content' = content := by
          rw [hbf, hcontent, Option.some.injEq] at hcontent'
          exact hcontent'.symm
        rw [hchanges']
        rcases handleEdits_eq_nil_or hone (hfile hj) with hnil | hops
        · rw [hnil]; rfl
        · rw [hops, hbf, ← hchanges, hc]
  · rw [if_neg hf, committed_of_unchanged]
    intro b hb hbf
    refine absurd ?_ hf
    rw [← h.files, ← hbf]
    exact List.mem_map_of_mem hb

/-- An editor with nothing to write shares its temporary file with no editor of another file. -/
theorem TmpFilesApart.tmp_ne {editors : List (FileEdit × Ref)} {a b : FileEdit × Ref}
    (h : TmpFilesApart container strings editors) (ha : a ∈ editors) (hb : b ∈ editors)
    (hc : b.1.changes = false) (hne : fileOf strings a ≠ fileOf strings b) :
    tmpName container (fileOf strings a) ≠ tmpName container (fileOf strings b) := by
  let R (a b : FileEdit × Ref) : Prop := a.1.changes = false ∨ b.1.changes = false →
    fileOf strings a ≠ fileOf strings b →
    tmpName container (fileOf strings a) ≠ tmpName container (fileOf strings b)
  have hsymm : Std.Symm R := ⟨fun a b hab hor hne => (hab hor.symm hne.symm).symm⟩
  have hpair : editors.Pairwise R := h.imp fun h => h.1
  exact hpair.forall ha hb (by rintro rfl; exact hne rfl) (.inr hc) hne

/-- At the end of a session every editor is ready to be committed. -/
theorem SessionInv.ready (h : SessionInv container before given calls s)
    (hapart : TmpFilesApart container s.strings s.editors) :
    ∀ entry ∈ s.editors, Ready container s.strings s.world entry := by
  intro entry hentry
  have hf : fileOf s.strings entry ∈ opened given calls := by
    rw [← h.files]
    exact List.mem_map_of_mem hentry
  obtain ⟨k, hk⟩ := List.mem_iff_getElem?.mp hentry
  refine ⟨(h.entries k entry hk).1, (h.pushable _ hf).1, (h.pushable _ hf).2, h.pulled _ hf, ?_⟩
  intro hc
  rw [h.container_eq]
  refine h.host _ hf fun g hg hgf => ?_
  rw [← h.files] at hg
  obtain ⟨b, hb, rfl⟩ := List.mem_map.mp hg
  by_contra hne
  exact hapart.tmp_ne hb hentry hc hne hgf

/-- **Committing a session of the Ruby scripts** keeps the commit law, provided its calls meet the
condition, the operations on a file go through one editor, and the temporary files stay apart. -/
theorem commitEdits_eq_ok (hs : s.editors = [])
    (hrun : Run (guarded (CallSound s.strings.text) (Calls getTmpName container)) s calls t)
    (hone : OneEditorPerFile s.strings.text calls) (hapart : TmpFilesApart container t.strings t.editors) :
    ∃ u, commitEdits container t = .ok u ∧
      CommitLaw s.strings.text calls s.world.container u.world.container := by
  have hinv := SessionInv.of_run hs hrun
  obtain ⟨w, hw, hcommitted⟩ := commitEntries_eq_ok (hinv.ready hapart) hapart
  refine ⟨{ t with world := w, editors := [] }, ?_, ?_⟩
  · rw [commitEdits, hw]; rfl
  · show CommitLaw _ calls _ w.container
    rw [hcommitted, hinv.container_eq]
    exact hinv.commitLaw hone

/-! ## The Chef port -/

/-- Calls touch neither the files of the container nor the processor's own editor list. -/
theorem callWith_frame {tmp : Text → Text → Except RubyError Text} {c : Call}
    (h : Calls tmp container s c t) :
    t.world.container = s.world.container ∧ t.ownEditors = s.ownEditors := by
  cases c with
  | getEditor f =>
    simp only [Calls, callWith, getEditorWith, bind_eq_ok_iff] at h
    obtain ⟨⟨tmpfile, world⟩, hpull, ⟨editor, strings⟩, -, ht⟩ := h
    obtain ⟨-, content, -, rfl⟩ := xpullWith_eq_ok_iff.mp hpull
    obtain rfl := Except.ok.inj ht
    exact ⟨rfl, rfl⟩
  | edit k op =>
    simp only [Calls, callWith] at h
    split at h
    · cases h
    · obtain ⟨⟨editor, strings⟩, -, ht⟩ := bind_eq_ok_iff.mp h
      obtain rfl := Except.ok.inj ht
      exact ⟨rfl, rfl⟩

/-- **Committing a session of the Chef port** writes nothing: the commit law holds exactly where the
issued operations change no content. -/
theorem Chef.commitEdits_eq_ok (hs : s.ownEditors = [])
    (hrun : Run (Calls Chef.getTmpName container) s calls t) :
    ∃ u, Chef.commitEdits container t = .ok u ∧
      (CommitLaw s.strings.text calls s.world.container u.world.container ↔
        ∀ f ∈ opened s.strings.text calls, ∀ content, s.world.container f = some content →
          Edit.editedContent s.strings.text (editsOn s.strings.text calls f) content = content) := by
  have hframe := hrun.invariant
    (fun u => u.world.container = s.world.container ∧ u.ownEditors = s.ownEditors)
    (fun u c v hu huv => ⟨(callWith_frame huv).1.trans hu.1, (callWith_frame huv).2.trans hu.2⟩)
    ⟨rfl, rfl⟩
  refine ⟨{ t with ownEditors := [] }, ?_, ?_⟩
  · rw [Chef.commitEdits, hframe.2, hs]; rfl
  · show CommitLaw _ calls _ t.world.container ↔ _
    rw [hframe.1]
    constructor
    · intro hlaw f hf content hcontent
      have := hlaw f
      rw [if_pos hf, hcontent, Option.map_some, Option.some.injEq] at this
      exact this.symm
    · intro hsame f
      by_cases hf : f ∈ opened s.strings.text calls
      · rw [if_pos hf]
        cases hcontent : s.world.container f with
        | none => rfl
        | some content => rw [Option.map_some, hsame f hf content hcontent]
      · rw [if_neg hf]

/-! ## Both ports -/

/-- **When committing keeps the law.** For the Ruby scripts: in every session whose calls meet the
condition, whose operations on a file go through one editor and whose temporary files stay apart. For
the Chef port: in every session that changes no content, and in no other. -/
theorem commitEdits_commitLaw (container : Text) :
    (∀ s t calls, s.editors = [] →
      Run (guarded (CallSound s.strings.text) (Calls getTmpName container)) s calls t →
      OneEditorPerFile s.strings.text calls → TmpFilesApart container t.strings t.editors →
      ∃ u, commitEdits container t = .ok u ∧
        CommitLaw s.strings.text calls s.world.container u.world.container) ∧
    ∀ s t calls, s.ownEditors = [] → Run (Calls Chef.getTmpName container) s calls t →
      ∃ u, Chef.commitEdits container t = .ok u ∧
        (CommitLaw s.strings.text calls s.world.container u.world.container ↔
          ∀ f ∈ opened s.strings.text calls, ∀ content, s.world.container f = some content →
            Edit.editedContent s.strings.text (editsOn s.strings.text calls f) content = content) :=
  ⟨fun _ _ _ => commitEdits_eq_ok, fun _ _ _ => Chef.commitEdits_eq_ok⟩

/-- The objects of a script: two file names, a line and a replacement. -/
def scriptTexts : Strings where
  text r := if r = 0 then "/f".toList else if r = 1 then "/g".toList else if r = 2 then "x".toList else "y".toList
  frozen _ := false
  fresh := 4

/-- A session before its first call, on a container with the files `/f` and `/g`. -/
def twoFiles : Session where
  world := ⟨fun _ => none, fun f => if f = "/f".toList then some "a\n".toList else
    if f = "/g".toList then some "b\n".toList else none⟩
  strings := scriptTexts
  editors := []
  ownEditors := []

/-- Calls that add one line object to both files and replace in a line of the first. -/
def addToBoth : List Call :=
  [.getEditor 0, .getEditor 1, .edit 0 (.insertIfNoMatch .nothing 2), .edit 1 (.insertIfNoMatch .nothing 2),
    .edit 0 (.replace (.letter 'a') 3)]

/-- An operation that changes nothing in place needs its argument only. -/
theorem CallSound.of_rewritten_nil {handle : Nat} {op : Edit} (hintact : ∀ r, op.argument = some r → Intact given s r)
    (h : ∀ e strings, op.rewritten e strings = []) : CallSound given s (.edit handle op) := by
  refine ⟨hintact, fun entry _ => ⟨⟨?_, ?_⟩, ?_⟩⟩
  · rw [h]
    exact List.nodup_nil
  · rw [h]
    exact List.forall_mem_nil _
  · rw [h]
    exact List.forall_mem_nil _

/-- Two files that get the same line object, in one of which another line is changed; through the Chef port, a
file that is only opened is left as it is. -/
theorem commitEdits_commitLaw_twoFiles :
    (∃ t u, commitEdits "box".toList t = .ok u ∧
      CommitLaw scriptTexts.text addToBoth twoFiles.world.container u.world.container) ∧
    ∃ t u, Chef.commitEdits "box".toList t = .ok u ∧
      CommitLaw scriptTexts.text [.getEditor 0] twoFiles.world.container u.world.container := by
  obtain ⟨hruby, hchef⟩ := commitEdits_commitLaw "box".toList
  constructor
  · refine ⟨_, hruby twoFiles _ addToBoth rfl
      (.cons ⟨⟨⟨by decide, rfl⟩, show refused "/f".toList = false by decide⟩, rfl⟩
        (.cons ⟨⟨⟨by decide, rfl⟩, show refused "/g".toList = false by decide⟩, rfl⟩
          (.cons ⟨.of_rewritten_nil ?_ fun _ _ => rfl, rfl⟩
            (.cons ⟨.of_rewritten_nil ?_ fun _ _ => rfl, rfl⟩ (.cons ⟨⟨?_, ?_⟩, rfl⟩ (.nil _)))))) ?_ ?_⟩
    · rintro r ⟨⟩
      exact ⟨by decide, rfl⟩
    · rintro r ⟨⟩
      exact ⟨by decide, rfl⟩
    · rintro r ⟨⟩
      exact ⟨by decide, rfl⟩
    · rintro entry ⟨⟩
      refine ⟨⟨by decide, by decide⟩, fun r hr => ?_⟩
      obtain rfl : r = 4 := List.mem_singleton.mp (show r ∈ [4] from hr)
      rintro ⟨k, other, hk, hheld⟩
      match k, hk with
      | 0, hk =>
        obtain rfl := Option.some.inj hk
        exact absurd hheld (by decide)
      | 1, hk =>
        obtain rfl := Option.some.inj hk
        exact absurd hheld (by decide)
    · intro i opᵢ j opⱼ f _ _ hi hj
      have hlt : i < (opened scriptTexts.text addToBoth).length := (List.getElem?_eq_some_iff.mp hi).1
      exact (List.getElem?_inj hlt (by decide)).mp (hi.trans hj.symm)
    · refine List.pairwise_pair.mpr ⟨fun _ _ => ?_, fun _ hunchanged => by cases hunchanged⟩
      show tmpName "box".toList "/f".toList ≠ tmpName "box".toList "/g".toList
      decide
  · obtain ⟨u, hu, hlaw⟩ := hchef twoFiles _ [.getEditor 0] rfl (.cons rfl (.nil _))
    exact ⟨_, u, hu, hlaw.2 fun f _ content _ => Edit.editedContent_nil _ content⟩

/-- Two editors on one file, each adding a line: only the second line arrives. One line object in two files,
changed through the editor of the first: it arrives changed in the second. Two untouched files with one temporary
name: the first receives the content of the second. One edit through the Chef port: it never arrives. -/
theorem commitEdits_commitLaw_fails :
    (∃ s t u calls, s.editors = [] ∧ runOk (call "box".toList) s calls = .ok t ∧
      commitEdits "box".toList t = .ok u ∧
      ¬ CommitLaw s.strings.text calls s.world.container u.world.container) ∧
    (∃ s t u calls, s.editors = [] ∧ OneEditorPerFile s.strings.text calls ∧
      runOk (call "box".toList) s calls = .ok t ∧ commitEdits "box".toList t = .ok u ∧
      ¬ CommitLaw s.strings.text calls s.world.container u.world.container) ∧
    (∃ s t u calls, s.editors = [] ∧ (∀ k op, Call.edit k op ∉ calls) ∧
      runOk (call "box".toList) s calls = .ok t ∧ commitEdits "box".toList t = .ok u ∧
      ¬ CommitLaw s.strings.text calls s.world.container u.world.container) ∧
    ∃ s t u calls, s.editors = [] ∧ s.ownEditors = [] ∧
      runOk (Chef.call "box".toList) s calls = .ok t ∧ Chef.commitEdits "box".toList t = .ok u ∧
      ¬ CommitLaw s.strings.text calls s.world.container u.world.container := by
  refine ⟨?_, ?_, ?_, ?_⟩
  · refine ⟨twoFiles, _, _, [.getEditor 0, .getEditor 0, .edit 0 (.insertIfNoMatch .nothing 2),
        .edit 1 (.insertIfNoMatch .nothing 3)], rfl, rfl, rfl, fun h => ?_⟩
    have := h "/f".toList
    revert this
    decide
  · refine ⟨twoFiles, _, _, [.getEditor 0, .getEditor 1, .edit 0 (.insertIfNoMatch .nothing 2),
        .edit 1 (.insertIfNoMatch .nothing 2), .edit 0 (.replace (.letter 'x') 3)], rfl, ?_, rfl, rfl, fun h => ?_⟩
    · intro i opᵢ j opⱼ f _ _ hi hj
      have hlt := (List.getElem?_eq_some_iff.mp hi).1
      exact (List.getElem?_inj hlt (by decide)).mp (hi.trans hj.symm)
    · have := h "/g".toList
      revert this
      decide
  · refine ⟨{ twoFiles with
        world := ⟨fun _ => none, fun f => if f = "/a/b".toList then some "1".toList else
          if f = "/a_b".toList then some "2".toList else none⟩
        strings := { scriptTexts with text := fun r => if r = 0 then "/a/b".toList else "/a_b".toList } },
      _, _, [.getEditor 0, .getEditor 1], rfl, by simp, rfl, rfl, fun h => ?_⟩
    have := h "/a/b".toList
    revert this
    decide
  · refine ⟨twoFiles, _, _, [.getEditor 0, .edit 0 (.insertIfNoMatch .nothing 2)], rfl, rfl, rfl, rfl, fun h => ?_⟩
    have := h "/f".toList
    revert this
    decide

end GexCloud
