import GexCloud.Base.TemplatePasses
import GexCloud.Support.FileTree

/-! # `remove_template_tree`: what of an installed tree is removed

A template tree is installed on the host by `process_template_tree` and removed by
`remove_template_tree`, which goes through the same patterns but computes the paths anew.

* `HostTree` — a template directory of `.erb`, `.plain` and `_dir.erb` entries with their contents.
* `ErbProcessor.destination`, `ErbProcessor.install` — where an entry is installed, and its handler.
* **`ErbProcessor.Installs`** — the passes over a tree; within a pass the order is arbitrary.
* **`ErbProcessor.removeTemplateTree`** — the removal.
* **`ErbProcessor.uninstall_iff`** — the removal undoes the installation exactly when nothing of the tree
  is a directory or a plain file, and the paths of the `.erb` entries, with their extension, are paths that
  did not exist before and among which are all destinations.

Paths are given to the shell as they are; they are taken to have no characters special to it. -/

namespace GexCloud

open Texts Glob FileTree Runs

/-- A template directory of `.erb`, `.plain` and `_dir.erb` entries, with the contents of its files; nobody looks
at those of a directory. -/
structure HostTree extends TemplateDir where
  contents : TreeEntry → Text
  no_iterate : toTemplateDir.iterateOverTree ".iterate".toList = []

/-- What `target.slice! t_dir` leaves of the path of an entry. -/
def HostTree.target (tree : HostTree) (f : TreeEntry) : Text := sliceFirst tree.tDir (f.path tree.tDir)

namespace ErbProcessor

/-! ## Installing on the host -/

/-- Where an entry is installed; `none` when its path cannot be processed. -/
def destination (p : ErbProcessor) (tree : HostTree) : Handler → TreeEntry → Option Text
  | .processTemplateDir, f =>
    p.getDestinationFileName (chomp "/_dir.erb".toList (f.path tree.tDir)) tree.tDir
  | .processTemplateIterate, _ => none
  | .processTemplateFile, f =>
    (p.getDestinationFileName (f.path tree.tDir) tree.tDir).map (chomp ".erb".toList)
  | .processTemplatePlain, f => p.plainDestination tree.tDir ⟨f.path tree.tDir, tree.contents f⟩

/-- What a handler does to its destination, with `container` nil. The contents of an `.erb` entry are
written in place; a plain file is copied. -/
def place (p : ErbProcessor) (tree : HostTree) (f : TreeEntry) (dest : Text) :
    Handler → Tree → Option Tree
  | .processTemplateDir, fs => mkdirP dest fs
  | .processTemplateIterate, _ => none
  | .processTemplateFile, fs => do
    let final ← p.erbProcessString (tree.contents f)
    write dest final fs
  | .processTemplatePlain, fs => write dest (tree.contents f) fs

/-- **The handlers of `process_template_tree`** on the host; `none` when one raises, as it does for a directory, which
neither `IO.read` nor `cp -f` takes. -/
def install (p : ErbProcessor) (tree : HostTree) (h : Handler) (f : TreeEntry) (fs : Tree) :
    Option Tree := do
  let dest ← p.destination tree h f
  let fs ← p.place tree f dest h fs
  if p.permit (f.path tree.tDir) dest ∧ f.directory = false then some fs else none

/-- **`process_template_tree` on the host**: the passes one after the other, the calls of a pass in any
order. -/
def Installs (p : ErbProcessor) (tree : HostTree) (fs fs' : Tree) : Prop :=
  ∃ order : Handler → List TreeEntry, (∀ h, (order h).Perm (tree.taken h)) ∧
    (passOrder.flatMap fun h => (order h).map (h, ·)).foldlM
      (fun fs call => p.install tree call.1 call.2 fs) fs = some fs'

/-! ## Removing -/

/-- `process_remove_file` on the host. -/
def processRemoveFile (p : ErbProcessor) (file : Text) (fs : Tree) : Except RubyError Tree :=
  match p.erbProcessString file with
  | none => .error (.exception ("Could not process template ".toList ++ file))
  | some dest =>
    match rmF dest fs with
    | none => .error (.commandFailed ("rm -f ".toList ++ dest))
    | some fs => .ok fs

/-- `process_remove_dir`. -/
def processRemoveDir (p : ErbProcessor) (dir : Text) (fs : Tree) : Except RubyError Tree :=
  match p.erbProcessString dir with
  | none => .error (.exception ("Could not process template ".toList ++ dir))
  | some dir => .ok (rmRf dir fs)

/-- `process_remove_plain target, container`: the method has one positional parameter. -/
def processRemovePlain : Except RubyError Unit :=
  .error (.argumentError "wrong number of arguments (given 2, expected 1)".toList)

/-- `process_remove_iterate entry, t_dir, container`: the method has two positional parameters. -/
def processRemoveIterate : Except RubyError Unit :=
  .error (.argumentError "wrong number of arguments (given 3, expected 2)".toList)

/-- The `.erb` entries whose path is handed to `process_remove_file`. -/
def removedFiles (tree : HostTree) : List TreeEntry :=
  (tree.iterateOverTree ".erb".toList).filter fun f =>
    !decide ("/_dir.erb".toList <:+ tree.target f)

/-- **`remove_template_tree`** on the host. -/
def removeTemplateTree (p : ErbProcessor) (tree : HostTree) (fs : Tree) : Except RubyError Tree := do
  (tree.iterateOverTree ".iterate".toList).forM fun _ => processRemoveIterate
  let fs ← (removedFiles tree).foldlM (fun fs f => p.processRemoveFile (tree.target f) fs) fs
  (tree.iterateOverTree ".plain".toList).forM fun _ => processRemovePlain
  (tree.iterateOverTree "/_dir.erb".toList).foldlM
    (fun fs f => p.processRemoveDir (tree.target f) fs) fs

variable {p : ErbProcessor} {tree : HostTree} {h : Handler} {f : TreeEntry} {fs fs' : Tree}

/-! ## What an installation does -/

/-- A handler that succeeds has a destination and has installed its entry, a file, there. -/
theorem install_eq_some_iff : p.install tree h f fs = some fs' ↔
    ∃ dest, p.destination tree h f = some dest ∧ p.place tree f dest h fs = some fs' ∧
      p.permit (f.path tree.tDir) dest = true ∧ f.directory = false := by
  simp only [install, Option.bind_eq_bind, Option.bind_eq_some_iff]
  constructor
  · rintro ⟨dest, hdest, t, hplace, ht⟩
    split at ht
    · cases ht
      exact ⟨dest, hdest, hplace, ‹_›⟩
    · cases ht
  · rintro ⟨dest, hdest, hplace, hpermit⟩
    exact ⟨dest, hdest, fs', hplace, if_pos hpermit⟩

/-- What a handler other than that for directories does is to write a file. -/
theorem place_write {dest : Text} (hne : h ≠ .processTemplateDir)
    (hplace : p.place tree f dest h fs = some fs') : ∃ content, write dest content fs = some fs' := by
  cases h with
  | processTemplateDir => exact absurd rfl hne
  | processTemplateIterate => cases hplace
  | processTemplateFile =>
    obtain ⟨final, -, hwrite⟩ := Option.bind_eq_some_iff.mp hplace
    exact ⟨final, hwrite⟩
  | processTemplatePlain => exact ⟨tree.contents f, hplace⟩

/-- A handler leaves the directories that are there. -/
theorem place_directory {dest q : Text} (hplace : p.place tree f dest h fs = some fs')
    (hq : fs q = some .directory) : fs' q = some .directory := by
  by_cases hh : h = .processTemplateDir
  · subst hh
    rw [mkdirP_apply hplace (by rw [hq]; simp), hq]
  · obtain ⟨content, hwrite⟩ := place_write hh hplace
    obtain ⟨⟨-, hdest⟩, rfl⟩ := write_eq_some_iff.mp hwrite
    rw [Function.update_of_ne (by rintro rfl; exact hdest hq), hq]

/-- A handler keeps what is there, and its destination is there afterwards. -/
theorem place_keeps {dest : Text} (hplace : p.place tree f dest h fs = some fs') :
    Keeps fs fs' ∧ fs' dest ≠ none := by
  by_cases hh : h = .processTemplateDir
  · subst hh
    exact ⟨mkdirP_keeps hplace, mkdirP_self hplace⟩
  · obtain ⟨content, hwrite⟩ := place_write hh hplace
    refine ⟨write_keeps hwrite, ?_⟩
    obtain ⟨-, rfl⟩ := write_eq_some_iff.mp hwrite
    simp

/-- The calls of an installation, one after the other. -/
def installAll (p : ErbProcessor) (tree : HostTree) (calls : List (Handler × TreeEntry)) (fs : Tree) :
    Option Tree :=
  calls.foldlM (fun fs call => p.install tree call.1 call.2 fs) fs

/-- The calls succeed one after the other. -/
theorem installAll_cons {call : Handler × TreeEntry} {calls : List (Handler × TreeEntry)} :
    p.installAll tree (call :: calls) fs = some fs' ↔
      ∃ t, p.install tree call.1 call.2 fs = some t ∧ p.installAll tree calls t = some fs' := by
  rw [installAll, List.foldlM_cons, Option.bind_eq_bind, Option.bind_eq_some_iff]
  rfl

/-- Every destination is there in the end, and what was there before still is. -/
theorem installAll_keeps {calls : List (Handler × TreeEntry)}
    (hinst : p.installAll tree calls fs = some fs') :
    Keeps fs fs' ∧ ∀ call ∈ calls, ∀ dest, p.destination tree call.1 call.2 = some dest →
      fs' dest ≠ none := by
  induction calls generalizing fs with
  | nil =>
    cases hinst
    exact ⟨.refl _, by simp⟩
  | cons call calls ih =>
    obtain ⟨t, hstep, hrest⟩ := installAll_cons.mp hinst
    obtain ⟨hkeeps, hdests⟩ := ih hrest
    obtain ⟨dest, hdest, hplace, -⟩ := install_eq_some_iff.mp hstep
    refine ⟨(place_keeps hplace).1.trans hkeeps, fun c hc d hd => ?_⟩
    rcases List.mem_cons.mp hc with rfl | hc
    · rw [hdest] at hd
      cases hd
      exact hkeeps dest (place_keeps hplace).2
    · exact hdests c hc d hd

/-- Every entry that was installed has a destination. -/
theorem installAll_destination {calls : List (Handler × TreeEntry)} {call : Handler × TreeEntry}
    (hinst : p.installAll tree calls fs = some fs') (hcall : call ∈ calls) :
    ∃ dest, p.destination tree call.1 call.2 = some dest := by
  induction calls generalizing fs with
  | nil => cases hcall
  | cons c calls ih =>
    obtain ⟨t, hstep, hrest⟩ := installAll_cons.mp hinst
    rcases List.mem_cons.mp hcall with rfl | hcall
    · obtain ⟨dest, hdest, -⟩ := install_eq_some_iff.mp hstep
      exact ⟨dest, hdest⟩
    · exact ih hrest hcall

/-- Directories stay. -/
theorem installAll_directory {calls : List (Handler × TreeEntry)} {q : Text}
    (hinst : p.installAll tree calls fs = some fs') (hq : fs q = some .directory) :
    fs' q = some .directory := by
  induction calls generalizing fs with
  | nil =>
    cases hinst
    exact hq
  | cons call calls ih =>
    obtain ⟨t, hstep, hrest⟩ := installAll_cons.mp hinst
    obtain ⟨dest, -, hplace, -⟩ := install_eq_some_iff.mp hstep
    exact ih hrest (place_directory hplace hq)

/-- The pass for directories makes directories only. -/
theorem installAll_dirs {files : List TreeEntry} {q : Text}
    (hinst : p.installAll tree (files.map (Handler.processTemplateDir, ·)) fs = some fs') :
    fs' q = fs q ∨ fs' q = some .directory := by
  induction files generalizing fs with
  | nil =>
    cases hinst
    exact .inl rfl
  | cons f files ih =>
    obtain ⟨t, hstep, hrest⟩ := installAll_cons.mp hinst
    obtain ⟨dest, -, hplace, -⟩ := install_eq_some_iff.mp hstep
    by_cases hq : t q = some .directory
    · exact .inr (installAll_directory hrest hq)
    · have hsame : t q = fs q := (mkdirP_apply_or hplace).resolve_right hq
      rw [← hsame]
      exact ih hrest

/-- The pass for `.erb` files writes files, at its destinations only. -/
theorem installAll_files {files : List TreeEntry} {q : Text}
    (hinst : p.installAll tree (files.map (Handler.processTemplateFile, ·)) fs = some fs') :
    (∃ content, fs' q = some (.file content) ∧
        ∃ f ∈ files, p.destination tree .processTemplateFile f = some q) ∨ fs' q = fs q := by
  induction files generalizing fs with
  | nil =>
    cases hinst
    exact .inr rfl
  | cons f files ih =>
    obtain ⟨t, hstep, hrest⟩ := installAll_cons.mp hinst
    obtain ⟨dest, hdest, hplace, -⟩ := install_eq_some_iff.mp hstep
    rcases ih hrest with ⟨content, hfile, g, hg, hgq⟩ | hsame
    · exact .inl ⟨content, hfile, g, List.mem_cons_of_mem f hg, hgq⟩
    · obtain ⟨content, hwrite⟩ := place_write (by simp) hplace
      obtain ⟨-, rfl⟩ := write_eq_some_iff.mp hwrite
      by_cases hq : q = dest
      · subst hq
        exact .inl ⟨content, by rw [hsame]; simp, f, List.mem_cons_self, hdest⟩
      · exact .inr (by rw [hsame, Function.update_of_ne hq])

/-! ## What a removal does -/

/-- `process_remove_file` succeeds when the path can be processed and is no directory. -/
theorem processRemoveFile_eq_ok_iff {file : Text} :
    p.processRemoveFile file fs = .ok fs' ↔
      ∃ r, p.erbProcessString file = some r ∧ fs r ≠ some .directory ∧
        fs' = Function.update fs r none := by
  cases hr : p.erbProcessString file with
  | none => simp [processRemoveFile, hr]
  | some r =>
    cases hrm : rmF r fs with
    | none =>
      have hdir : fs r = some .directory := by
        by_contra hdir
        rw [rmF_eq_some_iff.mpr ⟨hdir, rfl⟩] at hrm
        cases hrm
      simp [processRemoveFile, hr, hrm, hdir]
    | some t =>
      obtain ⟨hdir, rfl⟩ := rmF_eq_some_iff.mp hrm
      simp [processRemoveFile, hr, hrm, hdir, eq_comm]

/-- A tree of files without the paths that the entries evaluate to. -/
def emptied (p : ErbProcessor) (tree : HostTree) (files : List TreeEntry) (fs : Tree) : Tree :=
  fun q => if ∃ f ∈ files, p.erbProcessString (tree.target f) = some q then none else fs q

/-- Emptying one path, and then the others. -/
theorem emptied_update {r : Text} {files : List TreeEntry}
    (hr : p.erbProcessString (tree.target f) = some r) :
    p.emptied tree files (Function.update fs r none) = p.emptied tree (f :: files) fs := by
  funext q
  by_cases hq : ∃ g ∈ files, p.erbProcessString (tree.target g) = some q
  · have hq' : ∃ g ∈ f :: files, p.erbProcessString (tree.target g) = some q := by
      obtain ⟨g, hg, hgq⟩ := hq
      exact ⟨g, List.mem_cons_of_mem f hg, hgq⟩
    rw [emptied, emptied, if_pos hq, if_pos hq']
  · rw [emptied, emptied, if_neg hq]
    by_cases hqr : q = r
    · subst hqr
      rw [Function.update_self, if_pos ⟨f, List.mem_cons_self, hr⟩]
    · rw [Function.update_of_ne hqr, if_neg]
      rintro ⟨g, hg, hgq⟩
      rcases List.mem_cons.mp hg with rfl | hg
      · rw [hr] at hgq
        exact hqr (Option.some.inj hgq).symm
      · exact hq ⟨g, hg, hgq⟩

/-- **`rm -f` for every entry**: it succeeds when every path can be processed and none is a directory,
and then it has emptied these paths. -/
theorem removeFiles_eq_ok_iff {files : List TreeEntry} :
    files.foldlM (fun fs f => p.processRemoveFile (tree.target f) fs) fs = .ok fs' ↔
      (∀ f ∈ files, ∃ r, p.erbProcessString (tree.target f) = some r ∧ fs r ≠ some .directory) ∧
        fs' = p.emptied tree files fs := by
  induction files generalizing fs with
  | nil =>
    have hnil : p.emptied tree [] fs = fs := by
      funext q
      simp [emptied]
    rw [hnil]
    constructor
    · rintro ⟨⟩
      exact ⟨by simp, rfl⟩
    · rintro ⟨-, rfl⟩
      rfl
  | cons f files ih =>
    rw [List.foldlM_cons, bind_eq_ok_iff]
    constructor
    · rintro ⟨t, hstep, hrest⟩
      obtain ⟨r, hr, hdir, rfl⟩ := processRemoveFile_eq_ok_iff.mp hstep
      obtain ⟨hall, rfl⟩ := ih.mp hrest
      refine ⟨fun g hg => ?_, emptied_update hr⟩
      rcases List.mem_cons.mp hg with rfl | hg
      · exact ⟨r, hr, hdir⟩
      · obtain ⟨r', hr', hdir'⟩ := hall g hg
        refine ⟨r', hr', fun hd => ?_⟩
        by_cases heq : r' = r
        · exact hdir (heq ▸ hd)
        · exact hdir' (by rw [Function.update_of_ne heq, hd])
    · rintro ⟨hall, rfl⟩
      obtain ⟨r, hr, hdir⟩ := hall f List.mem_cons_self
      refine ⟨_, processRemoveFile_eq_ok_iff.mpr ⟨r, hr, hdir, rfl⟩, ih.mpr ⟨fun g hg => ?_, ?_⟩⟩
      · obtain ⟨r', hr', hdir'⟩ := hall g (List.mem_cons_of_mem f hg)
        refine ⟨r', hr', fun hd => ?_⟩
        by_cases heq : r' = r
        · rw [heq, Function.update_self] at hd
          cases hd
        · rw [Function.update_of_ne heq] at hd
          exact hdir' hd
      · exact (emptied_update hr).symm

/-- `rm -rf` for every directory entry removes only what is within one of the evaluated paths. -/
theorem removeDirs_apply {files : List TreeEntry} {q : Text}
    (hrm : files.foldlM (fun fs f => p.processRemoveDir (tree.target f) fs) fs = .ok fs') :
    fs' q = fs q ∨ fs' q = none ∧ ∃ f ∈ files, ∃ r, p.erbProcessString (tree.target f) = some r ∧
      Within r q := by
  induction files generalizing fs with
  | nil =>
    cases hrm
    exact .inl rfl
  | cons f files ih =>
    rw [List.foldlM_cons, bind_eq_ok_iff] at hrm
    obtain ⟨t, hstep, hrest⟩ := hrm
    cases hr : p.erbProcessString (tree.target f) with
    | none =>
      rw [processRemoveDir, hr] at hstep
      cases hstep
    | some r =>
      have ht : t = rmRf r fs := by
        rw [processRemoveDir, hr] at hstep
        cases hstep
        rfl
      rcases ih hrest with hsame | ⟨hnone, g, hg, hgr⟩
      · by_cases hwithin : Within r q
        · exact .inr ⟨by rw [hsame, ht]; exact if_pos hwithin, f, List.mem_cons_self, r, hr, hwithin⟩
        · exact .inl (by rw [hsame, ht, rmRf_of_not_within hwithin])
      · exact .inr ⟨hnone, g, List.mem_cons_of_mem f hg, hgr⟩

/-! ## Where the two agree -/

/-- What `ERB` does with text behind the last tag: the path of a description of a directory evaluates to
the evaluated directory with the name of the description behind. -/
def CopiesName (p : ErbProcessor) : Prop :=
  ∀ s, p.result (s ++ "/_dir.erb".toList) = (p.result s).map (· ++ "/_dir.erb".toList)

/-- The destinations of the tree do not exist. -/
def Fresh (p : ErbProcessor) (tree : HostTree) (fs : Tree) : Prop :=
  ∀ h, ∀ f ∈ tree.taken h, ∀ dest, p.destination tree h f = some dest → fs dest = none

/-- **A tree that can be removed again.** No entry is a directory or a plain file; every `.erb` entry has a
path that evaluates, extension included, to one that does not exist; and the destinations are among these
paths. -/
structure Undoable (p : ErbProcessor) (tree : HostTree) (fs : Tree) : Prop where
  no_dirs : tree.taken .processTemplateDir = []
  no_plain : tree.taken .processTemplatePlain = []
  paths : ∀ f ∈ removedFiles tree, ∃ r, p.erbProcessString (tree.target f) = some r ∧ fs r = none
  covered : ∀ f ∈ tree.taken .processTemplateFile, ∀ dest,
    p.destination tree .processTemplateFile f = some dest →
      ∃ g ∈ removedFiles tree, p.erbProcessString (tree.target g) = some dest

/-- Cutting off the tree directory leaves the rest of a path. -/
theorem sliceFirst_append (part s : Text) : sliceFirst part (part ++ s) = s := by
  cases hs : part ++ s with
  | nil =>
    rw [List.append_eq_nil_iff] at hs
    rw [hs.2]
    rfl
  | cons c rest =>
    rw [sliceFirst, if_pos (by rw [← hs]; exact List.prefix_append part s), ← hs, List.drop_left]

/-- Evaluating a path with the name of a description behind. -/
theorem erbProcessString_append (hcopies : p.CopiesName) (s : Text) :
    p.erbProcessString (s ++ "/_dir.erb".toList) =
      (p.erbProcessString s).map (· ++ "/_dir.erb".toList) := by
  have hno : '<' ∉ "/_dir.erb".toList := by decide
  by_cases hs : '<' ∈ s
  · rw [erbProcessString, erbProcessString, if_pos (List.mem_append_left _ hs), if_pos hs, hcopies s]
  · have hs' : '<' ∉ s ++ "/_dir.erb".toList := by
      rw [List.mem_append, not_or]
      exact ⟨hs, hno⟩
    rw [erbProcessString, erbProcessString, if_neg hs', if_neg hs]
    rfl

/-- The pass for directories takes descriptions of directories. -/
theorem name_of_taken_dir (hf : f ∈ tree.taken .processTemplateDir) :
    f.name = "_dir.erb".toList :=
  (TemplateDir.selects_of_mem_taken hf).2.2

/-- **What is removed for a directory entry**: not the directory, but its description in it. -/
theorem target_dir (hcopies : p.CopiesName) (hf : f ∈ tree.taken .processTemplateDir) :
    p.erbProcessString (tree.target f) =
      (p.destination tree .processTemplateDir f).map (· ++ "/_dir.erb".toList) := by
  have hpath : f.path tree.tDir =
      (tree.tDir ++ f.dirs.flatMap fun c => '/' :: c) ++ "/_dir.erb".toList := by
    rw [TreeEntry.path_eq, name_of_taken_dir hf]
    rfl
  have htarget : tree.target f = (f.dirs.flatMap fun c => '/' :: c) ++ "/_dir.erb".toList := by
    rw [HostTree.target, hpath, List.append_assoc, sliceFirst_append]
  have hdest : p.destination tree .processTemplateDir f =
      p.erbProcessString (f.dirs.flatMap fun c => '/' :: c) := by
    rw [destination, getDestinationFileName, hpath, chomp_append, sliceFirst_append]
  rw [htarget, hdest, erbProcessString_append hcopies]

/-- Calls before others. -/
theorem installAll_append {a b : List (Handler × TreeEntry)} :
    p.installAll tree (a ++ b) fs = some fs' ↔
      ∃ t, p.installAll tree a fs = some t ∧ p.installAll tree b t = some fs' := by
  rw [installAll, List.foldlM_append, Option.bind_eq_bind, Option.bind_eq_some_iff]
  rfl

/-- An installation: directories, then `.erb` files, then plain files. -/
theorem Installs.split (hinst : p.Installs tree fs fs') :
    ∃ (ds es ps : List TreeEntry) (t₁ t₂ : Tree), ds.Perm (tree.taken .processTemplateDir) ∧
      es.Perm (tree.taken .processTemplateFile) ∧ ps.Perm (tree.taken .processTemplatePlain) ∧
      p.installAll tree (ds.map (Handler.processTemplateDir, ·)) fs = some t₁ ∧
      p.installAll tree (es.map (Handler.processTemplateFile, ·)) t₁ = some t₂ ∧
      p.installAll tree (ps.map (Handler.processTemplatePlain, ·)) t₂ = some fs' := by
  obtain ⟨order, hperm, hfold⟩ := hinst
  have hiter : order .processTemplateIterate = [] :=
    List.perm_nil.mp ((hperm .processTemplateIterate).trans (by rw [TemplateDir.taken, tree.no_iterate]))
  have hcalls : p.installAll tree ((order .processTemplateDir).map (Handler.processTemplateDir, ·) ++
      ((order .processTemplateFile).map (Handler.processTemplateFile, ·) ++
        (order .processTemplatePlain).map (Handler.processTemplatePlain, ·))) fs = some fs' := by
    rw [← hfold]
    simp [installAll, passOrder, hiter]
  obtain ⟨t₁, h₁, hrest⟩ := installAll_append.mp hcalls
  obtain ⟨t₂, h₂, h₃⟩ := installAll_append.mp hrest
  exact ⟨_, _, _, t₁, t₂, hperm _, hperm _, hperm _, h₁, h₂, h₃⟩

/-- An installed entry is at its destination. -/
theorem Installs.dest (hinst : p.Installs tree fs fs') (hf : f ∈ tree.taken h)
    (hh : h ≠ .processTemplateIterate) {dest : Text} (hdest : p.destination tree h f = some dest) :
    fs' dest ≠ none := by
  obtain ⟨ds, es, ps, t₁, t₂, hds, hes, hps, h₁, h₂, h₃⟩ := hinst.split
  have hk₂ := (installAll_keeps h₂).1
  have hk₃ := (installAll_keeps h₃).1
  cases h with
  | processTemplateDir =>
    exact hk₃ dest (hk₂ dest ((installAll_keeps h₁).2 _
      (List.mem_map_of_mem (hds.mem_iff.mpr hf)) dest hdest))
  | processTemplateIterate => exact absurd rfl hh
  | processTemplateFile =>
    exact hk₃ dest ((installAll_keeps h₂).2 _ (List.mem_map_of_mem (hes.mem_iff.mpr hf)) dest hdest)
  | processTemplatePlain =>
    exact (installAll_keeps h₃).2 _ (List.mem_map_of_mem (hps.mem_iff.mpr hf)) dest hdest

/-- An installed directory that was not there before is a directory. -/
theorem Installs.directory (hinst : p.Installs tree fs fs') (hf : f ∈ tree.taken .processTemplateDir)
    {dest : Text} (hdest : p.destination tree .processTemplateDir f = some dest)
    (hnone : fs dest = none) : fs' dest = some .directory := by
  obtain ⟨ds, es, ps, t₁, t₂, hds, hes, hps, h₁, h₂, h₃⟩ := hinst.split
  have hthere := (installAll_keeps h₁).2 _ (List.mem_map_of_mem (hds.mem_iff.mpr hf)) dest hdest
  have hdir : t₁ dest = some .directory := by
    rcases installAll_dirs h₁ (q := dest) with hsame | hdir
    · exact absurd (hsame.trans hnone) hthere
    · exact hdir
  exact installAll_directory h₃ (installAll_directory h₂ hdir)

/-- Where only `.erb` files are installed, a path is as before or a destination, with a file. -/
theorem Installs.only_files (hinst : p.Installs tree fs fs')
    (hdirs : tree.taken .processTemplateDir = []) (hplain : tree.taken .processTemplatePlain = [])
    (q : Text) : (∃ content, fs' q = some (.file content) ∧ ∃ f ∈ tree.taken .processTemplateFile,
      p.destination tree .processTemplateFile f = some q) ∨ fs' q = fs q := by
  obtain ⟨ds, es, ps, t₁, t₂, hds, hes, hps, h₁, h₂, h₃⟩ := hinst.split
  rw [hdirs, List.perm_nil] at hds
  rw [hplain, List.perm_nil] at hps
  subst hds hps
  cases h₁
  cases h₃
  rcases installAll_files h₂ (q := q) with ⟨content, hfile, g, hg, hgq⟩ | hsame
  · exact .inl ⟨content, hfile, g, hes.mem_iff.mp hg, hgq⟩
  · exact .inr hsame

/-- A call that always fails can be made for no entry. -/
theorem forM_error_eq_ok_iff {e : RubyError} {files : List TreeEntry} {u : PUnit} :
    (files.forM fun _ => (.error e : Except RubyError PUnit)) = .ok u ↔ files = [] := by
  cases files with
  | nil => exact ⟨fun _ => rfl, fun _ => rfl⟩
  | cons f files =>
    constructor
    · intro h
      cases h
    · intro h
      cases h

/-- **When the removal succeeds**: there is no plain file, the paths of the `.erb` entries can be emptied,
and the rest is the removal of the directory entries. -/
theorem removeTemplateTree_eq_ok_iff : p.removeTemplateTree tree fs = .ok fs' ↔
    tree.taken .processTemplatePlain = [] ∧
      (∀ f ∈ removedFiles tree, ∃ r, p.erbProcessString (tree.target f) = some r ∧
        fs r ≠ some .directory) ∧
      (tree.taken .processTemplateDir).foldlM (fun fs f => p.processRemoveDir (tree.target f) fs)
        (p.emptied tree (removedFiles tree) fs) = .ok fs' := by
  simp only [removeTemplateTree, tree.no_iterate, bind_eq_ok_iff, removeFiles_eq_ok_iff,
    processRemovePlain]
  constructor
  · rintro ⟨_, -, t, ⟨hall, rfl⟩, _, hplain, hdirs⟩
    exact ⟨forM_error_eq_ok_iff.mp hplain, hall, hdirs⟩
  · rintro ⟨hplain, hall, hdirs⟩
    exact ⟨⟨⟩, rfl, _, ⟨hall, rfl⟩, ⟨⟩, forM_error_eq_ok_iff.mpr hplain, hdirs⟩

/-- **A directory is never removed**: if the removal undoes the installation, the path of every directory
entry has a shorter one among the directory entries. -/
theorem exists_shorter_dir (hcopies : p.CopiesName) (hfresh : p.Fresh tree fs)
    (hinst : p.Installs tree fs fs') (hrm : p.removeTemplateTree tree fs' = .ok fs)
    (hf : f ∈ tree.taken .processTemplateDir) {dest : Text}
    (hdest : p.destination tree .processTemplateDir f = some dest) :
    ∃ g ∈ tree.taken .processTemplateDir, ∃ dest',
      p.destination tree .processTemplateDir g = some dest' ∧ dest'.length < dest.length := by
  have hnone := hfresh _ f hf dest hdest
  have hdir := hinst.directory hf hdest hnone
  obtain ⟨-, hall, hdirs⟩ := removeTemplateTree_eq_ok_iff.mp hrm
  -- `rm -f` would have failed on the directory
  have hkept : p.emptied tree (removedFiles tree) fs' dest = some .directory := by
    rw [emptied, if_neg, hdir]
    rintro ⟨g, hg, hgdest⟩
    obtain ⟨r, hr, hrdir⟩ := hall g hg
    rw [hgdest] at hr
    cases hr
    exact hrdir hdir
  rcases removeDirs_apply hdirs (q := dest) with hsame | ⟨-, g, hg, r, hr, hwithin⟩
  · rw [hnone, hkept] at hsame
    cases hsame
  · rw [target_dir hcopies hg, Option.map_eq_some_iff] at hr
    obtain ⟨dest', hdest', rfl⟩ := hr
    refine ⟨g, hg, dest', hdest', ?_⟩
    have hlen := hwithin.length_le
    have hpos : 0 < "_dir.erb".toList.length := by decide
    rw [List.length_append] at hlen
    have hname : "/_dir.erb".toList.length = "_dir.erb".toList.length + 1 := by decide
    omega

/-- So there is no directory entry. -/
theorem no_dirs_of_removed (hcopies : p.CopiesName) (hfresh : p.Fresh tree fs)
    (hinst : p.Installs tree fs fs') (hrm : p.removeTemplateTree tree fs' = .ok fs) :
    tree.taken .processTemplateDir = [] := by
  have hdescent : ∀ n, ∀ f ∈ tree.taken .processTemplateDir, ∀ dest,
      p.destination tree .processTemplateDir f = some dest → dest.length = n → False := by
    intro n
    induction n using Nat.strong_induction_on with
    | _ n ih =>
      intro f hf dest hdest hlen
      obtain ⟨g, hg, dest', hdest', hlt⟩ := exists_shorter_dir hcopies hfresh hinst hrm hf hdest
      exact ih dest'.length (by omega) g hg dest' hdest' rfl
  by_contra hne
  obtain ⟨f, hf⟩ := List.exists_mem_of_ne_nil _ hne
  obtain ⟨ds, -, -, t₁, -, hds, -, -, h₁, -⟩ := hinst.split
  obtain ⟨dest, hdest⟩ := installAll_destination h₁ (List.mem_map_of_mem (hds.mem_iff.mpr hf))
  exact hdescent dest.length f hf dest hdest rfl

/-- **Uninstalling undoes installing exactly for the trees that can be removed again.** -/
theorem uninstall_iff (hcopies : p.CopiesName) (hfresh : p.Fresh tree fs)
    (hinst : p.Installs tree fs fs') :
    p.removeTemplateTree tree fs' = .ok fs ↔ p.Undoable tree fs := by
  constructor
  · intro hrm
    have hdirs := no_dirs_of_removed hcopies hfresh hinst hrm
    obtain ⟨hplain, hall, hrest⟩ := removeTemplateTree_eq_ok_iff.mp hrm
    rw [hdirs] at hrest
    have hfs : p.emptied tree (removedFiles tree) fs' = fs := Except.ok.inj hrest
    refine ⟨hdirs, hplain, fun f hf => ?_, fun f hf dest hdest => ?_⟩
    · obtain ⟨r, hr, -⟩ := hall f hf
      refine ⟨r, hr, ?_⟩
      rw [← hfs, emptied, if_pos ⟨f, hf, hr⟩]
    · -- the destination is there after the installation and gone after the removal
      have hthere := hinst.dest hf (by simp) hdest
      have hgone : p.emptied tree (removedFiles tree) fs' dest = none := by
        rw [hfs]
        exact hfresh _ f hf dest hdest
      by_contra hnot
      rw [emptied, if_neg hnot] at hgone
      exact hthere hgone
  · rintro ⟨hdirs, hplain, hpaths, hcovered⟩
    refine removeTemplateTree_eq_ok_iff.mpr ⟨hplain, fun f hf => ?_, ?_⟩
    · obtain ⟨r, hr, hnone⟩ := hpaths f hf
      refine ⟨r, hr, ?_⟩
      rcases hinst.only_files hdirs hplain r with ⟨content, hfile, -⟩ | hsame
      · simp [hfile]
      · simp [hsame, hnone]
    · rw [hdirs]
      refine congrArg Except.ok (funext fun q => ?_)
      rw [emptied]
      split
      · rename_i hq
        obtain ⟨f, hf, hfq⟩ := hq
        obtain ⟨r, hr, hnone⟩ := hpaths f hf
        rw [hfq] at hr
        cases hr
        exact hnone.symm
      · rename_i hq
        rcases hinst.only_files hdirs hplain q with ⟨-, -, f, hf, hfq⟩ | hsame
        · exact absurd (hcovered f hf q hfq) hq
        · exact hsame

/-! ## A single template -/

/-- The template `etc/motd.erb`. -/
def motd : TreeEntry := ⟨["etc".toList], "motd.erb".toList, false, by decide, by decide⟩

/-- Above an entry at the top there are no directories. -/
theorem top_dirs_ok : ∀ d ∈ ([] : List Text), IsName d := List.forall_mem_nil _

/-- A tree with this template only. -/
def motdTree : HostTree where
  tDir := "/templates".toList
  entries := [⟨[], "etc".toList, true, top_dirs_ok, by decide⟩, motd]
  nodup := by decide
  closed := by decide
  contents := fun _ => "Welcome\n".toList
  no_iterate := TemplateDir.iterateOverTree_of_filter (by decide +kernel) (by decide)

/-- A processor for templates without tags. -/
def plainProcessor : ErbProcessor := ⟨"container".toList, some, fun _ _ => true⟩

/-- A host with a file of its own at `/etc/motd.erb`. -/
def host : Tree := fun q =>
  if q = "/etc".toList then some .directory
  else if q = "/etc/motd.erb".toList then some (.file "mine".toList)
  else none

/-- The host with the template installed. -/
def installedHost : Tree := Function.update host "/etc/motd".toList (some (.file "Welcome\n".toList))

/-- The pattern for `.erb` files finds the template only. -/
theorem found_motd : motdTree.iterateOverTree ".erb".toList = [motd] :=
  TemplateDir.iterateOverTree_of_filter (by decide +kernel) (by decide)

/-- Only the pass for `.erb` files takes the template. -/
theorem taken_motd (h : Handler) :
    motdTree.taken h = if h = .processTemplateFile then [motd] else [] := by
  cases h with
  | processTemplateFile =>
    rw [TemplateDir.taken, found_motd]
    decide +kernel
  | _ => exact TemplateDir.iterateOverTree_of_filter (by decide +kernel) (by decide)

/-- Where the one template goes. -/
theorem destination_motd :
    plainProcessor.destination motdTree .processTemplateFile motd = some "/etc/motd".toList := by
  decide +kernel

/-- And where `uninstall` looks for it. -/
theorem target_motd :
    plainProcessor.erbProcessString (motdTree.target motd) = some "/etc/motd.erb".toList := by
  decide +kernel

/-- It is the only file that is looked for. -/
theorem removedFiles_motd : removedFiles motdTree = [motd] := by
  rw [removedFiles, found_motd]
  decide +kernel

/-- The destination does not exist on the host. -/
theorem fresh_host : plainProcessor.Fresh motdTree host := by
  intro h f hf dest hdest
  rw [taken_motd] at hf
  split at hf
  · subst h
    obtain rfl := List.mem_singleton.mp hf
    rw [destination_motd] at hdest
    cases hdest
    decide
  · cases hf

/-- The template can be installed. -/
theorem installs_motd : plainProcessor.Installs motdTree host installedHost := by
  have hplace : plainProcessor.place motdTree motd "/etc/motd".toList .processTemplateFile host =
      some installedHost := by
    have hfinal : plainProcessor.erbProcessString (motdTree.contents motd) =
        some "Welcome\n".toList := by decide
    have hwrite : write "/etc/motd".toList "Welcome\n".toList host = some installedHost :=
      write_eq_some_iff.mpr ⟨by decide, rfl⟩
    rw [place, hfinal]
    exact hwrite
  have hinst := install_eq_some_iff.mpr ⟨_, destination_motd, hplace, rfl, rfl⟩
  refine ⟨motdTree.taken, fun h => .refl _, ?_⟩
  simp [passOrder, taken_motd, hinst]

/-- The removal leaves the installed file and deletes the file that was there before. -/
theorem motd_not_undone :
    plainProcessor.Fresh motdTree host ∧ plainProcessor.Installs motdTree host installedHost ∧
      ∃ left, plainProcessor.removeTemplateTree motdTree installedHost = .ok left ∧
        (left "/etc/motd".toList ≠ none ∧ host "/etc/motd".toList = none) ∧
        left "/etc/motd.erb".toList = none ∧ host "/etc/motd.erb".toList ≠ none := by
  refine ⟨fresh_host, installs_motd, plainProcessor.emptied motdTree [motd] installedHost, ?_, ?_⟩
  · rw [removeTemplateTree_eq_ok_iff, removedFiles_motd, taken_motd, taken_motd]
    refine ⟨rfl, fun f hf => ?_, rfl⟩
    obtain rfl := List.mem_singleton.mp hf
    exact ⟨_, target_motd, by decide⟩
  · decide +kernel

/-- For this tree the removal does not give the host back. -/
theorem uninstall_iff_motd :
    plainProcessor.removeTemplateTree motdTree installedHost ≠ .ok host := by
  intro hrm
  have hundo := (uninstall_iff (fun _ => rfl) fresh_host installs_motd).mp hrm
  obtain ⟨g, hg, hgdest⟩ := hundo.covered motd (by rw [taken_motd]; simp) _ destination_motd
  rw [removedFiles_motd] at hg
  obtain rfl := List.mem_singleton.mp hg
  rw [target_motd] at hgdest
  exact absurd hgdest (by decide)

end ErbProcessor

end GexCloud
