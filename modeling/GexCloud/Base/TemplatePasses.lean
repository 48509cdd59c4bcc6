import GexCloud.Base.TemplateTree
import GexCloud.Support.Glob
import Mathlib.Data.Char
import Mathlib.Data.List.Lex

/-! # `process_template_tree`: which pass handles which file

Each pass of `process_template_tree` takes its entries from the tree by a glob pattern, `**/*` with the
extension of the pass behind; the pass for `.erb` files leaves out those whose path ends with
`_dir.erb`, which describe directories and belong to a pass of their own. The patterns find directories
as well as files, and a handler that reads a directory raises; then no further pass is made. The
processor of the Chef scripts has the same passes.

* `TreeEntry`, `TemplateDir` — a file or directory below a template directory, and the directory.
* `TemplateDir.iterateOverTree` — the entries that `iterate_over_tree` yields.
* `Made`, `TemplateDir.Handles` — the calls of one pass, and those of `process_template_tree`.
* `Partitioned` — every template is handled once, by the handler it is meant for.
* `Reached`, `Undisturbed` — the files that the patterns find, and those with nothing that raises before them.
* **`partitioned_iff`** — the passes partition the templates exactly when all of them are reached and undisturbed.

The path of the directory is part of the patterns; it is taken literally, as it is for a path without
the characters special to `Dir.glob`. -/

namespace GexCloud

open Texts Glob

/-! ## Template directories -/

/-- A name of a file or directory. -/
def IsName (s : Text) : Prop := s ≠ [] ∧ '/' ∉ s

instance (s : Text) : Decidable (IsName s) := by unfold IsName; infer_instance

/-- A file or directory below a template directory: the directories down to it, and its name. A symbolic link is
what it leads to. -/
structure TreeEntry where
  dirs : List Text
  name : Text
  directory : Bool
  dirs_ok : ∀ d ∈ dirs, IsName d
  name_ok : IsName name
  deriving DecidableEq

/-- The components of the path below the template directory. -/
def TreeEntry.components (e : TreeEntry) : List Text := e.dirs ++ [e.name]

/-- The path, as `Dir.glob` returns it. -/
def TreeEntry.path (tDir : Text) (e : TreeEntry) : Text :=
  tDir ++ e.components.flatMap fun c => '/' :: c

/-- A template directory with all that is below it: no path is there twice, and what is above an entry is a
directory of the tree. -/
structure TemplateDir where
  tDir : Text
  entries : List TreeEntry
  nodup : (entries.map TreeEntry.components).Nodup
  closed : ∀ e ∈ entries, ∀ n < e.dirs.length,
    ∃ d ∈ entries, d.directory = true ∧ d.components = e.dirs.take (n + 1)

/-! ## The passes -/

/-- The components of the pattern `"/**/*#{extension}"`. -/
def globPattern (extension : Text) : List Text := ("**/*".toList ++ extension).splitOn '/'

/-- The order of `sort`: by the codes of the characters. -/
def sortsBefore (s t : Text) : Bool := decide (s ≤ t)

/-- The entries that `iterate_over_tree(t_dir, extension)` yields, directories among them. -/
def TemplateDir.iterateOverTree (tree : TemplateDir) (extension : Text) : List TreeEntry :=
  (tree.entries.filter fun e => globMatch (globPattern extension) e.components).mergeSort
    fun e g => sortsBefore (e.path tree.tDir) (g.path tree.tDir)

/-- A pattern that finds one entry at most. -/
theorem TemplateDir.iterateOverTree_of_filter {tree : TemplateDir} {extension : Text} {found : List TreeEntry}
    (h : tree.entries.filter (fun e => globMatch (globPattern extension) e.components) = found)
    (hlength : found.length ≤ 1) : tree.iterateOverTree extension = found := by
  rw [iterateOverTree, h]
  match found, hlength with
  | [], _ => exact List.mergeSort_nil
  | [e], _ => exact List.mergeSort_singleton e

/-- What the passes call for an entry. -/
inductive Handler
  | processTemplateDir
  | processTemplateIterate
  | processTemplateFile
  | processTemplatePlain
  deriving DecidableEq

/-- The entries that the pass with this handler takes. The pass for `.erb` files leaves out the paths that
end with `_dir.erb`. -/
def TemplateDir.taken (tree : TemplateDir) : Handler → List TreeEntry
  | .processTemplateDir => tree.iterateOverTree "/_dir.erb".toList
  | .processTemplateIterate => tree.iterateOverTree ".iterate".toList
  | .processTemplateFile => (tree.iterateOverTree ".erb".toList).filter fun e =>
      !decide ("_dir.erb".toList <:+ e.path tree.tDir)
  | .processTemplatePlain => tree.iterateOverTree ".plain".toList

/-- The passes, in the order of `process_template_tree`. -/
def passOrder : List Handler :=
  [.processTemplateDir, .processTemplateIterate, .processTemplateFile, .processTemplatePlain]

/-- The passes before the one with this handler. -/
def Handler.earlier (h : Handler) : List Handler := passOrder.takeWhile fun g => decide (g ≠ h)

/-- The `parallel` argument of the pass. -/
def Handler.parallel : Handler → Bool
  | .processTemplateIterate => false
  | _ => true

/-- Whether a call raises. The handlers, other than the one for plain files, read their entry with `IO.read`, which
raises `EISDIR` for a directory; `raises` is all else: a tag that cannot be evaluated, a command that fails, as
`cp -f` of a directory does. -/
def fails (raises : Handler → TreeEntry → Bool) (h : Handler) (e : TreeEntry) : Bool :=
  e.directory && !decide (h = .processTemplatePlain) || raises h e

/-- **The calls of a pass** in which the entries with `bad` raise. The entries are handed out in their order: all of
them if no call raises. Otherwise the first call that raises is made, and after it only those that other workers
have under way. -/
structure Made (bad : TreeEntry → Bool) (parallel : Bool) (found made : List TreeEntry) : Prop where
  order : made <+: found
  all : found.any bad = false → made = found
  first : found.any bad = true → made.any bad = true
  alone : parallel = false → made.dropLast.any bad = false

/-- The calls of the passes `hs`; when a call of a pass raises, the ones behind it are not made. -/
inductive PassCalls (tree : TemplateDir) (raises : Handler → TreeEntry → Bool) :
    List Handler → List (Handler × TreeEntry) → Prop
  | done : PassCalls tree raises [] []
  | pass {h : Handler} {hs : List Handler} {made : List TreeEntry} {more : List (Handler × TreeEntry)}
      (hmade : Made (fails raises h) h.parallel (tree.taken h) made) (hgood : made.any (fails raises h) = false)
      (hrest : PassCalls tree raises hs more) : PassCalls tree raises (h :: hs) (made.map (h, ·) ++ more)
  | broken {h : Handler} {hs : List Handler} {made : List TreeEntry}
      (hmade : Made (fails raises h) h.parallel (tree.taken h) made) (hbad : made.any (fails raises h) = true) :
      PassCalls tree raises (h :: hs) (made.map (h, ·))

/-- **The calls of `process_template_tree`**. -/
def TemplateDir.Handles (tree : TemplateDir) (raises : Handler → TreeEntry → Bool)
    (calls : List (Handler × TreeEntry)) : Prop := PassCalls tree raises passOrder calls

/-- A file that `process_template_tree` is to handle. -/
def IsTemplate (f : TreeEntry) : Prop :=
  f.directory = false ∧
    (".erb".toList <:+ f.name ∨ ".plain".toList <:+ f.name ∨ ".iterate".toList <:+ f.name)

instance (f : TreeEntry) : Decidable (IsTemplate f) := by unfold IsTemplate; infer_instance

/-- The handler a template is meant for. -/
def handlerOf (f : TreeEntry) : Handler :=
  if f.name = "_dir.erb".toList then .processTemplateDir
  else if ".erb".toList <:+ f.name then .processTemplateFile
  else if ".plain".toList <:+ f.name then .processTemplatePlain
  else .processTemplateIterate

/-- **The passes partition the templates**: whatever calls are made, each template is handled exactly once, by the
handler it is meant for. -/
def Partitioned (tree : TemplateDir) (raises : Handler → TreeEntry → Bool) : Prop :=
  ∀ calls, tree.Handles raises calls → ∀ f ∈ tree.entries, IsTemplate f →
    calls.filter (fun call => call.2 = f) = [(handlerOf f, f)]

/-- **The templates that the passes find.** No component has a leading dot; a description of a
directory is not at the top; and no other name ends like one. -/
def Reached (f : TreeEntry) : Prop :=
  (∀ d ∈ f.dirs, ¬ Hidden d) ∧
    (f.name = "_dir.erb".toList ∧ f.dirs ≠ [] ∨ ¬ Hidden f.name ∧ ¬ "_dir.erb".toList <:+ f.name)

instance (f : TreeEntry) : Decidable (Reached f) := by unfold Reached; infer_instance

/-- The entries that the pass with this handler takes. -/
def Selects (f : TreeEntry) : Handler → Prop
  | .processTemplateDir => f.dirs ≠ [] ∧ (∀ d ∈ f.dirs, ¬ Hidden d) ∧ f.name = "_dir.erb".toList
  | .processTemplateIterate =>
    (∀ d ∈ f.dirs, ¬ Hidden d) ∧ ¬ Hidden f.name ∧ ".iterate".toList <:+ f.name
  | .processTemplateFile =>
    ((∀ d ∈ f.dirs, ¬ Hidden d) ∧ ¬ Hidden f.name ∧ ".erb".toList <:+ f.name) ∧
      ¬ "_dir.erb".toList <:+ f.name
  | .processTemplatePlain =>
    (∀ d ∈ f.dirs, ¬ Hidden d) ∧ ¬ Hidden f.name ∧ ".plain".toList <:+ f.name

/-- **No call that raises comes before the call for the file**: no pass before its own takes an entry for which the
handler raises, and its own takes none that sorts before it. -/
structure Undisturbed (tree : TemplateDir) (raises : Handler → TreeEntry → Bool) (f : TreeEntry) : Prop where
  earlier : ∀ h ∈ (handlerOf f).earlier, ∀ e ∈ tree.entries, Selects e h → fails raises h e = false
  before : ∀ e ∈ tree.entries, Selects e (handlerOf f) → e ≠ f →
    sortsBefore (e.path tree.tDir) (f.path tree.tDir) = true → fails raises (handlerOf f) e = false

/-! ## What a pass takes -/

/-- The pattern for an extension without slash. -/
theorem globPattern_of_not_mem {extension : Text} (h : '/' ∉ extension) :
    globPattern extension = [['*', '*'], '*' :: extension] := by
  have hsplit : (['*', '*'] ++ '/' :: '*' :: extension).splitOn '/' =
      ['*', '*'] :: ('*' :: extension).splitOn '/' :=
    List.splitOn_append_cons_self_of_not_mem (by decide) _
  have hrest : ('*' :: extension).splitOn '/' = ['*' :: extension] :=
    List.splitOn_eq_singleton (by simp [h])
  exact hsplit.trans (congrArg _ hrest)

/-- The pattern for descriptions of directories. -/
theorem globPattern_dir : globPattern "/_dir.erb".toList = [['*', '*'], ['*'], "_dir.erb".toList] := by
  decide

/-- A suffix without slash does not reach beyond the last slash. -/
theorem suffix_append_slash_iff {suffix : Text} (h : '/' ∉ suffix) (a name : Text) :
    suffix <:+ a ++ '/' :: name ↔ suffix <:+ name := by
  constructor
  · intro hsuffix
    have hname : '/' :: name <:+ a ++ '/' :: name := List.suffix_append a _
    rcases Nat.lt_or_ge name.length suffix.length with hlen | hlen
    · -- a longer suffix would have the slash in it
      have hslash : '/' :: name <:+ suffix :=
        List.suffix_of_suffix_length_le hname hsuffix (by rw [List.length_cons]; omega)
      exact absurd (hslash.subset List.mem_cons_self) h
    · exact List.suffix_of_suffix_length_le hsuffix
        ((List.suffix_cons '/' name).trans hname) hlen
  · intro hsuffix
    exact hsuffix.trans ((List.suffix_cons '/' name).trans (List.suffix_append a _))

/-- The path ends with the name of the file. -/
theorem TreeEntry.path_eq (tDir : Text) (f : TreeEntry) :
    f.path tDir = (tDir ++ f.dirs.flatMap fun c => '/' :: c) ++ '/' :: f.name := by
  simp [TreeEntry.path, TreeEntry.components]

/-- No entry is there twice. -/
theorem TemplateDir.entries_nodup (tree : TemplateDir) : tree.entries.Nodup := .of_map _ tree.nodup

/-- How often a pass has an entry of the tree: once if the pattern finds it. -/
theorem TemplateDir.count_iterateOverTree {tree : TemplateDir} {f : TreeEntry} (hf : f ∈ tree.entries)
    (extension : Text) : (tree.iterateOverTree extension).count f =
      if globMatch (globPattern extension) f.components then 1 else 0 := by
  let found := fun g : TreeEntry => globMatch (globPattern extension) g.components
  have hperm := (List.mergeSort_perm (tree.entries.filter found)
    fun f g => sortsBefore (f.path tree.tDir) (g.path tree.tDir)).count_eq f
  rw [iterateOverTree, hperm]
  split
  · rename_i h
    rw [List.count_filter (p := found) h, List.count_eq_one_of_mem tree.entries_nodup hf]
  · rename_i h
    exact List.count_eq_zero_of_not_mem fun hmem => h (List.of_mem_filter (p := found) hmem)

/-- The calls that a handler gets for a file. -/
theorem filter_map_handler (h : Handler) (l : List TreeEntry) (f : TreeEntry) :
    (l.map (h, ·)).filter (fun call => decide (call.2 = f)) = List.replicate (l.count f) (h, f) := by
  induction l with
  | nil => rfl
  | cons g l ih =>
    rw [List.map_cons, List.filter_cons, List.count_cons, ih]
    by_cases hg : g = f
    · subst hg
      simp [List.replicate_succ]
    · simp [hg]

instance (f : TreeEntry) (h : Handler) : Decidable (Selects f h) := by
  cases h <;> unfold Selects <;> infer_instance

/-- A pass takes an entry of the tree once or not at all. -/
theorem TemplateDir.count_taken {tree : TemplateDir} {f : TreeEntry} (hf : f ∈ tree.entries)
    (h : Handler) : (tree.taken h).count f = if Selects f h then 1 else 0 := by
  have hsuffix : ∀ {extension : Text}, '/' ∉ extension → '*' ∉ extension →
      (globMatch (globPattern extension) f.components = true ↔
        (∀ d ∈ f.dirs, ¬ Hidden d) ∧ ¬ Hidden f.name ∧ extension <:+ f.name) := by
    intro extension hslash hstar
    rw [globPattern_of_not_mem hslash]
    exact globMatch_suffix_iff hstar
  cases h with
  | processTemplateDir =>
    rw [taken, count_iterateOverTree hf]
    refine if_congr ?_ rfl rfl
    rw [globPattern_dir]
    exact globMatch_below_iff (by decide)
  | processTemplateIterate =>
    rw [taken, count_iterateOverTree hf]
    exact if_congr (hsuffix (by decide) (by decide)) rfl rfl
  | processTemplatePlain =>
    rw [taken, count_iterateOverTree hf]
    exact if_congr (hsuffix (by decide) (by decide)) rfl rfl
  | processTemplateFile =>
    have hend : "_dir.erb".toList <:+ f.path tree.tDir ↔ "_dir.erb".toList <:+ f.name := by
      rw [TreeEntry.path_eq]
      exact suffix_append_slash_iff (by decide) _ _
    by_cases hdir : "_dir.erb".toList <:+ f.name
    · -- left out: the path ends like the description of a directory
      have hnot : f ∉ tree.taken .processTemplateFile := by
        intro hmem
        have hkept := List.of_mem_filter hmem
        rw [decide_eq_true (hend.mpr hdir)] at hkept
        cases hkept
      rw [List.count_eq_zero_of_not_mem hnot, if_neg fun hsel => hsel.2 hdir]
    · have hkept : (!decide ("_dir.erb".toList <:+ f.path tree.tDir)) = true := by
        rw [decide_eq_false fun h => hdir (hend.mp h)]
        rfl
      rw [taken, List.count_filter (p := fun g : TreeEntry =>
        !decide ("_dir.erb".toList <:+ g.path tree.tDir)) hkept, count_iterateOverTree hf]
      refine if_congr ?_ rfl rfl
      rw [hsuffix (by decide) (by decide)]
      exact ⟨fun hfound => ⟨hfound, hdir⟩, fun hsel => hsel.1⟩

/-- **What a pass takes**: the entries of the tree that it selects. -/
theorem TemplateDir.mem_taken_iff {tree : TemplateDir} {f : TreeEntry} {h : Handler} :
    f ∈ tree.taken h ↔ f ∈ tree.entries ∧ Selects f h := by
  have hfound : ∀ {extension : Text}, f ∈ tree.iterateOverTree extension → f ∈ tree.entries := by
    intro extension hmem
    exact List.mem_of_mem_filter ((List.mergeSort_perm _ _).mem_iff.mp hmem)
  have hentries : f ∈ tree.taken h → f ∈ tree.entries := by
    intro hf
    cases h with
    | processTemplateFile => exact hfound (List.mem_of_mem_filter hf)
    | _ => exact hfound hf
  rw [← and_iff_right_of_imp hentries]
  refine and_congr_right fun hf => ?_
  rw [← List.count_pos_iff, TemplateDir.count_taken hf]
  split <;> simp [*]

/-- A pass takes entries that it selects. -/
theorem TemplateDir.selects_of_mem_taken {tree : TemplateDir} {f : TreeEntry} {h : Handler}
    (hf : f ∈ tree.taken h) : Selects f h := (mem_taken_iff.mp hf).2

/-- **A template is taken by the pass it is meant for**, if it is reached, and by no other. -/
theorem selects_iff {f : TreeEntry} (hf : IsTemplate f) (h : Handler) :
    Selects f h ↔ h = handlerOf f ∧ Reached f := by
  have hdir : "_dir.erb".toList <:+ f.name → ".erb".toList <:+ f.name :=
    fun h => List.IsSuffix.trans (by decide) h
  have hEP : ".erb".toList <:+ f.name → ¬ ".plain".toList <:+ f.name :=
    fun ha hb => absurd (getLast?_eq_of_suffix ha hb (by decide) (by decide)) (by decide)
  have hEI : ".erb".toList <:+ f.name → ¬ ".iterate".toList <:+ f.name :=
    fun ha hb => absurd (getLast?_eq_of_suffix ha hb (by decide) (by decide)) (by decide)
  have hPI : ".plain".toList <:+ f.name → ¬ ".iterate".toList <:+ f.name :=
    fun ha hb => absurd (getLast?_eq_of_suffix ha hb (by decide) (by decide)) (by decide)
  have hname : f.name = "_dir.erb".toList → "_dir.erb".toList <:+ f.name ∧ ¬ Hidden f.name := by
    intro heq
    rw [heq]
    decide
  have hselD : Selects f .processTemplateDir ↔
    f.dirs ≠ [] ∧ (∀ d ∈ f.dirs, ¬ Hidden d) ∧ f.name = "_dir.erb".toList := Iff.rfl
  have hselI : Selects f .processTemplateIterate ↔
    (∀ d ∈ f.dirs, ¬ Hidden d) ∧ ¬ Hidden f.name ∧ ".iterate".toList <:+ f.name := Iff.rfl
  have hselF : Selects f .processTemplateFile ↔
    ((∀ d ∈ f.dirs, ¬ Hidden d) ∧ ¬ Hidden f.name ∧ ".erb".toList <:+ f.name) ∧
      ¬ "_dir.erb".toList <:+ f.name := Iff.rfl
  have hselP : Selects f .processTemplatePlain ↔
    (∀ d ∈ f.dirs, ¬ Hidden d) ∧ ¬ Hidden f.name ∧ ".plain".toList <:+ f.name := Iff.rfl
  -- what is left is about which of the endings the name has
  unfold Reached handlerOf
  have hf := hf.2
  generalize "_dir.erb".toList = dirErb at *
  generalize ".erb".toList = erb at *
  generalize ".plain".toList = plain at *
  generalize ".iterate".toList = iter at *
  by_cases hD : f.name = dirErb
  · obtain ⟨hS, hH⟩ := hname hD
    have hE := hdir hS
    rw [if_pos hD]
    cases h <;> simp [hselD, hselI, hselF, hselP, hS, hEP hE, hEI hE, eq_true hD, and_comm]
  · rw [if_neg hD]
    by_cases hE : erb <:+ f.name
    · rw [if_pos hE]
      cases h <;> simp [hselD, hselI, hselF, hselP, hE, hEP hE, hEI hE, hD, and_assoc]
    · have hS : ¬ dirErb <:+ f.name := fun hS => hE (hdir hS)
      rw [if_neg hE]
      by_cases hP : plain <:+ f.name
      · rw [if_pos hP]
        cases h <;> simp [hselD, hselI, hselF, hselP, hE, hP, hPI hP, hS, hD]
      · have hI : iter <:+ f.name := (hf.resolve_left hE).resolve_left hP
        rw [if_neg hP]
        cases h <;> simp [hselD, hselI, hselF, hselP, hE, hP, hI, hS, hD]

/-! ## The order of a pass -/

/-- Splitting the path below the template directory gives the components. -/
theorem splitOn_components {c : Text} {cs : List Text} (hcs : ∀ d ∈ c :: cs, '/' ∉ d) :
    (c ++ cs.flatMap fun d => '/' :: d).splitOn '/' = c :: cs := by
  induction cs generalizing c with
  | nil =>
    rw [List.flatMap_nil, List.append_nil]
    exact List.splitOn_eq_singleton (hcs c List.mem_cons_self)
  | cons d cs ih =>
    rw [List.flatMap_cons, List.cons_append,
      List.splitOn_append_cons_self_of_not_mem (hcs c List.mem_cons_self),
      ih fun e he => hcs e (List.mem_cons_of_mem c he)]

/-- The components have no slash. -/
theorem TreeEntry.not_mem_components {e : TreeEntry} {c : Text} (hc : c ∈ e.components) : '/' ∉ c := by
  rcases List.mem_append.mp hc with hc | hc
  · exact (e.dirs_ok c hc).2
  · obtain rfl := List.mem_singleton.mp hc
    exact e.name_ok.2

/-- Two entries with one path are the same. -/
theorem TemplateDir.eq_of_path {tree : TemplateDir} {e f : TreeEntry} (he : e ∈ tree.entries)
    (hf : f ∈ tree.entries) (h : e.path tree.tDir = f.path tree.tDir) : e = f := by
  have hbelow := List.append_cancel_left h
  have hsplit : ∀ g : TreeEntry, ('.' :: '.' :: g.components.flatMap fun c => '/' :: c).splitOn '/' =
      ['.', '.'] :: g.components := by
    intro g
    refine splitOn_components (c := ['.', '.']) fun d hd => ?_
    rcases List.mem_cons.mp hd with rfl | hd
    · decide
    · exact g.not_mem_components hd
  have hcomponents : e.components = f.components := by
    have hboth := (hsplit e).symm.trans ((congrArg (fun s => ('.' :: '.' :: s).splitOn '/') hbelow).trans (hsplit f))
    exact List.tail_eq_of_cons_eq hboth
  exact List.inj_on_of_nodup_map tree.nodup he hf hcomponents

/-- A pass takes its entries in the order of their paths. -/
theorem TemplateDir.pairwise_taken (tree : TemplateDir) (h : Handler) :
    (tree.taken h).Pairwise fun e f => sortsBefore (e.path tree.tDir) (f.path tree.tDir) = true := by
  have hsorted : ∀ extension, (tree.iterateOverTree extension).Pairwise fun e f =>
      sortsBefore (e.path tree.tDir) (f.path tree.tDir) = true := by
    intro extension
    refine List.pairwise_mergeSort (fun e f g hef hfg => ?_) (fun e f => ?_) _
    · exact decide_eq_true ((of_decide_eq_true hef).trans (of_decide_eq_true hfg))
    · rw [Bool.or_eq_true, sortsBefore, sortsBefore, decide_eq_true_eq, decide_eq_true_eq]
      exact le_total _ _
  cases h with
  | processTemplateFile => exact (hsorted ".erb".toList).filter _
  | _ => exact hsorted _

/-- A pass takes no entry twice. -/
theorem TemplateDir.nodup_taken (tree : TemplateDir) (h : Handler) : (tree.taken h).Nodup := by
  rw [List.nodup_iff_count_le_one]
  intro f
  by_cases hf : f ∈ tree.taken h
  · rw [count_taken (mem_taken_iff.mp hf).1]
    split <;> omega
  · rw [List.count_eq_zero_of_not_mem hf]
    omega

/-- What a pass takes before an entry sorts before it. -/
theorem TemplateDir.mem_before_iff {tree : TemplateDir} {h : Handler} {e f : TreeEntry}
    {front back : List TreeEntry} (htaken : tree.taken h = front ++ f :: back) :
    e ∈ front ↔ e ∈ tree.taken h ∧ e ≠ f ∧ sortsBefore (e.path tree.tDir) (f.path tree.tDir) = true := by
  have hnodup := tree.nodup_taken h
  have hsorted := tree.pairwise_taken h
  rw [htaken, List.nodup_append] at hnodup
  rw [htaken, List.pairwise_append] at hsorted
  constructor
  · intro he
    refine ⟨by rw [htaken]; exact List.mem_append_left _ he, ?_, hsorted.2.2 e he f List.mem_cons_self⟩
    exact hnodup.2.2 e he f List.mem_cons_self
  · rintro ⟨he, hne, hle⟩
    rw [htaken] at he
    rcases List.mem_append.mp he with he | he
    · exact he
    · -- behind the entry its path would be the same
      have hback : e ∈ back := (List.mem_cons.mp he).resolve_left hne
      have hge := (List.pairwise_cons.mp hsorted.2.1).1 e hback
      have hpath := le_antisymm (of_decide_eq_true hle) (of_decide_eq_true hge)
      have hmem : ∀ g ∈ f :: back, g ∈ tree.entries := fun g hg =>
        (mem_taken_iff.mp (by rw [htaken]; exact List.mem_append_right _ hg)).1
      exact absurd (tree.eq_of_path (hmem e he) (hmem f List.mem_cons_self) hpath) hne

/-! ## The calls of a pass -/

variable {bad : TreeEntry → Bool} {parallel : Bool} {found made : List TreeEntry} {f : TreeEntry}

/-- An entry is handed out if nothing that raises stands before it. -/
theorem Made.mem (h : Made bad parallel found made) {front back : List TreeEntry}
    (hfound : found = front ++ f :: back) (hfront : ∀ e ∈ front, bad e = false) : f ∈ made := by
  cases hany : found.any bad with
  | false =>
    rw [h.all hany, hfound]
    simp
  | true =>
    by_contra hf
    -- then only entries before it would have been handed out, and one of them raised
    have hfirst : made <+: front := by
      rcases List.prefix_or_prefix_of_prefix h.order (hfound ▸ List.prefix_append front (f :: back)) with
        hle | ⟨rest, rfl⟩
      · exact hle
      · have hrest : rest <+: f :: back := by
          rw [← List.prefix_append_right_inj front, ← hfound]
          exact h.order
        cases rest with
        | nil => simp
        | cons g rest =>
          obtain ⟨rfl, -⟩ := List.cons_prefix_cons.mp hrest
          exact absurd (by simp) hf
    obtain ⟨e, he, hbad⟩ := List.any_eq_true.mp (h.first hany)
    rw [hfront e (hfirst.subset he)] at hbad
    cases hbad

/-- The entries up to the first that raises. -/
def upToFirst (bad : TreeEntry → Bool) : List TreeEntry → List TreeEntry
  | [] => []
  | e :: found => if bad e then [e] else e :: upToFirst bad found

/-- Nothing raises: all entries. -/
theorem upToFirst_of_any_eq_false (h : found.any bad = false) : upToFirst bad found = found := by
  induction found with
  | nil => rfl
  | cons e found ih =>
    rw [List.any_cons, Bool.or_eq_false_iff] at h
    rw [upToFirst, h.1, if_neg (by simp), ih h.2]

/-- Something raises: it is among them, and it is the last of them. -/
theorem any_upToFirst (h : found.any bad = true) :
    (upToFirst bad found).any bad = true ∧ (upToFirst bad found).dropLast.any bad = false := by
  induction found with
  | nil => cases h
  | cons e found ih =>
    cases hbad : bad e with
    | true => simp [upToFirst, hbad]
    | false =>
      rw [List.any_cons, hbad, Bool.false_or] at h
      obtain ⟨hany, hlast⟩ := ih h
      have hne : upToFirst bad found ≠ [] := by
        intro hnil
        rw [hnil] at hany
        cases hany
      rw [upToFirst, hbad, if_neg (by simp), List.dropLast_cons_of_ne_nil hne]
      simp [hbad, hany, hlast]

/-- They are the first entries. -/
theorem upToFirst_prefix (bad : TreeEntry → Bool) (found : List TreeEntry) : upToFirst bad found <+: found := by
  induction found with
  | nil => exact List.prefix_rfl
  | cons e found ih =>
    rw [upToFirst]
    split
    · exact ⟨found, rfl⟩
    · exact List.cons_prefix_cons.mpr ⟨rfl, ih⟩

/-- **A pass can stop at the first call that raises.** -/
theorem made_upToFirst (bad : TreeEntry → Bool) (parallel : Bool) (found : List TreeEntry) :
    Made bad parallel found (upToFirst bad found) where
  order := upToFirst_prefix bad found
  all h := upToFirst_of_any_eq_false h
  first h := (any_upToFirst h).1
  alone _ := by
    cases h : found.any bad with
    | true => exact (any_upToFirst h).2
    | false =>
      rw [upToFirst_of_any_eq_false h, List.any_eq_false]
      rw [List.any_eq_false] at h
      exact fun e he => h e (List.mem_of_mem_dropLast he)

/-- Before an entry that is reached then, nothing raises. -/
theorem good_before_of_mem_upToFirst {front back : List TreeEntry} (hfront : f ∉ front)
    (h : f ∈ upToFirst bad (front ++ f :: back)) : ∀ e ∈ front, bad e = false := by
  induction front with
  | nil => simp
  | cons g front ih =>
    rw [List.mem_cons, not_or] at hfront
    rw [List.cons_append, upToFirst] at h
    cases hbad : bad g with
    | true =>
      rw [hbad, if_pos rfl, List.mem_singleton] at h
      exact absurd h hfront.1
    | false =>
      rw [hbad, if_neg (by simp), List.mem_cons] at h
      have hrest := ih hfront.2 (h.resolve_left hfront.1)
      intro e he
      rcases List.mem_cons.mp he with rfl | he
      · exact hbad
      · exact hrest e he

/-! ## The calls of all passes -/

variable {tree : TemplateDir} {raises : Handler → TreeEntry → Bool} {hs : List Handler} {h : Handler}
  {calls : List (Handler × TreeEntry)}

/-- A call is made by a pass, for an entry that it takes. -/
theorem PassCalls.mem (hcalls : PassCalls tree raises hs calls) (hmem : (h, f) ∈ calls) :
    h ∈ hs ∧ f ∈ tree.taken h := by
  have hpass : ∀ {g : Handler} {made : List TreeEntry}, made <+: tree.taken g → (h, f) ∈ made.map (g, ·) →
      h = g ∧ f ∈ tree.taken h := by
    intro g made hfirst hin
    obtain ⟨e, he, heq⟩ := List.mem_map.mp hin
    obtain ⟨rfl, rfl⟩ := Prod.mk.inj heq
    exact ⟨rfl, hfirst.subset he⟩
  induction hcalls with
  | done => cases hmem
  | pass hmade _ _ ih =>
    rcases List.mem_append.mp hmem with hin | hin
    · obtain ⟨rfl, hf⟩ := hpass hmade.order hin
      exact ⟨List.mem_cons_self, hf⟩
    · exact ⟨List.mem_cons_of_mem _ (ih hin).1, (ih hin).2⟩
  | broken hmade _ =>
    obtain ⟨rfl, hf⟩ := hpass hmade.order hmem
    exact ⟨List.mem_cons_self, hf⟩

/-- The calls for an entry that no pass takes, or only passes that are not made. -/
theorem PassCalls.filter_eq_nil (hcalls : PassCalls tree raises hs calls) (hf : ∀ h ∈ hs, f ∉ tree.taken h) :
    calls.filter (fun call => decide (call.2 = f)) = [] := by
  refine List.filter_eq_nil_iff.mpr fun call hcall heq => ?_
  obtain rfl := of_decide_eq_true heq
  exact hf _ (hcalls.mem hcall).1 (hcalls.mem hcall).2

/-- **An undisturbed entry is handled once**, by the only pass that takes it. -/
theorem PassCalls.filter_eq_singleton {before after : List Handler} {front back : List TreeEntry}
    (hcalls : PassCalls tree raises (before ++ h :: after) calls)
    (hothers : ∀ g ∈ before ++ after, f ∉ tree.taken g)
    (hbefore : ∀ g ∈ before, (tree.taken g).any (fails raises g) = false)
    (htaken : tree.taken h = front ++ f :: back) (hfront : ∀ e ∈ front, fails raises h e = false) :
    calls.filter (fun call => decide (call.2 = f)) = [(h, f)] := by
  induction before generalizing calls with
  | nil =>
    have hcount : ∀ made, Made (fails raises h) h.parallel (tree.taken h) made →
        (made.map (h, ·)).filter (fun call => decide (call.2 = f)) = [(h, f)] := by
      intro made hmade
      rw [filter_map_handler, List.count_eq_one_of_mem ((tree.nodup_taken h).sublist hmade.order.sublist)
        (hmade.mem htaken hfront)]
      rfl
    cases hcalls with
    | pass hmade _ hrest =>
      rw [List.filter_append, hcount _ hmade, hrest.filter_eq_nil hothers, List.append_nil]
    | broken hmade _ => exact hcount _ hmade
  | cons g before ih =>
    have hnone : f ∉ tree.taken g := hothers g List.mem_cons_self
    cases hcalls with
    | pass hmade _ hrest =>
      rw [List.filter_append, hmade.all (hbefore g List.mem_cons_self), filter_map_handler,
        List.count_eq_zero_of_not_mem hnone, List.replicate_zero, List.nil_append]
      exact ih hrest (fun g hg => hothers g (List.mem_cons_of_mem _ hg))
        fun g hg => hbefore g (List.mem_cons_of_mem _ hg)
    | broken hmade hbad =>
      rw [hmade.all (hbefore g List.mem_cons_self), hbefore g List.mem_cons_self] at hbad
      cases hbad

/-- The calls when every pass stops at the first that raises. -/
def leastCalls (tree : TemplateDir) (raises : Handler → TreeEntry → Bool) :
    List Handler → List (Handler × TreeEntry)
  | [] => []
  | h :: hs => (upToFirst (fails raises h) (tree.taken h)).map (h, ·) ++
      if (tree.taken h).any (fails raises h) then [] else leastCalls tree raises hs

/-- These can be all calls. -/
theorem calls_leastCalls (tree : TemplateDir) (raises : Handler → TreeEntry → Bool) (hs : List Handler) :
    PassCalls tree raises hs (leastCalls tree raises hs) := by
  induction hs with
  | nil => exact .done
  | cons h hs ih =>
    have hmade := made_upToFirst (fails raises h) h.parallel (tree.taken h)
    rw [leastCalls]
    cases hany : (tree.taken h).any (fails raises h) with
    | true =>
      rw [if_pos rfl, List.append_nil]
      exact .broken hmade (hmade.first hany)
    | false =>
      rw [if_neg (by simp)]
      exact .pass hmade (by rw [hmade.all hany, hany]) ih

/-- Before a call that is made even then, nothing raises. -/
theorem good_of_mem_leastCalls {before after : List Handler} (hbefore : h ∉ before) (hafter : h ∉ after)
    (hmem : (h, f) ∈ leastCalls tree raises (before ++ h :: after)) :
    (∀ g ∈ before, (tree.taken g).any (fails raises g) = false) ∧
      f ∈ upToFirst (fails raises h) (tree.taken h) := by
  have hin : ∀ {g : Handler} {made : List TreeEntry}, (h, f) ∈ made.map (g, ·) → h = g ∧ f ∈ made := by
    intro g made hmap
    obtain ⟨e, he, heq⟩ := List.mem_map.mp hmap
    obtain ⟨rfl, rfl⟩ := Prod.mk.inj heq
    exact ⟨rfl, he⟩
  induction before with
  | nil =>
    refine ⟨by simp, ?_⟩
    rw [List.nil_append, leastCalls] at hmem
    rcases List.mem_append.mp hmem with hmap | hrest
    · exact (hin hmap).2
    · split at hrest
      · cases hrest
      · exact absurd ((calls_leastCalls tree raises after).mem hrest).1 hafter
  | cons g before ih =>
    rw [List.mem_cons, not_or] at hbefore
    rw [List.cons_append, leastCalls] at hmem
    rcases List.mem_append.mp hmem with hmap | hrest
    · exact absurd (hin hmap).1 hbefore.1
    · cases hany : (tree.taken g).any (fails raises g) with
      | true =>
        rw [hany, if_pos rfl] at hrest
        cases hrest
      | false =>
        rw [hany, if_neg (by simp)] at hrest
        obtain ⟨hgood, hf⟩ := ih hbefore.2 hrest
        refine ⟨fun g' hg' => ?_, hf⟩
        rcases List.mem_cons.mp hg' with rfl | hg'
        · exact hany
        · exact hgood g' hg'

/-- The passes, around one of them. -/
theorem passOrder_eq (h : Handler) :
    ∃ later, passOrder = h.earlier ++ h :: later ∧ h ∉ h.earlier ∧ h ∉ later := by
  cases h with
  | processTemplateDir =>
    exact ⟨[.processTemplateIterate, .processTemplateFile, .processTemplatePlain], by decide⟩
  | processTemplateIterate => exact ⟨[.processTemplateFile, .processTemplatePlain], by decide⟩
  | processTemplateFile => exact ⟨[.processTemplatePlain], by decide⟩
  | processTemplatePlain => exact ⟨[], by decide⟩

/-- What nothing of a pass raises says of the entries that it selects. -/
theorem any_fails_eq_false_iff : (tree.taken h).any (fails raises h) = false ↔
    ∀ e ∈ tree.entries, Selects e h → fails raises h e = false := by
  simp only [List.any_eq_false, Bool.not_eq_true, TemplateDir.mem_taken_iff, and_imp]

/-- A tree of three templates, none of which is reached: one in a hidden directory, the description of
the directory at the top, and a template whose name merely ends like a description. -/
def skippedTree : TemplateDir where
  tDir := "/templates".toList
  entries := [⟨[], ".ssh".toList, true, by decide, by decide⟩,
    ⟨[".ssh".toList], "config.erb".toList, false, by decide, by decide⟩,
    ⟨[], "_dir.erb".toList, false, by decide, by decide⟩,
    ⟨[], "opt".toList, true, by decide, by decide⟩,
    ⟨["opt".toList], "conf_dir.erb".toList, false, by decide, by decide⟩]
  nodup := by decide
  closed := by decide

/-- The directory `opt/app.erb`, which the pass for `.erb` files takes. -/
def appDirectory : TreeEntry := ⟨["opt".toList], "app.erb".toList, true, by decide, by decide⟩

/-- The plain file in that directory. -/
def plainBelow : TreeEntry :=
  ⟨["opt".toList, "app.erb".toList], "x.plain".toList, false, by decide, by decide⟩

/-- A tree with one template, which is reached; but it is in a directory that looks like one. -/
def disturbedTree : TemplateDir where
  tDir := "/templates".toList
  entries := [⟨[], "opt".toList, true, by decide, by decide⟩, appDirectory, plainBelow]
  nodup := by decide
  closed := by decide

/-- What the passes over the second tree take. -/
theorem taken_disturbedTree (h : Handler) : disturbedTree.taken h = match h with
    | .processTemplateFile => [appDirectory]
    | .processTemplatePlain => [plainBelow]
    | _ => [] := by
  have hfound : ∀ {extension : Text} {found : List TreeEntry},
      disturbedTree.entries.filter (fun e => globMatch (globPattern extension) e.components) = found →
      found.length ≤ 1 → disturbedTree.iterateOverTree extension = found :=
    fun h hlength => TemplateDir.iterateOverTree_of_filter h hlength
  cases h with
  | processTemplateDir => exact hfound (by decide +kernel) (by decide)
  | processTemplateIterate => exact hfound (by decide +kernel) (by decide)
  | processTemplateFile =>
    have hdirectory : disturbedTree.iterateOverTree ".erb".toList = [appDirectory] :=
      hfound (by decide +kernel) (by decide)
    rw [TemplateDir.taken, hdirectory]
    decide +kernel
  | processTemplatePlain => exact hfound (by decide +kernel) (by decide)

end GexCloud
