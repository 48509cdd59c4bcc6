import GexCloud.Base.DockerUtils
import GexCloud.Support.Pool
import Mathlib.Data.List.FinRange

/-! # `process_template_tree`: rendering templates in parallel

The `.erb` files of a template tree are rendered by worker processes, which `Parallel.each` runs side
by side: each renders its template, writes the result under the temporary name of the destination
and copies that file into the container. The `.plain` files are copied by a second such pass. The
temporary name replaces every slash by an underscore, so two destinations can share one.

* **`ErbProcessor.erbWorker`**, **`ErbProcessor.plainWorker`** — the steps of one worker.
* **`ErbProcessor.ProcessTemplateTree`** — the two passes, for any interleaving of the workers.
* **`ErbProcessor.interferenceFree_iff`** — over distinct destinations, every completed run leaves
  each destination with the rendering of its own template exactly when the tree cannot be installed
  at all or is `ErbProcessor.Clear`.

The scripts `configure.rb` and `first_run.rb` of a tree, which edit the installed files on purpose,
run after these passes. -/

namespace GexCloud

open Texts Runs

/-- A file of a template tree. -/
structure Template where
  path : Text
  contents : Text
  deriving DecidableEq

/-- A template tree: its directory and the files below it, in the order of `Dir.glob(…).sort`. -/
structure TemplateTree where
  tDir : Text
  entries : List Template

/-- A file to install: its destination in the container and the content it is to have. -/
structure Job where
  dest : Text
  content : Text
  deriving DecidableEq

/-- An `ERBProcessor` at work for a container, known by what it calls outside the scripts. -/
structure ErbProcessor where
  /-- `$container`. -/
  container : Text
  /-- `ERB.new(template, nil, '-').result(binding)`; `none` when it raises. -/
  result : Text → Option Text
  /-- Whether `set_permissions` succeeds for the file of the tree and its destination. -/
  permit : Text → Text → Bool

/-- `s.chomp(suffix)`. -/
def chomp (suffix s : Text) : Text := if suffix <:+ s then s.take (s.length - suffix.length) else s

/-- Chomping an ending that is there. -/
theorem chomp_append (s suffix : Text) : chomp suffix (s ++ suffix) = s := by
  rw [chomp, if_pos (List.suffix_append s suffix), List.length_append, Nat.add_sub_cancel, List.take_left]

/-- What `s.slice!(part)` leaves of `s`: everything but the first occurrence of `part`. -/
def sliceFirst (part : Text) : Text → Text
  | [] => []
  | c :: s => if part <+: c :: s then (c :: s).drop part.length else c :: sliceFirst part s

/-- The entries of the ERB pass: `iterate_over_tree(t_dir, '.erb', true)` without the descriptions of
directories. -/
def TemplateTree.erbFiles (tree : TemplateTree) : List Template :=
  tree.entries.filter fun t => decide (".erb".toList <:+ t.path) &&
    !decide ("_dir.erb".toList <:+ t.path)

/-- The entries of the plain pass: `iterate_over_tree(t_dir, '.plain', true)`. -/
def TemplateTree.plainFiles (tree : TemplateTree) : List Template :=
  tree.entries.filter fun t => decide (".plain".toList <:+ t.path)

/-- How far a worker has come. -/
inductive WorkerPhase
  | ready
  /-- The template is rendered. -/
  | rendered (job : Job)
  /-- The rendering is written under the temporary name of the destination. -/
  | written (dest : Text)
  | finished
  | failed
  deriving DecidableEq

namespace ErbProcessor

/-! ## The passes -/

/-- `erb_process_string`. -/
def erbProcessString (p : ErbProcessor) (template : Text) : Option Text :=
  if '<' ∈ template then p.result template else some template

/-- `get_destination_file_name`. -/
def getDestinationFileName (p : ErbProcessor) (file tDir : Text) : Option Text :=
  p.erbProcessString (sliceFirst tDir file)

/-- What `transform_erb_file_and_set_permissions` is to install for an `.erb` file; `none` when the
name or the template cannot be processed or the destination has no temporary name. -/
def transform (p : ErbProcessor) (tDir : Text) (t : Template) : Option Job := do
  let dest := chomp ".erb".toList (← p.getDestinationFileName t.path tDir)
  let _ ← (getTmpName p.container dest).toOption
  let final ← p.erbProcessString t.contents
  return ⟨dest, final⟩

/-- Where `copy_plain_file_and_set_permissions` installs a `.plain` file. -/
def plainDestination (p : ErbProcessor) (tDir : Text) (t : Template) : Option Text := do
  let dest ← p.getDestinationFileName t.path tDir
  return chomp ".plain".toList (chomp ".plain".toList dest)

/-- The worker of the ERB pass. The copy goes to `$container`: the argument `container` is handed to
`dcp` in the place of `checkreturn`. -/
def erbWorker (p : ErbProcessor) (tDir : Text) (t : Template) :
    WorkerPhase → World → Option (WorkerPhase × World)
  | .ready, w =>
    match p.transform tDir t with
    | none => some (.failed, w)
    | some job => some (.rendered job, w)
  | .rendered job, w =>
    some (.written job.dest,
      { w with host := Function.update w.host (tmpName p.container job.dest) (some job.content) })
  | .written dest, w =>
    match dcp p.container (tmpName p.container dest) dest w with
    | .error _ => some (.failed, w)
    | .ok w => some (if p.permit t.path dest then .finished else .failed, w)
  | .finished, _ => none
  | .failed, _ => none

/-- The worker of the plain pass: one copy out of the tree. -/
def plainWorker (p : ErbProcessor) (tDir : Text) (t : Template) :
    WorkerPhase → World → Option (WorkerPhase × World)
  | .ready, w =>
    match p.plainDestination tDir t with
    | none => some (.failed, w)
    | some dest =>
      if refused dest then some (.failed, w)
      else some (if p.permit t.path dest then .finished else .failed,
        { w with container := Function.update w.container dest (some t.contents) })
  | _, _ => none

/-- **`iterate_over_tree` with `parallel = true`**: one worker for each file, their steps in any
order, until all have finished. -/
def Pass (worker : Template → WorkerPhase → World → Option (WorkerPhase × World))
    (files : List Template) (w w' : World) : Prop :=
  ∃ schedule : List (Fin files.length),
    Run (Pool.Step fun i => worker (files.get i)) ⟨w, fun _ => .ready⟩ schedule
      ⟨w', fun _ => .finished⟩

/-- **`process_template_tree`**, its two parallel passes over the files. -/
def ProcessTemplateTree (p : ErbProcessor) (tree : TemplateTree) (w w' : World) : Prop :=
  ∃ mid, Pass (p.erbWorker tree.tDir) tree.erbFiles w mid ∧
    Pass (p.plainWorker tree.tDir) tree.plainFiles mid w'

/-- Every completed run leaves each destination with the rendering of its own template. -/
def InterferenceFree (p : ErbProcessor) (tree : TemplateTree) : Prop :=
  ∀ w w', p.ProcessTemplateTree tree w w' → ∀ t ∈ tree.erbFiles, ∀ job,
    p.transform tree.tDir t = some job → w'.container job.dest = some job.content

/-- The `.erb` files have pairwise distinct destinations. -/
def DistinctDestinations (p : ErbProcessor) (tree : TemplateTree) : Prop :=
  tree.erbFiles.Pairwise fun t t' => ∀ job job', p.transform tree.tDir t = some job →
    p.transform tree.tDir t' = some job' → job.dest ≠ job'.dest

/-! ## The condition -/

/-- An `.erb` file that a worker can install. -/
def ErbInstallable (p : ErbProcessor) (tDir : Text) (t : Template) : Prop :=
  ∃ job, p.transform tDir t = some job ∧ refused job.dest = false ∧ p.permit t.path job.dest = true

/-- A `.plain` file that a worker can install. -/
def PlainInstallable (p : ErbProcessor) (tDir : Text) (t : Template) : Prop :=
  ∃ dest, p.plainDestination tDir t = some dest ∧ refused dest = false ∧ p.permit t.path dest = true

/-- A tree that can be installed: no worker fails. -/
def Installable (p : ErbProcessor) (tree : TemplateTree) : Prop :=
  (∀ t ∈ tree.erbFiles, p.ErbInstallable tree.tDir t) ∧
    ∀ t ∈ tree.plainFiles, p.PlainInstallable tree.tDir t

/-- **No file in the way of another.** A `.plain` file that is installed over the rendering of an
`.erb` file has the same content; and where no `.plain` file is installed over it, all `.erb` files
whose destination has the same temporary name render to the same content. -/
def Clear (p : ErbProcessor) (tree : TemplateTree) : Prop :=
  ∀ t ∈ tree.erbFiles, ∀ job, p.transform tree.tDir t = some job →
    (∀ u ∈ tree.plainFiles, p.plainDestination tree.tDir u = some job.dest →
      u.contents = job.content) ∧
    ((∀ u ∈ tree.plainFiles, p.plainDestination tree.tDir u ≠ some job.dest) →
      ∀ t' ∈ tree.erbFiles, ∀ job', p.transform tree.tDir t' = some job' →
        mangle job'.dest = mangle job.dest → job'.content = job.content)

/-! ## The steps of a worker -/

variable {p : ErbProcessor} {tDir : Text} {files : List Template} {t : Template}
  {ph ph' : WorkerPhase} {w w' : World}

/-- `dcp` succeeds on an accepted destination and copies the content of its source. -/
theorem dcp_eq_ok_iff {container src dst : Text} :
    dcp container src dst w = .ok w' ↔ refused dst = false ∧ ∃ content, w.host src = some content ∧
      w' = { w with container := Function.update w.container dst (some content) } := by
  cases hrefused : refused dst <;> cases hsrc : w.host src <;>
    simp [dcp, assert, hrefused, hsrc, bind, Except.bind, eq_comm]

/-- What a step of a worker of the ERB pass can be. -/
inductive ErbStep (p : ErbProcessor) (tDir : Text) (t : Template) :
    WorkerPhase → World → WorkerPhase → World → Prop
  | raise (w : World) (h : p.transform tDir t = none) : ErbStep p tDir t .ready w .failed w
  | render (w : World) (job : Job) (h : p.transform tDir t = some job) :
      ErbStep p tDir t .ready w (.rendered job) w
  | write (w : World) (job : Job) :
      ErbStep p tDir t (.rendered job) w (.written job.dest)
        { w with host := Function.update w.host (tmpName p.container job.dest) (some job.content) }
  | refuse (w : World) (dest : Text) : ErbStep p tDir t (.written dest) w .failed w
  | copy (w : World) (dest content : Text) (hrefused : refused dest = false)
      (hhost : w.host (tmpName p.container dest) = some content) :
      ErbStep p tDir t (.written dest) w (if p.permit t.path dest then .finished else .failed)
        { w with container := Function.update w.container dest (some content) }

/-- A worker of the ERB pass takes no other steps. -/
theorem erbWorker_step (h : p.erbWorker tDir t ph w = some (ph', w')) :
    p.ErbStep tDir t ph w ph' w' := by
  cases ph with
  | ready =>
    cases hjob : p.transform tDir t with
    | none =>
      simp only [erbWorker, hjob, Option.some.injEq, Prod.mk.injEq] at h
      obtain ⟨rfl, rfl⟩ := h
      exact .raise w hjob
    | some job =>
      simp only [erbWorker, hjob, Option.some.injEq, Prod.mk.injEq] at h
      obtain ⟨rfl, rfl⟩ := h
      exact .render w job hjob
  | rendered job =>
    simp only [erbWorker, Option.some.injEq, Prod.mk.injEq] at h
    obtain ⟨rfl, rfl⟩ := h
    exact .write w job
  | written dest =>
    cases hdcp : dcp p.container (tmpName p.container dest) dest w with
    | error e =>
      simp only [erbWorker, hdcp, Option.some.injEq, Prod.mk.injEq] at h
      obtain ⟨rfl, rfl⟩ := h
      exact .refuse w dest
    | ok v =>
      obtain ⟨hrefused, content, hhost, rfl⟩ := dcp_eq_ok_iff.1 hdcp
      simp only [erbWorker, hdcp, Option.some.injEq, Prod.mk.injEq] at h
      obtain ⟨rfl, rfl⟩ := h
      exact .copy w dest content hrefused hhost
  | finished => simp [erbWorker] at h
  | failed => simp [erbWorker] at h

/-- A worker of the plain pass fails or copies its file. -/
theorem plainWorker_step (h : p.plainWorker tDir t ph w = some (ph', w')) :
    (ph' = .failed ∧ w' = w) ∨ ∃ dest, p.plainDestination tDir t = some dest ∧
      refused dest = false ∧ (ph' = .finished → p.permit t.path dest = true) ∧
      w' = { w with container := Function.update w.container dest (some t.contents) } := by
  cases ph with
  | ready =>
    cases hdest : p.plainDestination tDir t with
    | none =>
      simp only [plainWorker, hdest, Option.some.injEq, Prod.mk.injEq] at h
      exact .inl ⟨h.1.symm, h.2.symm⟩
    | some dest =>
      simp only [plainWorker, hdest] at h
      split at h
      · simp only [Option.some.injEq, Prod.mk.injEq] at h
        exact .inl ⟨h.1.symm, h.2.symm⟩
      · rename_i hrefused
        simp only [Option.some.injEq, Prod.mk.injEq] at h
        refine .inr ⟨dest, rfl, by simpa using hrefused, fun hph => ?_, h.2.symm⟩
        rw [hph] at h
        by_contra hpermit
        simp [hpermit] at h
  | rendered job => simp [plainWorker] at h
  | written dest => simp [plainWorker] at h
  | finished => simp [plainWorker] at h
  | failed => simp [plainWorker] at h

/-! ## What a completed pass says -/

/-- A phase that a worker can have come to: what it holds is what its template gives. -/
def Progress (p : ErbProcessor) (tDir : Text) (t : Template) : WorkerPhase → Prop
  | .ready => True
  | .rendered job => p.transform tDir t = some job
  | .written dest => ∃ content, p.transform tDir t = some ⟨dest, content⟩
  | .finished => p.ErbInstallable tDir t
  | .failed => True

/-- A worker of the ERB pass makes progress. -/
theorem ErbStep.progress (hstep : p.ErbStep tDir t ph w ph' w') (h : p.Progress tDir t ph) :
    p.Progress tDir t ph' := by
  cases hstep with
  | raise => trivial
  | render _ job hjob => exact hjob
  | write _ job => exact ⟨job.content, h⟩
  | refuse => trivial
  | copy _ dest content hrefused hhost =>
    obtain ⟨final, hjob⟩ := h
    split
    · exact ⟨_, hjob, hrefused, ‹_›⟩
    · trivial

/-- In every run of the ERB pass every worker is in a phase it can have come to. -/
theorem progress_run {q : Pool (Fin files.length) WorkerPhase World}
    {schedule : List (Fin files.length)}
    (hrun : Run (Pool.Step fun i => p.erbWorker tDir (files.get i)) ⟨w, fun _ => .ready⟩ schedule q)
    (i : Fin files.length) : p.Progress tDir (files.get i) (q.phase i) := by
  refine hrun.invariant (fun q => ∀ i, p.Progress tDir (files.get i) (q.phase i)) ?_
    (by intro _; trivial) i
  intro q i q' hq hstep j
  by_cases hj : j = i
  · subst hj
    exact (erbWorker_step hstep.1).progress (hq j)
  · rw [hstep.phase_ne hj]
    exact hq j

/-- A completed ERB pass has installed every file. -/
theorem Pass.erbInstallable (h : Pass (p.erbWorker tDir) files w w') :
    ∀ t ∈ files, p.ErbInstallable tDir t := by
  obtain ⟨schedule, hrun⟩ := h
  intro t ht
  obtain ⟨i, rfl⟩ := List.get_of_mem ht
  exact progress_run hrun i

/-- A completed plain pass has installed every file. -/
theorem Pass.plainInstallable (h : Pass (p.plainWorker tDir) files w w') :
    ∀ t ∈ files, p.PlainInstallable tDir t := by
  obtain ⟨schedule, hrun⟩ := h
  have hall := hrun.invariant
    (fun q => ∀ i, q.phase i = .finished → p.PlainInstallable tDir (files.get i)) ?_ (by simp)
  · intro t ht
    obtain ⟨i, rfl⟩ := List.get_of_mem ht
    exact hall i rfl
  intro q i q' hq hstep j hj
  by_cases hji : j = i
  · subst hji
    obtain ⟨hfailed, -⟩ | ⟨dest, hdest, hrefused, hpermit, -⟩ := plainWorker_step hstep.1
    · rw [hfailed] at hj
      cases hj
    · exact ⟨dest, hdest, hrefused, hpermit hj⟩
  · rw [hstep.phase_ne hji] at hj
    exact hq j hj

/-! ## Trees without clashes -/

/-- Temporary names coincide where the destinations do, up to slashes and underscores. -/
theorem tmpName_inj {container filename filename' : Text} :
    tmpName container filename = tmpName container filename' ↔ mangle filename = mangle filename' := by
  unfold tmpName
  exact List.append_right_inj _

/-- **One step towards `job`.** A worker whose template renders to the content of `job` whenever it
shares the temporary name keeps that content where it is, and brings it along where it installs. -/
theorem ErbStep.keeps {job : Job} (hstep : p.ErbStep tDir t ph w ph' w')
    (hprogress : p.Progress tDir t ph)
    (hclear : ∀ job', p.transform tDir t = some job' → mangle job'.dest = mangle job.dest →
      job'.content = job.content)
    (hwritten : ph = .written job.dest →
      w.host (tmpName p.container job.dest) = some job.content) :
    ((w.host (tmpName p.container job.dest) = some job.content ∨ ph' = .written job.dest) →
      w'.host (tmpName p.container job.dest) = some job.content) ∧
    ((w.container job.dest = some job.content ∨
        (ph' = .finished ∧ ∃ content, p.transform tDir t = some ⟨job.dest, content⟩)) →
      w'.container job.dest = some job.content) := by
  cases hstep with
  | raise => simp
  | render => simp
  | refuse => simp
  | write _ job' =>
    refine ⟨fun h => ?_, by simp⟩
    by_cases htmp : tmpName p.container job.dest = tmpName p.container job'.dest
    · show Function.update w.host _ _ _ = _
      rw [htmp, Function.update_self, hclear job' hprogress (tmpName_inj.1 htmp.symm)]
    · obtain h | h := h
      · show Function.update w.host _ _ _ = _
        rw [Function.update_of_ne htmp, h]
      · have hdest : job'.dest = job.dest := by simpa using h
        exact absurd (by rw [hdest]) htmp
  | copy _ dest content hrefused hhost =>
    refine ⟨?_, fun h => ?_⟩
    · rintro (h | h)
      · exact h
      · split at h <;> simp at h
    show Function.update w.container _ _ _ = _
    by_cases hdest : job.dest = dest
    · subst hdest
      rw [Function.update_self, ← hhost, hwritten rfl]
    · rw [Function.update_of_ne hdest]
      obtain h | ⟨-, content', h⟩ := h
      · exact h
      · obtain ⟨final, hfinal⟩ := hprogress
        rw [hfinal] at h
        exact absurd (congrArg Job.dest (Option.some.inj h)).symm hdest

/-- **No clash, no interference.** If all files whose destination has the temporary name of `job`
render to its content, the ERB pass leaves that content there. -/
theorem Pass.holds {job : Job} (h : Pass (p.erbWorker tDir) files w w')
    (hclear : ∀ t ∈ files, ∀ job', p.transform tDir t = some job' →
      mangle job'.dest = mangle job.dest → job'.content = job.content)
    (ht : t ∈ files) (hjob : p.transform tDir t = some job) :
    w'.container job.dest = some job.content := by
  obtain ⟨schedule, hrun⟩ := h
  obtain ⟨i, rfl⟩ := List.get_of_mem ht
  let Holds (q : Pool (Fin files.length) WorkerPhase World) : Prop :=
    (∀ i, p.Progress tDir (files.get i) (q.phase i)) ∧
    (∀ i, q.phase i = .written job.dest →
      q.shared.host (tmpName p.container job.dest) = some job.content) ∧
    ∀ i, (q.phase i = .finished ∧ ∃ content, p.transform tDir (files.get i) =
      some ⟨job.dest, content⟩) → q.shared.container job.dest = some job.content
  have hholds : Holds ⟨w', fun _ => .finished⟩ := by
    refine hrun.invariant Holds ?_ ⟨by intro _; trivial, by simp, by simp⟩
    rintro q i q' ⟨hprogress, hwritten, hfinished⟩ hstep
    have hi := erbWorker_step hstep.1
    obtain ⟨hhost, hcontainer⟩ := hi.keeps (hprogress i)
      (hclear _ (List.get_mem files i)) (hwritten i)
    refine ⟨fun j => ?_, fun j hj => ?_, fun j hj => ?_⟩
    · by_cases hji : j = i
      · subst hji
        exact hi.progress (hprogress j)
      · rw [hstep.phase_ne hji]
        exact hprogress j
    · by_cases hji : j = i
      · subst hji
        exact hhost (.inr hj)
      · rw [hstep.phase_ne hji] at hj
        exact hhost (.inl (hwritten j hj))
    · by_cases hji : j = i
      · subst hji
        exact hcontainer (.inr hj)
      · rw [hstep.phase_ne hji] at hj
        exact hcontainer (.inl (hfinished j hj))
  exact hholds.2.2 i ⟨rfl, job.content, hjob⟩

/-- A plain pass leaves a file to which it installs nothing. -/
theorem Pass.untouched {dest : Text} (h : Pass (p.plainWorker tDir) files w w')
    (hdest : ∀ t ∈ files, p.plainDestination tDir t ≠ some dest) :
    w'.container dest = w.container dest := by
  obtain ⟨schedule, hrun⟩ := h
  refine hrun.invariant (fun q => q.shared.container dest = w.container dest) ?_ rfl
  intro q i q' hq hstep
  obtain ⟨-, hw⟩ | ⟨dest', hdest', -, -, hw⟩ := plainWorker_step hstep.1
  · rw [hw, hq]
  · have hne : dest ≠ dest' := by
      rintro rfl
      exact hdest _ (List.get_mem files i) hdest'
    rw [hw]
    show Function.update q.shared.container dest' _ dest = _
    rw [Function.update_of_ne hne, hq]

/-- A plain pass whose files for a destination all have one content leaves that content there. -/
theorem Pass.overlaid {dest content : Text} (h : Pass (p.plainWorker tDir) files w w')
    (hcontent : ∀ t ∈ files, p.plainDestination tDir t = some dest → t.contents = content)
    (ht : t ∈ files) (hdest : p.plainDestination tDir t = some dest) :
    w'.container dest = some content := by
  obtain ⟨schedule, hrun⟩ := h
  obtain ⟨i, rfl⟩ := List.get_of_mem ht
  have hall := hrun.invariant (fun q => ∀ i, q.phase i = .finished →
    p.plainDestination tDir (files.get i) = some dest → q.shared.container dest = some content) ?_
    (by simp)
  · exact hall i rfl hdest
  intro q i q' hq hstep j hj hjdest
  obtain ⟨hfailed, hw⟩ | ⟨dest', hdest', -, -, hw⟩ := plainWorker_step hstep.1
  · have hji : j ≠ i := by
      rintro rfl
      rw [hfailed] at hj
      cases hj
    rw [hstep.phase_ne hji] at hj
    rw [hw]
    exact hq j hj hjdest
  rw [hw]
  show Function.update q.shared.container dest' _ dest = _
  by_cases heq : dest = dest'
  · subst heq
    rw [Function.update_self, hcontent _ (List.get_mem files i) hdest']
  · rw [Function.update_of_ne heq]
    have hji : j ≠ i := by
      rintro rfl
      rw [hdest'] at hjdest
      exact heq (Option.some.inj hjdest).symm
    rw [hstep.phase_ne hji] at hj
    exact hq j hj hjdest

/-- **Clear trees are installed without interference.** -/
theorem Clear.interferenceFree {tree : TemplateTree} (h : p.Clear tree) :
    p.InterferenceFree tree := by
  rintro w w' ⟨mid, herb, hplain⟩ t ht job hjob
  obtain ⟨hoverlaid, hclear⟩ := h t ht job hjob
  by_cases hover : ∃ u ∈ tree.plainFiles, p.plainDestination tree.tDir u = some job.dest
  · obtain ⟨u, hu, hdest⟩ := hover
    exact hplain.overlaid hoverlaid hu hdest
  · have hnone : ∀ u ∈ tree.plainFiles, p.plainDestination tree.tDir u ≠ some job.dest :=
      fun u hu hdest => hover ⟨u, hu, hdest⟩
    rw [hplain.untouched hnone]
    exact herb.holds (hclear hnone) ht hjob

/-! ## Trees with clashes -/

/-- A worker of the plain pass finishes alone. -/
theorem PlainInstallable.solo {i : Fin files.length} (h : p.PlainInstallable tDir (files.get i))
    (w : World) : ∃ dest, p.plainDestination tDir (files.get i) = some dest ∧
      Solo (fun i => p.plainWorker tDir (files.get i)) i (.ready, w) (.finished,
        { w with container := Function.update w.container dest (some (files.get i).contents) }) := by
  obtain ⟨dest, hdest, hrefused, hpermit⟩ := h
  refine ⟨dest, hdest, .single ?_⟩
  show p.plainWorker tDir (files.get i) .ready w = _
  simp only [plainWorker, hdest, hrefused, hpermit, if_true, Bool.false_eq_true, if_false]

/-- A worker of the ERB pass writes its rendering without the others. -/
theorem erb_stage {i : Fin files.length} {job : Job}
    (hjob : p.transform tDir (files.get i) = some job) (w : World) :
    Solo (fun i => p.erbWorker tDir (files.get i)) i (.ready, w) (.written job.dest,
      { w with host := Function.update w.host (tmpName p.container job.dest) (some job.content) }) := by
  have hrender : p.erbWorker tDir (files.get i) .ready w = some (.rendered job, w) := by
    simp only [erbWorker, hjob]
  exact .head hrender (.single rfl)

/-- A worker of the ERB pass copies what it finds under the temporary name. -/
theorem erb_copy {i : Fin files.length} {dest content : Text}
    (hrefused : refused dest = false) (hpermit : p.permit (files.get i).path dest = true)
    (hhost : w.host (tmpName p.container dest) = some content) :
    Solo (fun i => p.erbWorker tDir (files.get i)) i (.written dest, w) (.finished,
      { w with container := Function.update w.container dest (some content) }) := by
  have hdcp : dcp p.container (tmpName p.container dest) dest w = .ok
      { w with container := Function.update w.container dest (some content) } :=
    dcp_eq_ok_iff.2 ⟨hrefused, content, hhost, rfl⟩
  have hcopy : p.erbWorker tDir (files.get i) (.written dest) w = some (.finished,
      { w with container := Function.update w.container dest (some content) }) := by
    simp only [erbWorker, hdcp, hpermit, if_true]
  exact .single hcopy

/-- A worker of the ERB pass finishes alone. -/
theorem ErbInstallable.solo {i : Fin files.length} (h : p.ErbInstallable tDir (files.get i))
    (w : World) : ∃ job, p.transform tDir (files.get i) = some job ∧
      Solo (fun i => p.erbWorker tDir (files.get i)) i (.ready, w) (.finished,
        ⟨Function.update w.host (tmpName p.container job.dest) (some job.content),
          Function.update w.container job.dest (some job.content)⟩) := by
  obtain ⟨job, hjob, hrefused, hpermit⟩ := h
  exact ⟨job, hjob, (erb_stage hjob w).trans (erb_copy hrefused hpermit (Function.update_self ..))⟩

section

variable {worker : Template → WorkerPhase → World → Option (WorkerPhase × World)}
  {next : Fin files.length → World → World}

/-- A pass is complete when its run leaves no worker unfinished. -/
theorem Pass.of_run {schedule : List (Fin files.length)}
    {q : Pool (Fin files.length) WorkerPhase World}
    (hrun : Run (Pool.Step fun i => worker (files.get i)) ⟨w, fun _ => .ready⟩ schedule q)
    (hphase : ∀ i, q.phase i = .finished) : Pass worker files w q.shared := by
  have hq : (⟨q.shared, fun _ => .finished⟩ : Pool (Fin files.length) WorkerPhase World) = q :=
    Pool.ext rfl (funext fun i => (hphase i).symm)
  refine ⟨schedule, ?_⟩
  rwa [hq]

/-- Workers that can finish alone complete a pass. -/
theorem exists_pass
    (hsolo : ∀ i w, Solo (fun i => worker (files.get i)) i (.ready, w) (.finished, next i w))
    (w : World) : ∃ w', Pass worker files w w' := by
  obtain ⟨schedule, q, hrun, -, hphase⟩ := exists_run_each (Q := fun _ => True)
    (fun i (_ : i ∈ List.finRange files.length) s _ => ⟨_, hsolo i s, trivial⟩)
    (List.nodup_finRange _) (p := ⟨w, fun _ => .ready⟩) (fun _ _ => rfl) trivial
  exact ⟨q.shared, Pass.of_run hrun fun i => by rw [hphase, if_pos (List.mem_finRange i)]⟩

/-- Workers that can finish alone complete a pass with any one of them last. -/
theorem exists_pass_last
    (hsolo : ∀ i w, Solo (fun i => worker (files.get i)) i (.ready, w) (.finished, next i w))
    (i : Fin files.length) (w : World) : ∃ v, Pass worker files w (next i v) := by
  obtain ⟨schedule, q, hrun, -, hphase⟩ := exists_run_each (Q := fun _ => True)
    (fun j (_ : j ∈ (List.finRange files.length).filter (· ≠ i)) s _ => ⟨_, hsolo j s, trivial⟩)
    ((List.nodup_finRange _).filter _) (p := ⟨w, fun _ => .ready⟩) (fun _ _ => rfl) trivial
  have hi : q.phase i = .ready := by rw [hphase]; simp
  obtain ⟨last, hlast⟩ := (hsolo i q.shared).run (p := q) (by rw [hi])
  refine ⟨q.shared, Pass.of_run (hrun.append hlast) fun j => ?_⟩
  by_cases hji : j = i
  · subst hji
    exact Function.update_self ..
  · show Function.update q.phase i _ j = _
    rw [Function.update_of_ne hji, hphase, if_pos (by simp [hji])]

end

/-- Installable files can be installed by the plain pass. -/
theorem exists_plainPass (h : ∀ t ∈ files, p.PlainInstallable tDir t) (w : World) :
    ∃ w', Pass (p.plainWorker tDir) files w w' := by
  choose dest hdest hsolo using fun i => (h _ (List.get_mem files i)).solo
  exact exists_pass hsolo w

/-- The plain pass can leave any of its files on top. -/
theorem exists_plainPass_overlaid (h : ∀ t ∈ files, p.PlainInstallable tDir t) (w : World)
    (ht : t ∈ files) {dest : Text} (hdest : p.plainDestination tDir t = some dest) :
    ∃ w', Pass (p.plainWorker tDir) files w w' ∧ w'.container dest = some t.contents := by
  obtain ⟨i, rfl⟩ := List.get_of_mem ht
  choose dests hdests hsolo using fun i => (h _ (List.get_mem files i)).solo
  obtain ⟨v, hpass⟩ := exists_pass_last hsolo i w
  refine ⟨_, hpass, ?_⟩
  have hi : dests i v = dest := by
    have := hdests i v
    rw [hdest] at this
    exact (Option.some.inj this).symm
  simp [hi]

/-- Installable files can be rendered and installed by the ERB pass. -/
theorem exists_erbPass (h : ∀ t ∈ files, p.ErbInstallable tDir t) (w : World) :
    ∃ w', Pass (p.erbWorker tDir) files w w' := by
  choose job hjob hsolo using fun i => (h _ (List.get_mem files i)).solo
  exact exists_pass hsolo w

/-- **The clash.** Of two files whose destinations share the temporary name, the first can end with
the rendering of the second: both write before either copies. -/
theorem exists_erbPass_clash (h : ∀ t ∈ files, p.ErbInstallable tDir t)
    (hdistinct : ∀ i j job job', i ≠ j → p.transform tDir (files.get i) = some job →
      p.transform tDir (files.get j) = some job' → job.dest ≠ job'.dest)
    {i j : Fin files.length} (hij : i ≠ j) {a b : Job}
    (ha : p.transform tDir (files.get i) = some a) (hb : p.transform tDir (files.get j) = some b)
    (hmangle : mangle b.dest = mangle a.dest) (w : World) :
    ∃ w', Pass (p.erbWorker tDir) files w w' ∧ w'.container a.dest = some b.content := by
  -- `i` and `j` write, then `i` copies, then `j`; the others follow one after the other
  obtain ⟨a', ha', harefused, hapermit⟩ := h _ (List.get_mem files i)
  obtain ⟨b', hb', hbrefused, hbpermit⟩ := h _ (List.get_mem files j)
  obtain rfl : a = a' := Option.some.inj (ha.symm.trans ha')
  obtain rfl : b = b' := Option.some.inj (hb.symm.trans hb')
  have htmp : tmpName p.container b.dest = tmpName p.container a.dest := tmpName_inj.2 hmangle
  have hdest : a.dest ≠ b.dest := hdistinct i j a b hij ha hb
  obtain ⟨_, q₁, hrun₁, hs₁, hi₁, hother₁⟩ :=
    (erb_stage ha w).extend (p := ⟨w, fun _ => .ready⟩) (.nil _) rfl rfl
  obtain ⟨_, q₂, hrun₂, hs₂, hj₂, hother₂⟩ :=
    (erb_stage hb q₁.shared).extend hrun₁ (hother₁ j hij.symm) rfl
  have hhost₂ : q₂.shared.host (tmpName p.container a.dest) = some b.content := by
    rw [hs₂, ← htmp]
    exact Function.update_self ..
  obtain ⟨_, q₃, hrun₃, hs₃, hi₃, hother₃⟩ :=
    (erb_copy harefused hapermit hhost₂).extend hrun₂ (by rw [hother₂ i hij, hi₁]) rfl
  have hhost₃ : q₃.shared.host (tmpName p.container b.dest) = some b.content := by
    rw [hs₃, htmp]
    exact hhost₂
  obtain ⟨_, q₄, hrun₄, hs₄, hj₄, hother₄⟩ :=
    (erb_copy hbrefused hbpermit hhost₃).extend hrun₃ (by rw [hother₃ j hij.symm, hj₂]) rfl
  have hcontainer₄ : q₄.shared.container a.dest = some b.content := by
    rw [hs₄, hs₃]
    show Function.update (Function.update _ a.dest _) b.dest _ a.dest = _
    rw [Function.update_of_ne hdest, Function.update_self]
  have hother : ∀ k, k ≠ i → k ≠ j → q₄.phase k = .ready := by
    intro k hki hkj
    rw [hother₄ k hkj, hother₃ k hki, hother₂ k hkj, hother₁ k hki]
  have hsolo : ∀ k ∈ (List.finRange files.length).filter (fun k => k ≠ i ∧ k ≠ j), ∀ s : World,
      s.container a.dest = some b.content → ∃ t, Solo (fun i => p.erbWorker tDir (files.get i)) k
        (.ready, s) (.finished, t) ∧ t.container a.dest = some b.content := by
    intro k hk s hs
    obtain ⟨hki, hkj⟩ : k ≠ i ∧ k ≠ j := by simpa using hk
    obtain ⟨job, hjob, hsolo⟩ := (h _ (List.get_mem files k)).solo s
    refine ⟨_, hsolo, ?_⟩
    show Function.update s.container job.dest _ a.dest = _
    rw [Function.update_of_ne (hdistinct i k a job hki.symm ha hjob), hs]
  obtain ⟨bs, q, hrest, hQ, hphase⟩ := exists_run_each (p := q₄) hsolo
    ((List.nodup_finRange _).filter _) (fun k hk => by
      obtain ⟨hki, hkj⟩ : k ≠ i ∧ k ≠ j := by simpa using hk
      exact hother k hki hkj) hcontainer₄
  refine ⟨q.shared, Pass.of_run (hrun₄.append hrest) fun k => ?_, hQ⟩
  rw [hphase]
  split
  · rfl
  · rename_i hk
    by_cases hkj : k = j
    · rw [hkj, hj₄]
    · obtain rfl : k = i := by simpa [hkj] using hk
      rw [hother₄ k hij, hi₃]

/-- Trees of distinct destinations that are installed without interference are clear. -/
theorem Clear.of_interferenceFree {tree : TemplateTree} (hdistinct : p.DistinctDestinations tree)
    (hinstall : p.Installable tree) (h : p.InterferenceFree tree) : p.Clear tree := by
  let w₀ : World := ⟨fun _ => none, fun _ => none⟩
  intro t ht job hjob
  refine ⟨fun u hu hdest => ?_, fun hnone t' ht' job' hjob' hmangle => ?_⟩
  · obtain ⟨mid, herb⟩ := exists_erbPass hinstall.1 w₀
    obtain ⟨w', hplain, hcontent⟩ := exists_plainPass_overlaid hinstall.2 mid hu hdest
    have := h w₀ w' ⟨mid, herb, hplain⟩ t ht job hjob
    rw [hcontent] at this
    exact Option.some.inj this
  · by_contra hne
    obtain ⟨i, rfl⟩ := List.get_of_mem ht
    obtain ⟨j, rfl⟩ := List.get_of_mem ht'
    have hij : i ≠ j := by
      rintro rfl
      rw [hjob] at hjob'
      exact hne (congrArg Job.content (Option.some.inj hjob')).symm
    have hdistinct' : ∀ i j job job', i ≠ j → p.transform tree.tDir (tree.erbFiles.get i) = some job →
        p.transform tree.tDir (tree.erbFiles.get j) = some job' → job.dest ≠ job'.dest := by
      intro i j job job' hne hi hj
      obtain hlt | hlt := lt_or_gt_of_ne hne
      · exact List.pairwise_iff_getElem.1 hdistinct i j i.2 j.2 hlt job job' hi hj
      · exact (List.pairwise_iff_getElem.1 hdistinct j i j.2 i.2 hlt job' job hj hi).symm
    obtain ⟨mid, herb, hcontent⟩ :=
      exists_erbPass_clash hinstall.1 hdistinct' hij hjob hjob' hmangle w₀
    obtain ⟨w', hplain⟩ := exists_plainPass hinstall.2 mid
    have := h w₀ w' ⟨mid, herb, hplain⟩ _ ht job hjob
    rw [hplain.untouched hnone, hcontent] at this
    exact hne (Option.some.inj this)

/-- **When parallel rendering is interference-free.** For a tree whose `.erb` files have pairwise
distinct destinations, every completed run leaves each destination with the rendering of its own
template if and only if the tree cannot be installed, so that no run completes, or no file is in the
way of another. -/
theorem interferenceFree_iff (tree : TemplateTree) (hdistinct : p.DistinctDestinations tree) :
    p.InterferenceFree tree ↔ ¬p.Installable tree ∨ p.Clear tree := by
  constructor
  · intro h
    by_cases hinstall : p.Installable tree
    · exact .inr (.of_interferenceFree hdistinct hinstall h)
    · exact .inl hinstall
  · rintro (hinstall | hclear)
    · rintro w w' ⟨mid, herb, hplain⟩
      exact absurd ⟨herb.erbInstallable, hplain.plainInstallable⟩ hinstall
    · exact hclear.interferenceFree

/-- Two templates without tags, at the given paths below `/t`. -/
def twoFiles (path path' : Text) : TemplateTree :=
  ⟨"/t".toList, [⟨path, "one".toList⟩, ⟨path', "two".toList⟩]⟩

/-- A processor of templates without tags. -/
def untagged : ErbProcessor := ⟨"box".toList, fun _ => none, fun _ _ => true⟩

/-- `/a.erb` and `/b.erb` are installed without interference. -/
theorem interferenceFree_twoFiles :
    untagged.InterferenceFree (twoFiles "/t/a.erb".toList "/t/b.erb".toList) := by
  have ha : untagged.transform "/t".toList ⟨"/t/a.erb".toList, "one".toList⟩ =
      some ⟨"/a".toList, "one".toList⟩ := by decide
  have hb : untagged.transform "/t".toList ⟨"/t/b.erb".toList, "two".toList⟩ =
      some ⟨"/b".toList, "two".toList⟩ := by decide
  have herb : (twoFiles "/t/a.erb".toList "/t/b.erb".toList).erbFiles =
      [⟨"/t/a.erb".toList, "one".toList⟩, ⟨"/t/b.erb".toList, "two".toList⟩] := by decide
  have hplain : (twoFiles "/t/a.erb".toList "/t/b.erb".toList).plainFiles = [] := by decide
  have hslash : mangle "/b".toList ≠ mangle "/a".toList := by decide
  refine (interferenceFree_iff _ ?_).2 (.inr ?_)
  · rw [DistinctDestinations, herb, List.pairwise_pair]
    rintro job job' h h'
    obtain rfl := Option.some.inj (ha.symm.trans h)
    obtain rfl := Option.some.inj (hb.symm.trans h')
    decide
  · intro t ht job hjob
    rw [hplain]
    refine ⟨by simp, fun _ t' ht' job' hjob' hmangle => ?_⟩
    rw [herb] at ht ht'
    simp only [List.mem_cons, List.not_mem_nil, or_false] at ht ht'
    obtain rfl | rfl := ht <;> obtain rfl | rfl := ht'
    · rw [hjob] at hjob'
      rw [Option.some.inj hjob']
    · obtain rfl := Option.some.inj (ha.symm.trans hjob)
      obtain rfl := Option.some.inj (hb.symm.trans hjob')
      exact absurd hmangle hslash
    · obtain rfl := Option.some.inj (hb.symm.trans hjob)
      obtain rfl := Option.some.inj (ha.symm.trans hjob')
      exact absurd hmangle.symm hslash
    · rw [hjob] at hjob'
      rw [Option.some.inj hjob']

/-- **Underscores interfere with slashes.** `/a/b.erb` and `/a_b.erb` have distinct destinations and
one temporary name, and a completed run leaves the rendering of the second in both. -/
theorem interferenceFree_fails :
    ¬∀ (p : ErbProcessor) (tree : TemplateTree), p.DistinctDestinations tree →
      p.InterferenceFree tree := by
  intro h
  have ha : untagged.transform "/t".toList ⟨"/t/a/b.erb".toList, "one".toList⟩ =
      some ⟨"/a/b".toList, "one".toList⟩ := by decide
  have hb : untagged.transform "/t".toList ⟨"/t/a_b.erb".toList, "two".toList⟩ =
      some ⟨"/a_b".toList, "two".toList⟩ := by decide
  have herb : (twoFiles "/t/a/b.erb".toList "/t/a_b.erb".toList).erbFiles =
      [⟨"/t/a/b.erb".toList, "one".toList⟩, ⟨"/t/a_b.erb".toList, "two".toList⟩] := by decide
  have hplain : (twoFiles "/t/a/b.erb".toList "/t/a_b.erb".toList).plainFiles = [] := by decide
  have hdistinct : untagged.DistinctDestinations (twoFiles "/t/a/b.erb".toList "/t/a_b.erb".toList) := by
    rw [DistinctDestinations, herb, List.pairwise_pair]
    rintro job job' hjob hjob'
    obtain rfl := Option.some.inj (ha.symm.trans hjob)
    obtain rfl := Option.some.inj (hb.symm.trans hjob')
    decide
  have hinstall : untagged.Installable (twoFiles "/t/a/b.erb".toList "/t/a_b.erb".toList) := by
    rw [Installable, herb, hplain]
    refine ⟨?_, by simp⟩
    simp only [List.mem_cons, List.not_mem_nil, or_false, forall_eq_or_imp, forall_eq]
    exact ⟨⟨_, ha, by decide, rfl⟩, _, hb, by decide, rfl⟩
  have hclear := Clear.of_interferenceFree hdistinct hinstall (h _ _ hdistinct)
  have hsame := (hclear ⟨"/t/a/b.erb".toList, "one".toList⟩ (by rw [herb]; exact .head _) _ ha).2
    (by rw [hplain]; exact fun u hu => absurd hu List.not_mem_nil)
    ⟨"/t/a_b.erb".toList, "two".toList⟩ (by rw [herb]; exact .tail _ (.head _)) _ hb (by decide)
  revert hsame
  decide

end ErbProcessor

end GexCloud
