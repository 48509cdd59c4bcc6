import GexCloud.Base.TemplateTree
import GexCloud.Support.Stages

/-! # Provisioning a container while it starts

`provision_and_start_created_container` starts a container and installs template trees in it, while the
bootstrap script in the container runs. The two meet only in the file `/INIT_LOCK` of the container: the
host puts it there before the start and deletes it after the last tree; the script waits for that before
it sources `/etc/init.sh`. The container can be stopped and started again at any time, and the host can
fail after any step.

* `Effect`, `Environment` — what shell scripts and commands from outside do to the files of the container.
* `Action`, `provision` — the steps of the host, in stages; the passes over a tree are parallel stages.
* `Boot`, `bootstrap` — the steps of the bootstrap script.
* `Event`, `step` — the two together, with restarts and failures.
* `Arrived`, `InPlace` — a file was put into the container, and every file of a tree was.
* **`InitProtocol.init_after_trees`** — `/etc/init.sh` is sourced only after the lock was removed and every
  file of the trees was put into the container. -/

namespace GexCloud

open Texts Runs Stages

/-- The entries of the directory pass: `iterate_over_tree(t_dir, '/_dir.erb', true)`. -/
def TemplateTree.dirFiles (tree : TemplateTree) : List Template :=
  tree.entries.filter fun t => decide ("/_dir.erb".toList <:+ t.path)

/-- The entries of the iteration pass: `iterate_over_tree(t_dir, '.iterate')`. -/
def TemplateTree.iterateFiles (tree : TemplateTree) : List Template :=
  tree.entries.filter fun t => decide (".iterate".toList <:+ t.path)

namespace InitProtocol

/-! ## The environment -/

/-- The lock in the container. -/
def lockFile : Text := "/INIT_LOCK".toList

/-- The file on the host that the lock is copied from. -/
def hostLock : Text := "/tmp/INIT_LOCK".toList

/-- What a command or a sourced script makes of the files of the container; it has no business with the
lock. -/
structure Effect where
  apply : Files → Files
  keeps_lock : ∀ files, files lockFile ≠ none → apply files lockFile ≠ none

/-- What comes from outside the scripts: the image of the container, the shell commands, and the scripts of
the trees. -/
structure Environment where
  /-- The processor of the trees, for `$container`. -/
  processor : ErbProcessor
  /-- `docker exec` of a command. -/
  dexec : Text → Effect
  /-- `source` of a script with these contents. -/
  source : Text → Effect
  /-- `source /etc/init.sh`, which may do anything. -/
  sourceInit : Text → Files → Files
  /-- The commands of `set_permissions` for a file of the tree and its destination. -/
  permissions : Text → Text → List Text
  /-- Whether `get_array` has an item for this `.iterate` file. -/
  iterates : Text → Bool
  /-- The commands that `configure.rb` of the tree runs in the container. -/
  configure : Text → List Text
  /-- The files that `commit_edits` pushes then. -/
  pushes : Text → List Job
  /-- The commands that `first_run.rb` of the tree runs in the container. -/
  firstRun : Text → List Text

variable (env : Environment)

/-! ## The host -/

/-- A step of the host. -/
inductive Action
  /-- `texec "touch #{path}"`. -/
  | touch (path : Text)
  /-- `IO.write` on the host. -/
  | write (path content : Text)
  /-- `dcp`. -/
  | dcp (src dst : Text)
  | dstart
  | waitUntilRunning
  /-- `dexec` of a command other than the one that removes the lock. -/
  | dexec (command : Text)
  /-- `assert_dpath`. -/
  | assertDpath (path : Text)
  /-- `dexec 'rm -f /INIT_LOCK'`. -/
  | removeLock
  | assertDrunning
  /-- A handler raises. -/
  | raise
  deriving DecidableEq

/-- A stage with one action. -/
def solo (a : Action) : Stage Action := [[a]]

/-- `create_init_lock`. -/
def createInitLock : List (Stage Action) := [solo (.touch hostLock), solo (.dcp hostLock lockFile)]

/-- `remove_init_lock`. -/
def removeInitLock : List (Stage Action) := [solo (.assertDpath lockFile), solo .removeLock]

/-- `set_permissions`. -/
def setPermissions (file dest : Text) : List Action := (env.permissions file dest).map .dexec

/-- `process_template_dir`. -/
def processTemplateDir (tDir : Text) (t : Template) : List Action :=
  match env.processor.getDestinationFileName (chomp "/_dir.erb".toList t.path) tDir with
  | none => [.raise]
  | some dest => .dexec ("mkdir -p ".toList ++ dest) :: setPermissions env t.path dest

/-- `process_template_iterate`: nothing without items, and `NoMethodError` with the first one. -/
def processTemplateIterate (t : Template) : List Action :=
  if env.iterates t.path then [.raise] else []

/-- A file that goes into the container by way of its temporary name. -/
def push (job : Job) : List Action :=
  [.write (tmpName env.processor.container job.dest) job.content,
    .dcp (tmpName env.processor.container job.dest) job.dest]

/-- `process_template_file`. -/
def processTemplateFile (tDir : Text) (t : Template) : List Action :=
  match env.processor.transform tDir t with
  | none => [.raise]
  | some job => push env job ++ setPermissions env t.path job.dest

/-- `process_template_plain`. -/
def processTemplatePlain (tDir : Text) (t : Template) : List Action :=
  match env.processor.plainDestination tDir t with
  | none => [.raise]
  | some dest => .dcp t.path dest :: setPermissions env t.path dest

/-- `process_configure_scripts`. -/
def processConfigureScripts (tDir : Text) : List Action :=
  (env.configure tDir).map .dexec ++ (env.pushes tDir).flatMap (push env) ++ (env.firstRun tDir).map .dexec

/-- `process_template_tree`: four passes, three of them parallel, and the scripts of the tree. -/
def processTemplateTree (tree : TemplateTree) : List (Stage Action) :=
  [tree.dirFiles.map (processTemplateDir env tree.tDir),
    [tree.iterateFiles.flatMap (processTemplateIterate env)],
    tree.erbFiles.map (processTemplateFile env tree.tDir),
    tree.plainFiles.map (processTemplatePlain env tree.tDir),
    [processConfigureScripts env tree.tDir]]

/-- **`provision_and_start_created_container`**. -/
def provision (trees : List TemplateTree) : List (Stage Action) :=
  createInitLock ++ [solo .dstart, solo .waitUntilRunning,
    solo (.dexec "mkdir -p /opt/gex/config/".toList)] ++
  trees.flatMap (processTemplateTree env) ++ removeInitLock ++ [solo .assertDrunning]

/-! ## The container -/

/-- Where the bootstrap script is. -/
inductive Boot
  /-- The container has never been started. -/
  | created
  /-- The container is not running. -/
  | down
  /-- `source /etc/profile`. -/
  | profile
  /-- `source "${AFTER_CREATE}"`, if that file is there. -/
  | afterCreate
  /-- `rm "${AFTER_CREATE}"`. -/
  | afterCreateDone
  /-- `source "${FIRST_RUN}"`, if that file is there. -/
  | firstRun
  /-- `rm "${FIRST_RUN}"`. -/
  | firstRunDone
  /-- `while [ -f /INIT_LOCK ]`. -/
  | lockWait
  /-- `source /etc/init.sh`. -/
  | initSh
  /-- The loop at the end. -/
  | idle
  deriving DecidableEq

/-- A container whose bootstrap script is at work. -/
def Boot.Running (b : Boot) : Prop := b ≠ .created ∧ b ≠ .down

instance (b : Boot) : Decidable b.Running := by unfold Boot.Running; infer_instance

/-- `echo line >> /tmp/INIT_LOG`. -/
def initLog (line : Text) (files : Files) : Files :=
  Function.update files "/tmp/INIT_LOG".toList
    (some ((files "/tmp/INIT_LOG".toList).getD [] ++ line ++ ['\n']))

/-- `source path`, if the file is there. -/
def sourceFile (path : Text) (files : Files) : Files :=
  match files path with
  | none => files
  | some contents => (env.source contents).apply files

/-- `rm path`. -/
def removeFile (path : Text) (files : Files) : Files := Function.update files path none

/-- **The bootstrap script**: its next step, and what it does to the files. -/
def bootstrap : Boot → Files → Option (Boot × Files)
  | .created, _ => none
  | .down, _ => none
  | .profile, files =>
    some (.afterCreate, initLog "AFTER_CREATE".toList (sourceFile env "/etc/profile".toList files))
  | .afterCreate, files =>
    if files "/after-create".toList = none then some (.firstRun, initLog "FIRST RUN".toList files)
    else some (.afterCreateDone, sourceFile env "/after-create".toList files)
  | .afterCreateDone, files =>
    some (.firstRun, initLog "FIRST RUN".toList (removeFile "/after-create".toList files))
  | .firstRun, files =>
    if files "/etc/first_run.sh".toList = none then
      some (.lockWait, initLog "LOCK_WAIT".toList files)
    else some (.firstRunDone, sourceFile env "/etc/first_run.sh".toList files)
  | .firstRunDone, files =>
    some (.lockWait, initLog "LOCK_WAIT".toList (removeFile "/etc/first_run.sh".toList files))
  | .lockWait, files =>
    if files lockFile = none then some (.initSh, initLog "INIT_SH".toList files)
    else some (.lockWait, files)
  | .initSh, files =>
    match files "/etc/init.sh".toList with
    | none => some (.idle, files)
    | some contents => some (.idle, env.sourceInit contents files)
  | .idle, files => some (.idle, files)

/-! ## Both together -/

/-- The files of host and container, the bootstrap script and what the host has yet to do. -/
structure State where
  world : World
  boot : Boot
  todo : List (Stage Action)

/-- What happens. -/
inductive Event
  /-- Thread `k` of the present stage of the host performs its next action. -/
  | host (k : Nat) (a : Action)
  /-- The host fails. -/
  | hostFails
  /-- The bootstrap script performs its next step. -/
  | container
  /-- The container stops, for whatever reason. -/
  | stops
  /-- The container is started again. -/
  | restarts
  /-- The bootstrap script sources `/etc/init.sh`. -/
  | sourcesInit
  deriving DecidableEq

/-- What an action of the host does; `none` when it fails or has to wait. -/
def act (a : Action) (w : World) (boot : Boot) : Option (World × Boot) :=
  match a with
  | .touch path =>
    some ({ w with host := Function.update w.host path (some ((w.host path).getD [])) }, boot)
  | .write path content => some ({ w with host := Function.update w.host path (some content) }, boot)
  | .dcp src dst => (dcp env.processor.container src dst w).toOption.map fun w => (w, boot)
  | .dstart => some (w, if boot.Running then boot else .profile)
  | .waitUntilRunning => if boot.Running then some (w, boot) else none
  | .dexec command =>
    if boot.Running then some ({ w with container := (env.dexec command).apply w.container }, boot)
    else none
  | .assertDpath path => if boot.Running ∧ w.container path ≠ none then some (w, boot) else none
  | .removeLock =>
    if boot.Running then some ({ w with container := removeFile lockFile w.container }, boot)
    else none
  | .assertDrunning => if boot.Running then some (w, boot) else none
  | .raise => none

/-- **The steps of host and container.** -/
def step (s : State) : Event → Option State
  | .host k a => do
    let todo ← perform k a s.todo
    let (world, boot) ← act env a s.world s.boot
    return ⟨world, boot, todo⟩
  | .hostFails => some { s with todo := breakOff s.todo }
  | .container =>
    if s.boot = .initSh then none
    else (bootstrap env s.boot s.world.container).map fun x =>
      { s with world := { s.world with container := x.2 }, boot := x.1 }
  | .stops => if s.boot.Running then some { s with boot := .down } else none
  | .restarts => if s.boot = .created then none else some { s with boot := .profile }
  | .sourcesInit =>
    if s.boot = .initSh then (bootstrap env s.boot s.world.container).map fun x =>
      { s with world := { s.world with container := x.2 }, boot := x.1 }
    else none

/-- The start: a created container, and everything to do. -/
def beginning (trees : List TemplateTree) (world : World) : State :=
  ⟨world, .created, provision env trees⟩

/-- The steps, for runs. -/
def Steps (s : State) (e : Event) (t : State) : Prop := step env s e = some t

/-- The host has performed the action. -/
def Performed (past : List Event) (a : Action) : Prop := ∃ k, .host k a ∈ past

/-- Thread `k` of a stage has performed these actions, in this order. -/
def InOrder (past : List Event) (k : Nat) (actions : List Action) : Prop :=
  (actions.map (Event.host k)).Sublist past

/-- The threads of all stages of the trees are through. -/
def TreesDone (trees : List TemplateTree) (past : List Event) : Prop :=
  ∀ tree ∈ trees, ∀ stage ∈ processTemplateTree env tree, Done (InOrder past) stage

/-- Some template or some edited file of the trees has this temporary name, and this is what is written there. -/
def Source (trees : List TemplateTree) (tmp content : Text) : Prop :=
  ∃ tree ∈ trees,
    (∃ t ∈ tree.erbFiles, ∃ job, env.processor.transform tree.tDir t = some job ∧
      tmp = tmpName env.processor.container job.dest ∧ content = job.content) ∨
    ∃ job ∈ env.pushes tree.tDir, tmp = tmpName env.processor.container job.dest ∧ content = job.content

/-- **A file was put into the container**: at a step of the run, `dst` got the content that `src` had on the host. -/
def Arrived (start : State) (past : List Event) (src dst content : Text) : Prop :=
  ∃ before k after s t, past = before ++ .host k (.dcp src dst) :: after ∧ Run (Steps env) start before s ∧
    step env s (.host k (.dcp src dst)) = some t ∧ s.world.host src = some content ∧
    t.world.container = Function.update s.world.container dst (some content)

/-- No command and no script deletes the file. -/
structure Environment.Leaves (path : Text) : Prop where
  bootstrap : path ∉ [lockFile, "/after-create".toList, "/etc/first_run.sh".toList]
  dexec : ∀ command files, files path ≠ none → (env.dexec command).apply files path ≠ none
  source : ∀ contents files, files path ≠ none → (env.source contents).apply files path ≠ none
  sourceInit : ∀ contents files, files path ≠ none → env.sourceInit contents files path ≠ none

/-- **A file is in place**: it was put into the container, and is there if nothing deletes it. -/
def Placed (start : State) (past : List Event) (now : State) (src dst content : Text) : Prop :=
  Arrived env start past src dst content ∧ (env.Leaves dst → now.world.container dst ≠ none)

/-- **Every file of the tree is in place**: a rendered template with what was written under its temporary name, a
plain file with what it has on the host. -/
def InPlace (trees : List TemplateTree) (start : State) (past : List Event) (now : State) (tree : TemplateTree) :
    Prop :=
  (∀ t ∈ tree.erbFiles, ∃ job content, env.processor.transform tree.tDir t = some job ∧
    Source env trees (tmpName env.processor.container job.dest) content ∧
    Placed env start past now (tmpName env.processor.container job.dest) job.dest content) ∧
  ∀ t ∈ tree.plainFiles, ∃ dest content, env.processor.plainDestination tree.tDir t = some dest ∧
    Placed env start past now t.path dest content

/-! ## What the steps do to the lock -/

variable {env} {trees : List TemplateTree} {tree : TemplateTree} {a : Action} {w w' : World}
  {boot boot' : Boot} {past : List Event} {files files' : Files}

/-- `dcp` puts what a file of the host has at its destination and leaves the others. -/
theorem dcp_container {src dst : Text} (h : act env (.dcp src dst) w boot = some (w', boot')) :
    boot' = boot ∧ ∃ content, w.host src = some content ∧
      w' = { w with container := Function.update w.container dst (some content) } := by
  obtain ⟨v, hv, heq⟩ := Option.map_eq_some_iff.mp h
  obtain ⟨rfl, rfl⟩ := Prod.mk.inj heq
  cases hdcp : dcp env.processor.container src dst w with
  | error e =>
    rw [hdcp] at hv
    cases hv
  | ok u =>
    rw [hdcp] at hv
    cases hv
    obtain ⟨-, content, hsrc, rfl⟩ := ErbProcessor.dcp_eq_ok_iff.mp hdcp
    exact ⟨rfl, content, hsrc, rfl⟩

/-- What is put into the container leaves the files that are there. -/
theorem update_ne_none {path dst : Text} (content : Text) (h : files path ≠ none) :
    Function.update files dst (some content) path ≠ none := by
  by_cases hdst : path = dst
  · simp [hdst]
  · rwa [Function.update_of_ne hdst]

/-- Only the removal of the lock removes it. -/
theorem act_lock (h : act env a w boot = some (w', boot')) (ha : a ≠ .removeLock)
    (hlock : w.container lockFile ≠ none) : w'.container lockFile ≠ none := by
  cases a with
  | touch path =>
    cases h
    exact hlock
  | write path content =>
    cases h
    exact hlock
  | dcp src dst =>
    obtain ⟨-, content, -, rfl⟩ := dcp_container h
    exact update_ne_none content hlock
  | dstart =>
    cases h
    exact hlock
  | waitUntilRunning =>
    obtain ⟨-, heq⟩ := Option.ite_none_right_eq_some.mp h
    cases heq
    exact hlock
  | dexec command =>
    obtain ⟨-, heq⟩ := Option.ite_none_right_eq_some.mp h
    cases heq
    exact (env.dexec command).keeps_lock _ hlock
  | assertDpath path =>
    obtain ⟨-, heq⟩ := Option.ite_none_right_eq_some.mp h
    cases heq
    exact hlock
  | removeLock => exact absurd rfl ha
  | assertDrunning =>
    obtain ⟨-, heq⟩ := Option.ite_none_right_eq_some.mp h
    cases heq
    exact hlock
  | raise => cases h

/-- Only `docker start` has anything to do with where the bootstrap script is. -/
theorem act_boot (h : act env a w boot = some (w', boot')) :
    boot' = boot ∨ a = .dstart ∧ boot' = .profile := by
  cases a with
  | dcp src dst => exact .inl (dcp_container h).1
  | dstart =>
    cases h
    by_cases hrunning : boot.Running
    · exact .inl (if_pos hrunning)
    · exact .inr ⟨rfl, if_neg hrunning⟩
  | touch path => cases h; exact .inl rfl
  | write path content => cases h; exact .inl rfl
  | raise => cases h
  | _ =>
    obtain ⟨-, heq⟩ := Option.ite_none_right_eq_some.mp h
    cases heq
    exact .inl rfl

/-- A file other than the lock is written or removed. -/
theorem update_lock {path : Text} (hpath : lockFile ≠ path) (value : Option Text)
    (hlock : files lockFile ≠ none) : Function.update files path value lockFile ≠ none := by
  rwa [Function.update_of_ne hpath]

/-- Sourcing a file leaves the lock. -/
theorem sourceFile_lock {path : Text} (hlock : files lockFile ≠ none) :
    sourceFile env path files lockFile ≠ none := by
  cases hfile : files path with
  | none =>
    rw [sourceFile, hfile]
    exact hlock
  | some contents =>
    rw [sourceFile, hfile]
    exact (env.source contents).keeps_lock files hlock

/-- Writing the log leaves the lock. -/
theorem initLog_lock {line : Text} (hlock : files lockFile ≠ none) :
    initLog line files lockFile ≠ none :=
  update_lock (by decide) _ hlock

/-- Until it sources `/etc/init.sh`, the bootstrap script leaves the lock. -/
theorem bootstrap_lock (h : bootstrap env boot files = some (boot', files')) (hboot : boot ≠ .initSh)
    (hlock : files lockFile ≠ none) : files' lockFile ≠ none := by
  cases boot with
  | created => cases h
  | down => cases h
  | profile =>
    cases h
    exact initLog_lock (sourceFile_lock hlock)
  | afterCreate =>
    rw [bootstrap] at h
    split at h <;> cases h
    · exact initLog_lock hlock
    · exact sourceFile_lock hlock
  | afterCreateDone =>
    cases h
    exact initLog_lock (update_lock (by decide) _ hlock)
  | firstRun =>
    rw [bootstrap] at h
    split at h <;> cases h
    · exact initLog_lock hlock
    · exact sourceFile_lock hlock
  | firstRunDone =>
    cases h
    exact initLog_lock (update_lock (by decide) _ hlock)
  | lockWait =>
    rw [bootstrap, if_neg hlock] at h
    cases h
    exact hlock
  | initSh => exact absurd rfl hboot
  | idle =>
    cases h
    exact hlock

/-- The script is at `/etc/init.sh` or beyond. -/
def Boot.Released (b : Boot) : Prop := b = .initSh ∨ b = .idle

/-- The script gets there only when there is no lock. -/
theorem bootstrap_released (h : bootstrap env boot files = some (boot', files'))
    (hboot : boot'.Released) : boot.Released ∨ boot = .lockWait ∧ files lockFile = none := by
  have hnot : ¬ Boot.Released .afterCreate ∧ ¬ Boot.Released .afterCreateDone ∧
      ¬ Boot.Released .firstRun ∧ ¬ Boot.Released .firstRunDone ∧ ¬ Boot.Released .lockWait := by
    simp [Boot.Released]
  obtain ⟨h₁, h₂, h₃, h₄, h₅⟩ := hnot
  cases boot with
  | created => cases h
  | down => cases h
  | profile => cases h; exact absurd hboot h₁
  | afterCreate =>
    rw [bootstrap] at h
    split at h <;> cases h
    · exact absurd hboot h₃
    · exact absurd hboot h₂
  | afterCreateDone => cases h; exact absurd hboot h₃
  | firstRun =>
    rw [bootstrap] at h
    split at h <;> cases h
    · exact absurd hboot h₅
    · exact absurd hboot h₄
  | firstRunDone => cases h; exact absurd hboot h₅
  | lockWait =>
    rw [bootstrap] at h
    split at h <;> cases h
    · exact .inr ⟨rfl, ‹_›⟩
    · exact absurd hboot h₅
  | initSh => exact .inl (.inl rfl)
  | idle => exact .inl (.inr rfl)

/-! ## The stages -/

/-- Before the host starts the container it has put the lock there. -/
theorem provision_eq_dstart : provision env trees = createInitLock ++ ([solo .dstart,
    solo .waitUntilRunning, solo (.dexec "mkdir -p /opt/gex/config/".toList)] ++
      trees.flatMap (processTemplateTree env) ++ removeInitLock ++ [solo .assertDrunning]) := by
  simp [provision]

/-- The stages before the removal of the lock. -/
def beforeRemoval (env : Environment) (trees : List TemplateTree) : List (Stage Action) :=
  createInitLock ++ [solo .dstart, solo .waitUntilRunning,
    solo (.dexec "mkdir -p /opt/gex/config/".toList)] ++
  trees.flatMap (processTemplateTree env) ++ [solo (.assertDpath lockFile)]

/-- The removal of the lock comes after the trees. -/
theorem provision_eq_removal : provision env trees =
    beforeRemoval env trees ++ [solo .removeLock, solo .assertDrunning] := by
  simp [provision, beforeRemoval, removeInitLock]

/-- `set_permissions` runs commands only. -/
theorem not_mem_setPermissions {file dest : Text} :
    Action.removeLock ∉ setPermissions env file dest := by
  simp [setPermissions]

/-- No handler of a tree removes the lock. -/
theorem not_mem_handlers (tDir : Text) (t : Template) :
    Action.removeLock ∉ processTemplateDir env tDir t ∧ Action.removeLock ∉ processTemplateIterate env t ∧
      Action.removeLock ∉ processTemplateFile env tDir t ∧
      Action.removeLock ∉ processTemplatePlain env tDir t := by
  refine ⟨?_, ?_, ?_, ?_⟩
  · unfold processTemplateDir
    split <;> simp [not_mem_setPermissions]
  · unfold processTemplateIterate
    split <;> simp
  · unfold processTemplateFile
    split <;> simp [push, not_mem_setPermissions]
  · unfold processTemplatePlain
    split <;> simp [not_mem_setPermissions]

/-- The lock is not removed in the stages of a tree. -/
theorem removeLock_not_mem_tree {stage : Stage Action} (hstage : stage ∈ processTemplateTree env tree) :
    Action.removeLock ∉ stage.actions := by
  intro hmem
  obtain ⟨thread, hthread, ha⟩ := List.mem_flatten.mp hmem
  simp only [processTemplateTree, List.mem_cons, List.not_mem_nil, or_false] at hstage
  rcases hstage with rfl | rfl | rfl | rfl | rfl
  · obtain ⟨t, -, rfl⟩ := List.mem_map.mp hthread
    exact (not_mem_handlers tree.tDir t).1 ha
  · obtain rfl := List.mem_singleton.mp hthread
    obtain ⟨t, -, ht⟩ := List.mem_flatMap.mp ha
    exact (not_mem_handlers tree.tDir t).2.1 ht
  · obtain ⟨t, -, rfl⟩ := List.mem_map.mp hthread
    exact (not_mem_handlers tree.tDir t).2.2.1 ha
  · obtain ⟨t, -, rfl⟩ := List.mem_map.mp hthread
    exact (not_mem_handlers tree.tDir t).2.2.2 ha
  · obtain rfl := List.mem_singleton.mp hthread
    simp [processConfigureScripts, push] at ha

/-- The lock is removed in no earlier stage. -/
theorem removeLock_not_mem {stage : Stage Action} (hstage : stage ∈ beforeRemoval env trees) :
    Action.removeLock ∉ stage.actions := by
  simp only [beforeRemoval, createInitLock, List.mem_append, List.mem_cons, List.not_mem_nil, or_false,
    List.mem_flatMap] at hstage
  rcases hstage with (((rfl | rfl) | rfl | rfl | rfl) | ⟨tree, -, hstage⟩) | rfl
  all_goals first
    | exact removeLock_not_mem_tree hstage
    | simp [Stage.actions, solo]

/-! ## The invariant -/

/-- **The invariant of host and container**, after the events `past`. -/
structure Inv (env : Environment) (trees : List TemplateTree) (past : List Event) (s : State) : Prop where
  /-- The host goes through its stages. -/
  progress : Progress (provision env trees) (InOrder past) s.todo
  /-- It performs nothing else. -/
  planned : ∀ a, Performed past a → ∃ stage ∈ provision env trees, a ∈ stage.actions
  /-- A file of the host that was written has what was written. -/
  written : ∀ path content, Performed past (.write path content) →
    ∃ content, Performed past (.write path content) ∧ s.world.host path = some content
  /-- A container that has been started was given the lock. -/
  started : s.boot ≠ .created → Performed past (.dcp hostLock lockFile)
  /-- The lock stays until the host removes it. -/
  lock : Performed past (.dcp hostLock lockFile) → ¬ Performed past .removeLock →
    s.world.container lockFile ≠ none
  /-- The script is beyond the lock only after the host removed it. -/
  released : s.boot.Released → Performed past .removeLock
  /-- By then the trees are done. -/
  done : Performed past .removeLock → TreesDone env trees past
  /-- No handler has raised. -/
  clean : ¬ Performed past .raise

/-- What has been performed stays performed. -/
theorem Performed.mono (h : Performed past a) (e : Event) : Performed (past ++ [e]) a := by
  obtain ⟨k, hk⟩ := h
  exact ⟨k, List.mem_append_left _ hk⟩

/-- What is performed after an event was performed before or is what the event performed. -/
theorem performed_append {e : Event} (h : Performed (past ++ [e]) a) :
    Performed past a ∨ ∃ k, e = .host k a := by
  obtain ⟨k, hk⟩ := h
  rcases List.mem_append.mp hk with hk | hk
  · exact .inl ⟨k, hk⟩
  · exact .inr ⟨k, (List.mem_singleton.mp hk).symm⟩

/-- An event that is no step of the host performs nothing. -/
theorem performed_append_iff {e : Event} (he : ∀ k a, e ≠ .host k a) :
    Performed (past ++ [e]) a ↔ Performed past a := by
  constructor
  · intro h
    rcases performed_append h with h | ⟨k, hk⟩
    · exact h
    · exact absurd hk (he k a)
  · exact fun h => h.mono e

/-- What has been performed in order stays so. -/
theorem InOrder.mono {k : Nat} {actions : List Action} (h : InOrder past k actions) (e : Event) :
    InOrder (past ++ [e]) k actions := h.trans (List.sublist_append_left past [e])

/-- Nothing is performed in order from the start. -/
theorem inOrder_nil (past : List Event) (k : Nat) : InOrder past k [] := List.nil_sublist past

/-- One action more. -/
theorem InOrder.concat {k : Nat} {actions : List Action} (h : InOrder past k actions) (a : Action) :
    InOrder (past ++ [.host k a]) k (actions ++ [a]) := by
  rw [InOrder, List.map_append]
  exact h.append (List.Sublist.refl _)

/-- The actions of a thread have been performed. -/
theorem InOrder.performed {k : Nat} {actions : List Action} (h : InOrder past k actions) (ha : a ∈ actions) :
    Performed past a := ⟨k, h.subset (List.mem_map_of_mem ha)⟩

/-- The actions of a stage that is done have been performed. -/
theorem performed_of_done {stage : Stage Action} (h : Done (InOrder past) stage) (ha : a ∈ stage.actions) :
    Performed past a := by
  obtain ⟨thread, hthread, hmem⟩ := List.mem_flatten.mp ha
  obtain ⟨k, hk⟩ := List.mem_iff_getElem?.mp hthread
  exact (h k thread hk).performed hmem

/-- A tree that is done stays done. -/
theorem TreesDone.mono (h : TreesDone env trees past) (e : Event) : TreesDone env trees (past ++ [e]) :=
  fun tree htree stage hstage k thread hk => (h tree htree stage hstage k thread hk).mono e

/-- At the start nothing has happened. -/
theorem inv_beginning (env : Environment) (trees : List TemplateTree) (world : World) :
    Inv env trees [] (beginning env trees world) := by
  have hnone : ∀ a, ¬ Performed [] a := by
    rintro a ⟨k, hk⟩
    cases hk
  refine ⟨.start _ (inOrder_nil []), fun a h => absurd h (hnone a), fun path content h => absurd h (hnone _),
    fun h => absurd rfl h, fun h => absurd h (hnone _), ?_, fun h => absurd h (hnone _), hnone _⟩
  rintro (h | h) <;> cases h

/-- What the host writes, its files have; no other action changes what was written. -/
theorem act_host (h : act env a w boot = some (w', boot')) {path content : Text}
    (hpath : w.host path = some content) :
    w'.host path = some content ∨ ∃ content', a = .write path content' ∧ w'.host path = some content' := by
  cases a with
  | touch path' =>
    cases h
    by_cases heq : path = path'
    · subst heq
      exact .inl (by simp [hpath])
    · exact .inl ((Function.update_of_ne heq ..).trans hpath)
  | write path' content' =>
    cases h
    by_cases heq : path = path'
    · subst heq
      exact .inr ⟨content', rfl, Function.update_self ..⟩
    · exact .inl ((Function.update_of_ne heq ..).trans hpath)
  | dcp src dst =>
    obtain ⟨-, copied, -, rfl⟩ := dcp_container h
    exact .inl hpath
  | dstart => cases h; exact .inl hpath
  | raise => cases h
  | _ =>
    obtain ⟨-, heq⟩ := Option.ite_none_right_eq_some.mp h
    cases heq
    exact .inl hpath

/-- A step of the host keeps the invariant. -/
theorem Inv.host {s t : State} {k : Nat} (h : Inv env trees past s)
    (hstep : step env s (.host k a) = some t) : Inv env trees (past ++ [.host k a]) t := by
  obtain ⟨todo, hperform, hrest⟩ := Option.bind_eq_some_iff.mp hstep
  obtain ⟨⟨world, boot⟩, hact, ht⟩ := Option.bind_eq_some_iff.mp hrest
  cases ht
  have ha : Performed (past ++ [.host k a]) a := ⟨k, by simp⟩
  refine ⟨h.progress.perform (inOrder_nil past) hperform (fun _ _ hb => hb.mono _) fun _ hb => hb.concat a,
    ?_, ?_, ?_, ?_, ?_, ?_, ?_⟩
  · intro b hb
    rcases performed_append hb with hbefore | ⟨k', hk'⟩
    · exact h.planned b hbefore
    · obtain ⟨-, rfl⟩ := Event.host.inj hk'
      obtain ⟨before, stage, after, hprogram, hmem, -⟩ := h.progress.before (inOrder_nil past) hperform
      exact ⟨stage, by rw [hprogram]; simp, hmem⟩
  · intro path content hwrite
    rcases performed_append hwrite with hbefore | ⟨k', hk'⟩
    · obtain ⟨old, hold, hpath⟩ := h.written path content hbefore
      rcases act_host hact hpath with hsame | ⟨new, rfl, hnew⟩
      · exact ⟨old, hold.mono _, hsame⟩
      · exact ⟨new, ha, hnew⟩
    · obtain ⟨-, rfl⟩ := Event.host.inj hk'
      cases hact
      exact ⟨content, ha, Function.update_self ..⟩
  · intro hboot
    rcases act_boot hact with hsame | ⟨rfl, -⟩
    · exact (h.started (hsame ▸ hboot)).mono _
    · -- the container is started in a stage after the one that creates the lock
      have hprogress := h.progress
      rw [provision_eq_dstart] at hprogress
      have hdone := hprogress.done_before (inOrder_nil past) hperform (by simp [createInitLock, Stage.actions, solo])
      have hlock := hdone (solo (.dcp hostLock lockFile)) (by simp [createInitLock])
      exact (performed_of_done hlock (by simp [Stage.actions, solo])).mono _
  · intro hdcp hremoved
    have hne : a ≠ .removeLock := by
      rintro rfl
      exact hremoved ha
    have hnot : ¬ Performed past .removeLock := fun hp => hremoved (hp.mono _)
    rcases performed_append hdcp with hbefore | ⟨k', hk'⟩
    · exact act_lock hact hne (h.lock hbefore hnot)
    · -- this is the step that copies the lock
      obtain ⟨-, rfl⟩ := Event.host.inj hk'
      obtain ⟨-, content, -, rfl⟩ := dcp_container hact
      simp
  · intro hreleased
    rcases act_boot hact with hsame | ⟨-, rfl⟩
    · exact (h.released (hsame ▸ hreleased)).mono _
    · simp [Boot.Released] at hreleased
  · intro hremoved
    rcases performed_append hremoved with hbefore | ⟨k', hk'⟩
    · exact (h.done hbefore).mono _
    · -- the lock is removed in a stage after those of the trees
      obtain ⟨-, rfl⟩ := Event.host.inj hk'
      have hprogress := h.progress
      rw [provision_eq_removal] at hprogress
      have hdone := hprogress.done_before (inOrder_nil past) hperform fun st hst => removeLock_not_mem hst
      intro tree htree stage hstage j thread hj
      refine (hdone stage ?_ j thread hj).mono _
      have : stage ∈ trees.flatMap (processTemplateTree env) :=
        List.mem_flatMap.mpr ⟨tree, htree, hstage⟩
      simp [beforeRemoval, this]
  · intro hraise
    rcases performed_append hraise with hbefore | ⟨k', hk'⟩
    · exact h.clean hbefore
    · obtain ⟨-, rfl⟩ := Event.host.inj hk'
      cases hact

/-- A step of the bootstrap script keeps the invariant. -/
theorem Inv.bootstrap {s : State} {e : Event} (h : Inv env trees past s) (he : ∀ k a, e ≠ .host k a)
    (hboot : bootstrap env s.boot s.world.container = some (boot', files')) :
    Inv env trees (past ++ [e])
      { s with world := { s.world with container := files' }, boot := boot' } := by
  have hcreated : s.boot ≠ .created := by
    intro hcreated
    rw [hcreated] at hboot
    cases hboot
  have hiff : ∀ a, Performed (past ++ [e]) a ↔ Performed past a := fun a => performed_append_iff he
  have hlock := h.lock (h.started hcreated)
  refine ⟨h.progress.mono fun _ _ ha => ha.mono e, fun a ha => h.planned a ((hiff a).mp ha), ?_,
    fun _ => (h.started hcreated).mono e, ?_, ?_, ?_, fun hraise => h.clean ((hiff _).mp hraise)⟩
  · intro path content hwrite
    simp only [hiff] at hwrite ⊢
    exact h.written path content hwrite
  · intro _ hremoved
    rw [hiff] at hremoved
    by_cases hinit : s.boot = .initSh
    · exact absurd (h.released (.inl hinit)) hremoved
    · exact bootstrap_lock hboot hinit (hlock hremoved)
  · intro hreleased
    rw [hiff]
    rcases bootstrap_released hboot hreleased with hbefore | ⟨-, hnone⟩
    · exact h.released hbefore
    · by_contra hremoved
      exact hlock hremoved hnone
  · intro hremoved
    rw [hiff] at hremoved
    exact (h.done hremoved).mono e

/-- **Every step keeps the invariant.** -/
theorem Inv.step {s t : State} {e : Event} (h : Inv env trees past s) (hstep : step env s e = some t) :
    Inv env trees (past ++ [e]) t := by
  -- a step that changes neither the files nor what is performed
  have hquiet : ∀ boot todo, (∀ k a, e ≠ .host k a) →
      Progress (provision env trees) (InOrder past) todo →
      (boot ≠ .created → s.boot ≠ .created) → (boot.Released → s.boot.Released) →
      Inv env trees (past ++ [e]) ⟨s.world, boot, todo⟩ := by
    intro boot todo he htodo hcreated hreleased
    have hiff : ∀ a, Performed (past ++ [e]) a ↔ Performed past a := fun a => performed_append_iff he
    refine ⟨htodo.mono fun _ _ ha => ha.mono e, fun a ha => h.planned a ((hiff a).mp ha), ?_,
      fun hb => (h.started (hcreated hb)).mono e, ?_,
      fun hb => (h.released (hreleased hb)).mono e, fun hr => (h.done ((hiff _).mp hr)).mono e,
      fun hraise => h.clean ((hiff _).mp hraise)⟩
    · intro path content hwrite
      simp only [hiff] at hwrite ⊢
      exact h.written path content hwrite
    · intro hdcp hremoved
      rw [hiff] at hdcp hremoved
      exact h.lock hdcp hremoved
  cases e with
  | host k a => exact h.host hstep
  | hostFails =>
    cases hstep
    exact hquiet s.boot _ (by simp) (h.progress.breakOff (inOrder_nil past)) id id
  | container =>
    rw [InitProtocol.step] at hstep
    split at hstep
    · cases hstep
    · obtain ⟨x, hx, rfl⟩ := Option.map_eq_some_iff.mp hstep
      exact h.bootstrap (by simp) hx
  | stops =>
    obtain ⟨hrunning, heq⟩ := Option.ite_none_right_eq_some.mp hstep
    cases heq
    exact hquiet .down s.todo (by simp) h.progress (fun _ => hrunning.1) (by simp [Boot.Released])
  | restarts =>
    obtain ⟨hcreated, heq⟩ := Option.ite_none_left_eq_some.mp hstep
    cases heq
    exact hquiet .profile s.todo (by simp) h.progress (fun _ => hcreated) (by simp [Boot.Released])
  | sourcesInit =>
    rw [InitProtocol.step] at hstep
    split at hstep
    · obtain ⟨x, hx, rfl⟩ := Option.map_eq_some_iff.mp hstep
      exact h.bootstrap (by simp) hx
    · cases hstep

/-- Every run keeps the invariant. -/
theorem Inv.of_run {world : World} {events : List Event} {s : State}
    (hrun : Run (Steps env) (beginning env trees world) events s) :
    Inv env trees events s := by
  have hinv := hrun.invariant_trace (Inv env trees) (fun past s e t h hstep => h.step hstep)
    (inv_beginning env trees world)
  simpa using hinv

/-! ## The files of the trees -/

/-- What the stages of a tree write on the host are sources. -/
theorem source_of_mem {stage : Stage Action} {path content : Text} (htree : tree ∈ trees)
    (hstage : stage ∈ processTemplateTree env tree) (hmem : .write path content ∈ stage.actions) :
    Source env trees path content := by
  obtain ⟨thread, hthread, ha⟩ := List.mem_flatten.mp hmem
  simp only [processTemplateTree, List.mem_cons, List.not_mem_nil, or_false] at hstage
  rcases hstage with rfl | rfl | rfl | rfl | rfl
  · obtain ⟨t, -, rfl⟩ := List.mem_map.mp hthread
    unfold processTemplateDir at ha
    split at ha <;> simp [setPermissions] at ha
  · obtain rfl := List.mem_singleton.mp hthread
    obtain ⟨t, -, ht⟩ := List.mem_flatMap.mp ha
    unfold processTemplateIterate at ht
    split at ht <;> simp at ht
  · obtain ⟨t, hmem, rfl⟩ := List.mem_map.mp hthread
    unfold processTemplateFile at ha
    split at ha
    · simp at ha
    · rename_i job hjob
      obtain ⟨hpath, hcontent⟩ : path = tmpName env.processor.container job.dest ∧ content = job.content := by
        simpa [push, setPermissions] using ha
      exact ⟨tree, htree, .inl ⟨t, hmem, job, hjob, hpath, hcontent⟩⟩
  · obtain ⟨t, -, rfl⟩ := List.mem_map.mp hthread
    unfold processTemplatePlain at ha
    split at ha <;> simp [setPermissions] at ha
  · obtain rfl := List.mem_singleton.mp hthread
    obtain ⟨job, hjob, hpath, hcontent⟩ : ∃ job ∈ env.pushes tree.tDir,
        path = tmpName env.processor.container job.dest ∧ content = job.content := by
      simpa [processConfigureScripts, push] using ha
    exact ⟨tree, htree, .inr ⟨job, hjob, hpath, hcontent⟩⟩

/-- What the host has written are sources. -/
theorem Inv.source {s : State} {path content : Text} (h : Inv env trees past s)
    (hwrite : Performed past (.write path content)) : Source env trees path content := by
  obtain ⟨stage, hstage, hmem⟩ := h.planned _ hwrite
  simp only [provision, createInitLock, removeInitLock, List.mem_append, List.mem_cons, List.not_mem_nil,
    or_false, List.mem_flatMap] at hstage
  rcases hstage with (((((rfl | rfl) | rfl | rfl | rfl) | ⟨tree, htree, hstage⟩) | rfl | rfl) | rfl)
  case inl.inl.inr => exact source_of_mem htree hstage hmem
  all_goals simp [Stage.actions, solo] at hmem

/-- A file that nothing deletes stays when the host performs an action. -/
theorem act_container {path : Text} (hleaves : env.Leaves path)
    (h : act env a w boot = some (w', boot')) (hpath : w.container path ≠ none) :
    w'.container path ≠ none := by
  cases a with
  | touch path' => cases h; exact hpath
  | write path' content => cases h; exact hpath
  | dcp src dst =>
    obtain ⟨-, content, -, rfl⟩ := dcp_container h
    exact update_ne_none content hpath
  | dstart => cases h; exact hpath
  | dexec command =>
    obtain ⟨-, heq⟩ := Option.ite_none_right_eq_some.mp h
    cases heq
    exact hleaves.dexec command _ hpath
  | removeLock =>
    obtain ⟨-, heq⟩ := Option.ite_none_right_eq_some.mp h
    cases heq
    have hne : path ≠ lockFile := fun heq => hleaves.bootstrap (by simp [heq])
    exact (Function.update_of_ne hne ..).trans_ne hpath
  | raise => cases h
  | _ =>
    obtain ⟨-, heq⟩ := Option.ite_none_right_eq_some.mp h
    cases heq
    exact hpath

/-- Such a file stays when it or another is sourced. -/
theorem sourceFile_leaves {path : Text} (hleaves : env.Leaves path) (file : Text) (h : files path ≠ none) :
    sourceFile env file files path ≠ none := by
  cases hfile : files file with
  | none =>
    rw [sourceFile, hfile]
    exact h
  | some contents =>
    rw [sourceFile, hfile]
    exact hleaves.source contents files h

/-- Such a file stays when the bootstrap script performs a step. -/
theorem bootstrap_container {path : Text} (hleaves : env.Leaves path)
    (h : bootstrap env boot files = some (boot', files')) (hpath : files path ≠ none) :
    files' path ≠ none := by
  have hlog : ∀ line files, files path ≠ none → initLog line files path ≠ none :=
    fun line files h => update_ne_none _ h
  have hremove : ∀ file ∈ ["/after-create".toList, "/etc/first_run.sh".toList],
      removeFile file files path ≠ none := by
    intro file hfile
    have hne : path ≠ file := by
      rintro rfl
      exact hleaves.bootstrap (List.mem_cons_of_mem _ hfile)
    rwa [removeFile, Function.update_of_ne hne]
  cases boot with
  | created => cases h
  | down => cases h
  | profile => cases h; exact hlog _ _ (sourceFile_leaves hleaves _ hpath)
  | afterCreate =>
    rw [bootstrap] at h
    split at h <;> cases h
    · exact hlog _ _ hpath
    · exact sourceFile_leaves hleaves _ hpath
  | afterCreateDone => cases h; exact hlog _ _ (hremove _ (by simp))
  | firstRun =>
    rw [bootstrap] at h
    split at h <;> cases h
    · exact hlog _ _ hpath
    · exact sourceFile_leaves hleaves _ hpath
  | firstRunDone => cases h; exact hlog _ _ (hremove _ (by simp))
  | lockWait =>
    rw [bootstrap] at h
    split at h <;> cases h
    · exact hlog _ _ hpath
    · exact hpath
  | initSh =>
    rw [bootstrap] at h
    split at h <;> cases h
    · exact hpath
    · exact hleaves.sourceInit _ files hpath
  | idle => cases h; exact hpath

/-- **Such a file stays in the container** at every step. -/
theorem step_container {s t : State} {e : Event} {path : Text} (hleaves : env.Leaves path)
    (hpath : s.world.container path ≠ none) (hstep : Steps env s e t) : t.world.container path ≠ none := by
  cases e with
  | host k a =>
    obtain ⟨todo, -, hrest⟩ := Option.bind_eq_some_iff.mp hstep
    obtain ⟨⟨world, boot⟩, hact, ht⟩ := Option.bind_eq_some_iff.mp hrest
    cases ht
    exact act_container hleaves hact hpath
  | hostFails => cases hstep; exact hpath
  | container =>
    obtain ⟨-, heq⟩ := Option.ite_none_left_eq_some.mp hstep
    obtain ⟨x, hx, rfl⟩ := Option.map_eq_some_iff.mp heq
    exact bootstrap_container hleaves hx hpath
  | stops =>
    obtain ⟨-, heq⟩ := Option.ite_none_right_eq_some.mp hstep
    cases heq
    exact hpath
  | restarts =>
    obtain ⟨-, heq⟩ := Option.ite_none_left_eq_some.mp hstep
    cases heq
    exact hpath
  | sourcesInit =>
    obtain ⟨-, heq⟩ := Option.ite_none_right_eq_some.mp hstep
    obtain ⟨x, hx, rfl⟩ := Option.map_eq_some_iff.mp heq
    exact bootstrap_container hleaves hx hpath

/-- When the host copies a file into the container, the file is there: it has what its source had then. -/
theorem placed_of_run {start now : State} {before after : List Event} {k : Nat} {src dst : Text}
    (hrun : Run (Steps env) start (before ++ .host k (.dcp src dst) :: after) now) :
    ∃ s content, Run (Steps env) start before s ∧ s.world.host src = some content ∧
      Placed env start (before ++ .host k (.dcp src dst) :: after) now src dst content := by
  obtain ⟨s, hbefore, hrest⟩ := Run.append_iff.mp hrun
  obtain ⟨t, hstep, hafter⟩ := Run.cons_iff.mp hrest
  obtain ⟨todo, -, hacted⟩ := Option.bind_eq_some_iff.mp hstep
  obtain ⟨⟨world, boot⟩, hact, ht⟩ := Option.bind_eq_some_iff.mp hacted
  cases ht
  obtain ⟨-, content, hsrc, hworld⟩ := dcp_container hact
  have hcontainer : world.container = Function.update s.world.container dst (some content) := by
    rw [hworld]
  refine ⟨s, content, hbefore, hsrc, ⟨before, k, after, s, _, rfl, hbefore, hstep, hsrc, hcontainer⟩, ?_⟩
  intro hleaves
  -- it stays for the rest of the run
  refine hafter.invariant (fun s => s.world.container dst ≠ none) ?_ (by simp [hcontainer])
  exact fun s e t hs hst => step_container hleaves hs hst

/-- A file that was pushed is in place, with what was written under its temporary name. -/
theorem placed_of_push {world : World} {now : State} {k : Nat} {job : Job}
    (hrun : Run (Steps env) (beginning env trees world) past now) (hpush : InOrder past k (push env job)) :
    ∃ content, Source env trees (tmpName env.processor.container job.dest) content ∧
      Placed env (beginning env trees world) past now (tmpName env.processor.container job.dest) job.dest
        content := by
  obtain ⟨front, rest, rfl, hwrite, hdcp⟩ := List.cons_sublist_iff.mp hpush
  obtain ⟨middle, after, rfl⟩ := List.append_of_mem (List.singleton_sublist.mp hdcp)
  rw [← List.append_assoc] at hrun ⊢
  obtain ⟨s, content, hbefore, hsrc, hplaced⟩ := placed_of_run hrun
  have hinv := Inv.of_run hbefore
  -- the write came before the copy, so the temporary file has what was last written there
  obtain ⟨written, hwritten, hpath⟩ := hinv.written (tmpName env.processor.container job.dest) job.content
    ⟨k, List.mem_append_left middle hwrite⟩
  obtain rfl := Option.some.inj (hpath.symm.trans hsrc)
  exact ⟨_, hinv.source hwritten, hplaced⟩

/-- A file that was copied is in place. -/
theorem placed_of_performed {world : World} {now : State} {src dst : Text}
    (hrun : Run (Steps env) (beginning env trees world) past now) (hdcp : Performed past (.dcp src dst)) :
    ∃ content, Placed env (beginning env trees world) past now src dst content := by
  obtain ⟨k, hk⟩ := hdcp
  obtain ⟨before, after, rfl⟩ := List.append_of_mem hk
  obtain ⟨-, content, -, -, hplaced⟩ := placed_of_run hrun
  exact ⟨content, hplaced⟩

/-- When its threads are through, the files of a tree are in place. -/
theorem TreesDone.inPlace {world : World} {now : State}
    (hrun : Run (Steps env) (beginning env trees world) past now) (h : TreesDone env trees past)
    (htree : tree ∈ trees) : InPlace env trees (beginning env trees world) past now tree := by
  have hclean := (Inv.of_run hrun).clean
  -- the thread of a file in one of the passes is through
  have hthread : ∀ stage ∈ processTemplateTree env tree, ∀ thread ∈ stage, ∃ k, InOrder past k thread := by
    intro stage hstage thread hmem
    obtain ⟨k, hk⟩ := List.mem_iff_getElem?.mp hmem
    exact ⟨k, h tree htree stage hstage k thread hk⟩
  constructor
  · intro t ht
    obtain ⟨k, hk⟩ := hthread (tree.erbFiles.map (processTemplateFile env tree.tDir))
      (by simp [processTemplateTree]) _ (List.mem_map_of_mem ht)
    cases hjob : env.processor.transform tree.tDir t with
    | none => exact absurd (hk.performed (by simp [processTemplateFile, hjob])) hclean
    | some job =>
      rw [processTemplateFile, hjob] at hk
      have hpush : InOrder past k (push env job) :=
        ((List.sublist_append_left ..).map _).trans hk
      obtain ⟨content, hsource, hplaced⟩ := placed_of_push hrun hpush
      exact ⟨job, content, rfl, hsource, hplaced⟩
  · intro t ht
    obtain ⟨k, hk⟩ := hthread (tree.plainFiles.map (processTemplatePlain env tree.tDir))
      (by simp [processTemplateTree]) _ (List.mem_map_of_mem ht)
    cases hdest : env.processor.plainDestination tree.tDir t with
    | none => exact absurd (hk.performed (by simp [processTemplatePlain, hdest])) hclean
    | some dest =>
      obtain ⟨content, hplaced⟩ := placed_of_performed hrun
        (hk.performed (a := .dcp t.path dest) (by simp [processTemplatePlain, hdest]))
      exact ⟨dest, content, rfl, hplaced⟩

/-- **The order of the initialisation.** Whatever the interleaving of host and container, with any number of restarts
and with a failure of the host after any step: when `/etc/init.sh` is sourced, the host has removed the lock, the
threads of all passes over the trees are through, and every file of the trees has been put into the container. -/
theorem init_after_trees {world : World} {rest : List Event} {s : State}
    (hrun : Run (Steps env) (beginning env trees world) (past ++ .sourcesInit :: rest) s) :
    ∃ now, Run (Steps env) (beginning env trees world) past now ∧ now.boot = .initSh ∧
      Performed past .removeLock ∧ TreesDone env trees past ∧
      ∀ tree ∈ trees, InPlace env trees (beginning env trees world) past now tree := by
  obtain ⟨now, hpast, hrest⟩ := Run.append_iff.mp hrun
  obtain ⟨u, hstep, -⟩ := Run.cons_iff.mp hrest
  have hinv := Inv.of_run hpast
  have hinit : now.boot = .initSh := (Option.ite_none_right_eq_some.mp hstep).1
  have hremoved := hinv.released (.inl hinit)
  have hdone := hinv.done hremoved
  exact ⟨now, hpast, hinit, hremoved, hdone, fun tree htree => hdone.inPlace hpast htree⟩

/-- Nothing happens to the files. -/
def Effect.none : Effect := ⟨id, fun _ h => h⟩

/-- An environment without surprises. -/
def quietEnvironment : Environment where
  processor := ⟨"hadoop".toList, some, fun _ _ => true⟩
  dexec := fun _ => .none
  source := fun _ => .none
  sourceInit := fun _ => id
  permissions := fun _ _ => []
  iterates := fun _ => false
  configure := fun _ => []
  pushes := fun _ => []
  firstRun := fun _ => []

/-- A tree with one template, for `/etc/init.sh`. -/
def initTree : TemplateTree :=
  ⟨"/templates".toList, [⟨"/templates/etc/init.sh.erb".toList, "service hadoop start\n".toList⟩]⟩

/-- Events up to the sourcing of `/etc/init.sh`: the container is restarted while the host is at work. -/
def initEvents : List Event :=
  [.host 0 (.touch hostLock), .host 0 (.dcp hostLock lockFile), .host 0 .dstart, .container,
    .host 0 .waitUntilRunning, .host 0 (.dexec "mkdir -p /opt/gex/config/".toList), .container, .stops,
    .restarts, .container, .container, .container, .container,
    .host 0 (.write "/tmp/hadoop_etc_init.sh".toList "service hadoop start\n".toList),
    .host 0 (.dcp "/tmp/hadoop_etc_init.sh".toList "/etc/init.sh".toList),
    .host 0 (.assertDpath lockFile), .host 0 .removeLock, .container]

/-- The events can happen, and then the template is in place. -/
theorem init_after_trees_restart : ∃ s now,
    Run (Steps quietEnvironment) (beginning quietEnvironment [initTree] ⟨fun _ => none, fun _ => none⟩)
      (initEvents ++ .sourcesInit :: []) s ∧
    Run (Steps quietEnvironment) (beginning quietEnvironment [initTree] ⟨fun _ => none, fun _ => none⟩)
      initEvents now ∧ now.boot = .initSh ∧
    InPlace quietEnvironment [initTree]
      (beginning quietEnvironment [initTree] ⟨fun _ => none, fun _ => none⟩) initEvents now initTree := by
  have hdone : ((initEvents ++ [Event.sourcesInit]).foldlM (step quietEnvironment)
      (beginning quietEnvironment [initTree] ⟨fun _ => none, fun _ => none⟩)).isSome = true := by
    decide +kernel
  obtain ⟨s, hs⟩ := Option.isSome_iff_exists.mp hdone
  have hrun : Run (Steps quietEnvironment) _ _ s := foldlM_eq_some_iff.mp hs
  obtain ⟨now, hnow, hinit, -, -, hplaces⟩ := init_after_trees hrun
  exact ⟨s, now, hrun, hnow, hinit, hplaces initTree (List.mem_singleton_self _)⟩

end InitProtocol

end GexCloud
