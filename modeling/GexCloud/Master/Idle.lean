import GexCloud.Base.Ruby
import GexCloud.Support.Decimal
import GexCloud.Support.Glob
import GexCloud.Support.Runs

/-! # `master/Rakefile`: idle clusters

The containers of cluster `k` are two services, `hadoop-master-k` and `hue-master-k`. A cluster found
idle is marked by a file `hadoop-master-k.disabled` beside the service files; the tasks of the `Rakefile`
mark clusters, stop marked ones, and start and stop the services.

* `Service`, `Task`, `Command` — the services, the tasks with what they find outside, and the calls of
  `systemctl`.
* `stopIdle`, `markIdle`, `startContainers`, `stopContainers` — the tasks, on the names of the files.
* `Inv` — which files there can be.
* `Lawful` — what the commands of a task should be; `Careful` — when they are.
* **`lawful_iff`** — in every reachable state a task is lawful exactly when it is careful.

`name.sub!` changes `name` itself and returns nil when there is nothing to replace, which an interpolated
string shows as nothing. -/

namespace GexCloud.Master

open Texts Glob Runs

/-! ## Services and their files -/

/-- What runs in a container. -/
inductive Framework
  | hadoop
  | hue
  deriving DecidableEq

/-- The framework as it stands in a name. -/
def Framework.text : Framework → Text
  | .hadoop => "hadoop".toList
  | .hue => "hue".toList

/-- A service of a cluster. -/
structure Service where
  framework : Framework
  cluster : Nat
  deriving DecidableEq

/-- The name of a service. -/
def Service.name (s : Service) : Text := s.framework.text ++ ("-master-".toList ++ decimal s.cluster)

/-- The service file. -/
def Service.file (s : Service) : Text := s.name ++ ".service".toList

/-- The marker of a cluster. -/
def marker (k : Nat) : Text := Service.name ⟨.hadoop, k⟩ ++ ".disabled".toList

/-! ## The tasks -/

/-- A call of `systemctl` for the service `#{name}.service`. -/
inductive Command
  | start (name : Text)
  | stop (name : Text)
  deriving DecidableEq

/-- `Dir["/etc/systemd/system/#{pattern}"]`. -/
def glob (pattern : Text) (files : List Text) : List Text := files.filter (fnmatch pattern)

/-- `File.basename file, suffix`. -/
def basename (file suffix : Text) : Text :=
  if suffix <:+ file ∧ file ≠ suffix then file.take (file.length - suffix.length) else file

/-- `#{value}`. -/
def interpolate (value : Option Text) : Text := value.getD []

/-- `touch /etc/systemd/system/#{file}`. -/
def touch (file : Text) (files : List Text) : List Text := if file ∈ files then files else files ++ [file]

/-- The task `stop_idle`. -/
def stopIdle (age : Text → Int) (files : List Text) : List Command :=
  (glob "*.disabled".toList files).flatMap fun file =>
    if 3600 < age file then
      let name := basename file ".disabled".toList
      let hueName := sub "hadoop".toList "hue".toList name
      [.stop name, .stop (interpolate hueName)]
    else []

/-- The task `mark_idle`; `hosts` and `report` are what the two commands in the container print. -/
def markIdle (age : Text → Int) (hosts report : Text → Text) (files : List Text) : List Text :=
  (glob "hadoop-master-*.service".toList files).foldl (fun files file =>
    if 300 < age file then
      let name := basename file ".service".toList
      let files := if strip (hosts name) = [] then touch (name ++ ".disabled".toList) files else files
      if strip (report name) = [] then touch (name ++ ".disabled".toList) files else files
    else files) files

/-- The task `start_containers`. Both tests read `name`, the second one after `sub!`. -/
def startContainers (files : List Text) : List Command :=
  (glob "h*-*.service".toList files).flatMap fun file =>
    let name := basename file ".service".toList
    let hueName := sub "hadoop".toList "hue".toList name
    let name' := hueName.getD name
    (if name ++ ".disabled".toList ∈ files then [] else [Command.start name]) ++
      if name' ++ ".disabled".toList ∈ files then [] else [.start (interpolate hueName)]

/-- The task `stop_containers`. -/
def stopContainers (files : List Text) : List Command :=
  (glob "h*-*.service".toList files).flatMap fun file =>
    let name := basename file ".service".toList
    let hueName := sub "hadoop".toList "hue".toList name
    [.stop name, .stop (interpolate hueName)]

/-- A task, with the ages of the files and the reports of the containers it finds. -/
inductive Task
  | stopIdle (age : Text → Int)
  | markIdle (age : Text → Int) (hosts report : Text → Text)
  | startContainers
  | stopContainers

/-- The calls of `systemctl` that a task makes. -/
def commands (files : List Text) : Task → List Command
  | .stopIdle age => Master.stopIdle age files
  | .markIdle _ _ _ => []
  | .startContainers => Master.startContainers files
  | .stopContainers => Master.stopContainers files

/-- The files after a task. -/
def perform (files : List Text) : Task → List Text
  | .markIdle age hosts report => Master.markIdle age hosts report files
  | _ => files

/-! ## The law -/

/-- **What the commands of a task should be.** No name is empty; `start_containers` starts exactly the
services whose cluster has no marker; `stop_idle` stops only the two services of clusters that have been
marked for more than an hour. -/
def Lawful (services : List Service) (files : List Text) (task : Task) : Prop :=
  (∀ c ∈ commands files task, c ≠ .start [] ∧ c ≠ .stop []) ∧
    match task with
    | .startContainers => ∀ name, .start name ∈ commands files task ↔
        ∃ s ∈ services, marker s.cluster ∉ files ∧ name = s.name
    | .stopIdle age => ∀ name, .stop name ∈ commands files task →
        ∃ k framework, marker k ∈ files ∧ 3600 < age (marker k) ∧ name = Service.name ⟨framework, k⟩
    | _ => True

/-- **Where a task keeps to the law.** `start_containers` needs a host without services, `stop_containers`
one without `hue` services. -/
def Careful (services : List Service) : Task → Prop
  | .startContainers => services = []
  | .stopContainers => ∀ s ∈ services, s.framework ≠ .hue
  | _ => True

/-! ## Names -/

variable {s s' : Service} {k : Nat} {services : List Service} {files : List Text}

/-- Every service has a name. -/
theorem Service.name_ne_nil (s : Service) : s.name ≠ [] := by
  rcases s with ⟨_ | _, k⟩ <;> exact List.cons_ne_nil _ _

/-- The second letter of a name is that of its framework. -/
theorem Service.name_second (s : Service) : s.name[1]? = s.framework.text[1]? := by
  rcases s with ⟨_ | _, k⟩ <;> rfl

/-- The second letter tells the frameworks apart. -/
theorem Framework.second_injective : Function.Injective fun f : Framework => f.text[1]? := by
  intro f f' h
  revert h
  cases f <;> cases f' <;> decide

/-- Different services have different names. -/
theorem Service.name_injective : Function.Injective Service.name := by
  rintro ⟨f, k⟩ ⟨f', k'⟩ h
  have hsecond : (Service.name ⟨f, k⟩)[1]? = (Service.name ⟨f', k'⟩)[1]? := by rw [h]
  rw [name_second, name_second] at hsecond
  obtain rfl : f = f' := Framework.second_injective hsecond
  rw [name, name, List.append_cancel_left_eq, List.append_cancel_left_eq] at h
  rw [show k = k' from decimal_injective h]

/-- A name without its suffix. -/
theorem basename_append {name suffix : Text} (h : name ≠ []) : basename (name ++ suffix) suffix = name := by
  have hne : name ++ suffix ≠ suffix := by
    intro heq
    exact h (List.append_left_eq_self.mp heq)
  rw [basename, if_pos ⟨List.suffix_append name suffix, hne⟩, List.length_append, Nat.add_sub_cancel,
    List.take_left]

/-- The partner of a `hadoop` service is found. -/
@[simp] theorem sub_hadoop (k : Nat) : sub "hadoop".toList "hue".toList (Service.name ⟨.hadoop, k⟩) =
    some (Service.name ⟨.hue, k⟩) := by
  have hpre : "hadoop".toList <+: Service.name ⟨.hadoop, k⟩ := List.prefix_append _ _
  exact if_pos hpre

/-- A `hue` service has nothing to replace. -/
@[simp] theorem sub_hue (k : Nat) : sub "hadoop".toList "hue".toList (Service.name ⟨.hue, k⟩) = none := by
  apply sub_eq_none (c := 'o') (by decide)
  rw [Service.name, List.mem_append, List.mem_append, not_or, not_or]
  have hframework : 'o' ∉ Framework.hue.text := by decide
  exact ⟨hframework, by decide, not_mem_decimal (by decide)⟩

/-- The name in the second call of a loop. -/
def Service.partner (s : Service) : Text := interpolate (sub "hadoop".toList "hue".toList s.name)

/-- The other service of Hadoop is Hue. -/
@[simp] theorem partner_hadoop (k : Nat) : Service.partner ⟨.hadoop, k⟩ = Service.name ⟨.hue, k⟩ := by
  rw [Service.partner, sub_hadoop]
  rfl

/-- Hue has none. -/
@[simp] theorem partner_hue (k : Nat) : Service.partner ⟨.hue, k⟩ = [] := by
  rw [Service.partner, sub_hue]
  rfl

/-! ## Files

Which file a pattern finds is decided by the beginning and the ending of its name. -/

/-- The last letter tells markers and service files apart. -/
theorem append_disabled_ne_file (name : Text) (s : Service) : name ++ ".disabled".toList ≠ s.file := by
  intro h
  have hlast : (name ++ ".disabled".toList).getLast? = s.file.getLast? := by rw [h]
  rw [Service.file, List.getLast?_append_of_ne_nil _ (by decide),
    List.getLast?_append_of_ne_nil _ (by decide)] at hlast
  exact absurd hlast (by decide)

/-- Different services have different files. -/
theorem Service.file_injective : Function.Injective Service.file := fun _ _ h =>
  name_injective (List.append_cancel_right h)

/-- The markers of different clusters are different files. -/
theorem marker_injective : Function.Injective marker := by
  intro k k' h
  exact congrArg Service.cluster (Service.name_injective (List.append_cancel_right h))

/-- A service file and a marker are no hidden files. -/
theorem not_hidden (s : Service) (suffix : Text) : ¬ Hidden (s.name ++ suffix) := by
  have hhead : (s.name ++ suffix).head? = some 'h' := by
    rcases s with ⟨_ | _, k⟩ <;> rfl
  rw [Hidden, hhead]
  decide

/-- `*.disabled` finds the markers. -/
theorem fnmatch_disabled_marker (k : Nat) : fnmatch "*.disabled".toList (marker k) = true := by
  refine (fnmatch_star_iff (p := ".disabled".toList) (by decide) _).mpr ⟨not_hidden _ _, ?_⟩
  exact List.suffix_append _ _

/-- `*.disabled` finds no service files. -/
theorem fnmatch_disabled_file (s : Service) : ¬ fnmatch "*.disabled".toList s.file = true := by
  intro h
  obtain ⟨name, hname⟩ := ((fnmatch_star_iff (p := ".disabled".toList) (by decide) _).mp h).2
  exact append_disabled_ne_file name s hname

/-- What ends with `.service` is no marker. -/
theorem not_service_suffix (k : Nat) : ¬ ".service".toList <:+ marker k := by
  intro h
  have hlast := getLast?_eq_of_suffix h (List.suffix_append _ ".disabled".toList) (by decide) (by decide)
  exact absurd hlast (by decide)

/-- `h*-*.service` finds the service files. -/
theorem fnmatch_services_file (s : Service) : fnmatch "h*-*.service".toList s.file = true := by
  rw [Service.file, fnmatch_of_not_hidden (not_hidden s _)]
  have hend : wild ("-".toList ++ "*.service".toList)
      ("-".toList ++ ("master-".toList ++ decimal s.cluster ++ ".service".toList)) = true := by
    refine (wild_append_iff (by decide)).mpr ⟨_, rfl, wild_star_append ?_ _⟩
    exact (wild_literal (by decide) _).trans (by decide)
  refine (wild_append_iff (l := "h".toList) (by decide)).mpr ?_
  rcases s with ⟨_ | _, k⟩
  · exact ⟨_, rfl, wild_star_append hend "adoop".toList⟩
  · exact ⟨_, rfl, wild_star_append hend "ue".toList⟩

/-- A pattern with the ending `*.service` finds no markers. -/
theorem fnmatch_service_marker (p : Text) (k : Nat) :
    ¬ fnmatch (p ++ '*' :: ".service".toList) (marker k) = true := by
  rw [marker, fnmatch_of_not_hidden (not_hidden _ _)]
  exact fun h => not_service_suffix k (suffix_of_wild (by decide) h)

/-- `hadoop-master-*.service` finds the service files of `hadoop`. -/
theorem fnmatch_masters_file (s : Service) :
    fnmatch "hadoop-master-*.service".toList s.file = true ↔ s.framework = .hadoop := by
  rw [Service.file, fnmatch_of_not_hidden (not_hidden s _)]
  constructor
  · intro h
    obtain ⟨t, ht, -⟩ := (wild_append_iff (l := "hadoop-master-".toList) (p := "*.service".toList)
      (by decide)).mp h
    have hsecond := congrArg (fun name => name[1]?) ht
    have hname : (s.name ++ ".service".toList)[1]? = s.framework.text[1]? := by
      rcases s with ⟨_ | _, k⟩ <;> rfl
    exact Framework.second_injective (hname.symm.trans hsecond)
  · rcases s with ⟨_ | _, k⟩
    · intro _
      refine (wild_append_iff (l := "hadoop-master-".toList) (by decide)).mpr
        ⟨decimal k ++ ".service".toList, ?_, wild_star_append ?_ _⟩
      · exact List.append_assoc "hadoop-master-".toList (decimal k) _
      · exact (wild_literal (by decide) _).trans (by decide)
    · intro h
      cases h

/-! ## Which files there can be -/

/-- **The files of a reachable state**: the service files, and markers of clusters with a `hadoop`
service. -/
structure Inv (services : List Service) (files : List Text) : Prop where
  present : ∀ s ∈ services, s.file ∈ files
  known : ∀ file ∈ files, (∃ s ∈ services, file = s.file) ∨
    ∃ k, Service.mk .hadoop k ∈ services ∧ file = marker k

/-- The services alone. -/
theorem Inv.start (services : List Service) : Inv services (services.map Service.file) := by
  refine ⟨fun s hs => List.mem_map_of_mem hs, ?_⟩
  intro file hfile
  obtain ⟨s, hs, rfl⟩ := List.mem_map.mp hfile
  exact .inl ⟨s, hs, rfl⟩

/-- A marker of a cluster with a `hadoop` service can be added. -/
theorem Inv.add_marker (h : Inv services files) (hk : Service.mk .hadoop k ∈ services) :
    Inv services (touch (marker k) files) := by
  unfold touch
  split
  · exact h
  · refine ⟨fun s hs => List.mem_append_left _ (h.present s hs), ?_⟩
    intro file hfile
    rcases List.mem_append.mp hfile with hfile | hfile
    · exact h.known file hfile
    · exact .inr ⟨k, hk, List.mem_singleton.mp hfile⟩

/-- What `h*-*.service` finds. -/
theorem Inv.mem_services_iff (h : Inv services files) {file : Text} :
    file ∈ glob "h*-*.service".toList files ↔ ∃ s ∈ services, file = s.file := by
  rw [glob, List.mem_filter]
  constructor
  · rintro ⟨hmem, hmatch⟩
    rcases h.known file hmem with hs | ⟨k, -, rfl⟩
    · exact hs
    · exact absurd hmatch (fnmatch_service_marker "h*-".toList k)
  · rintro ⟨s, hs, rfl⟩
    exact ⟨h.present s hs, fnmatch_services_file s⟩

/-- What `hadoop-master-*.service` finds. -/
theorem Inv.of_mem_masters (h : Inv services files) {file : Text}
    (hfile : file ∈ glob "hadoop-master-*.service".toList files) :
    ∃ k, Service.mk .hadoop k ∈ services ∧ file = Service.file ⟨.hadoop, k⟩ := by
  rw [glob, List.mem_filter] at hfile
  obtain ⟨hmem, hmatch⟩ := hfile
  rcases h.known file hmem with ⟨⟨framework, k⟩, hs, rfl⟩ | ⟨k, -, rfl⟩
  · obtain rfl : framework = .hadoop := (fnmatch_masters_file _).mp hmatch
    exact ⟨k, hs, rfl⟩
  · exact absurd hmatch (fnmatch_service_marker "hadoop-master-".toList k)

/-- What `*.disabled` finds. -/
theorem Inv.of_mem_disabled (h : Inv services files) {file : Text}
    (hfile : file ∈ glob "*.disabled".toList files) : ∃ k, file = marker k ∧ marker k ∈ files := by
  rw [glob, List.mem_filter] at hfile
  obtain ⟨hmem, hmatch⟩ := hfile
  rcases h.known file hmem with ⟨s, -, rfl⟩ | ⟨k, -, rfl⟩
  · exact absurd hmatch (fnmatch_disabled_file s)
  · exact ⟨k, rfl, hmem⟩

/-- A `hue` service has no marker of its own. -/
theorem Inv.hue_not_mem (h : Inv services files) (k : Nat) :
    Service.name ⟨.hue, k⟩ ++ ".disabled".toList ∉ files := by
  intro hmem
  rcases h.known _ hmem with ⟨s, -, hs⟩ | ⟨k', -, hk⟩
  · exact append_disabled_ne_file _ s hs
  · cases Service.name_injective (List.append_cancel_right hk)

/-- `mark_idle` adds markers of clusters with a `hadoop` service. -/
theorem Inv.mark (h : Inv services files) (age : Text → Int) (hosts report : Text → Text) :
    Inv services (markIdle age hosts report files) := by
  have hfound : ∀ file ∈ glob "hadoop-master-*.service".toList files, ∃ k,
      Service.mk .hadoop k ∈ services ∧ file = Service.file ⟨.hadoop, k⟩ := fun _ => h.of_mem_masters
  unfold markIdle
  generalize glob "hadoop-master-*.service".toList files = found at hfound ⊢
  induction found generalizing files with
  | nil => exact h
  | cons file found ih =>
    obtain ⟨k, hk, rfl⟩ := hfound file List.mem_cons_self
    have hname : basename (Service.file ⟨.hadoop, k⟩) ".service".toList = Service.name ⟨.hadoop, k⟩ :=
      basename_append (Service.name_ne_nil _)
    have hfirst : Inv services (if strip (hosts (Service.name ⟨.hadoop, k⟩)) = [] then
        touch (marker k) files else files) := by
      split
      · exact h.add_marker hk
      · exact h
    rw [List.foldl_cons]
    refine ih ?_ fun file hfile => hfound file (List.mem_cons_of_mem _ hfile)
    simp only [hname]
    split
    · split
      · exact hfirst.add_marker hk
      · exact hfirst
    · exact h

/-- Every task keeps to these files. -/
theorem Inv.step (h : Inv services files) (task : Task) : Inv services (perform files task) := by
  cases task with
  | markIdle age hosts report => exact h.mark age hosts report
  | _ => exact h

/-- **Every reachable state has only these files.** -/
theorem Inv.of_run {tasks : List Task}
    (h : Run (fun files task files' => perform files task = files') (services.map Service.file) tasks files) :
    Inv services files := by
  refine h.invariant (Inv services) ?_ (Inv.start services)
  rintro files task _ hinv rfl
  exact hinv.step task

/-! ## The commands of a task -/

/-- The name in a loop over service files. -/
@[simp] theorem basename_file (s : Service) : basename s.file ".service".toList = s.name :=
  basename_append s.name_ne_nil

/-- The second test of `start_containers` reads the changed name, for which there never is a marker. -/
theorem Inv.changed_not_mem (h : Inv services files) (s : Service) :
    (sub "hadoop".toList "hue".toList s.name).getD s.name ++ ".disabled".toList ∉ files := by
  rcases s with ⟨_ | _, k⟩
  · rw [sub_hadoop, Option.getD_some]
    exact h.hue_not_mem k
  · rw [sub_hue, Option.getD_none]
    exact h.hue_not_mem k

/-- The members of a list with an optional first one. -/
theorem mem_optional_append {α : Type} {p : Prop} [Decidable p] {a b c : α} :
    c ∈ (if p then [] else [a]) ++ [b] ↔ (¬ p ∧ c = a) ∨ c = b := by
  by_cases hp : p
  · simp [hp]
  · simp [hp]

/-- What `start_containers` starts. -/
theorem Inv.mem_startContainers_iff (h : Inv services files) {c : Command} :
    c ∈ startContainers files ↔ ∃ s ∈ services,
      (s.name ++ ".disabled".toList ∉ files ∧ c = .start s.name) ∨ c = .start s.partner := by
  rw [startContainers, List.mem_flatMap]
  constructor
  · rintro ⟨file, hfile, hc⟩
    obtain ⟨s, hs, rfl⟩ := h.mem_services_iff.mp hfile
    simp only [basename_file, if_neg (h.changed_not_mem s)] at hc
    exact ⟨s, hs, mem_optional_append.mp hc⟩
  · rintro ⟨s, hs, hc⟩
    refine ⟨s.file, h.mem_services_iff.mpr ⟨s, hs, rfl⟩, ?_⟩
    simp only [basename_file, if_neg (h.changed_not_mem s)]
    exact mem_optional_append.mpr hc

/-- What `stop_containers` stops. -/
theorem Inv.mem_stopContainers_iff (h : Inv services files) {c : Command} :
    c ∈ stopContainers files ↔ ∃ s ∈ services, c = .stop s.name ∨ c = .stop s.partner := by
  rw [stopContainers, List.mem_flatMap]
  constructor
  · rintro ⟨file, hfile, hc⟩
    obtain ⟨s, hs, rfl⟩ := h.mem_services_iff.mp hfile
    rw [basename_file] at hc
    exact ⟨s, hs, List.mem_pair.mp hc⟩
  · rintro ⟨s, hs, hc⟩
    refine ⟨s.file, h.mem_services_iff.mpr ⟨s, hs, rfl⟩, ?_⟩
    rw [basename_file]
    exact List.mem_pair.mpr hc

/-- What `stop_idle` stops. -/
theorem Inv.of_mem_stopIdle (h : Inv services files) {age : Text → Int} {c : Command}
    (hc : c ∈ stopIdle age files) : ∃ k framework, marker k ∈ files ∧ 3600 < age (marker k) ∧
      c = .stop (Service.name ⟨framework, k⟩) := by
  rw [stopIdle, List.mem_flatMap] at hc
  obtain ⟨file, hfile, hc⟩ := hc
  obtain ⟨k, rfl, hmem⟩ := h.of_mem_disabled hfile
  have hname : basename (marker k) ".disabled".toList = Service.name ⟨.hadoop, k⟩ :=
    basename_append (Service.name_ne_nil _)
  split at hc
  · rename_i hage
    simp only [hname, sub_hadoop, List.mem_cons, List.not_mem_nil, or_false] at hc
    rcases hc with rfl | rfl
    · exact ⟨k, .hadoop, hmem, hage, rfl⟩
    · exact ⟨k, .hue, hmem, hage, rfl⟩
  · cases hc

/-! ## Which tasks are lawful -/

/-- A `hue` service makes `start_containers` start a service without a name. -/
theorem Inv.start_nil_mem (h : Inv services files) (hs : Service.mk .hue k ∈ services) :
    .start [] ∈ startContainers files :=
  h.mem_startContainers_iff.mpr ⟨_, hs, .inr (by rw [partner_hue])⟩

/-- `start_containers` needs a host without services. -/
theorem Inv.lawful_startContainers_iff (h : Inv services files) :
    Lawful services files .startContainers ↔ services = [] := by
  constructor
  · rintro ⟨hempty, hexact⟩
    -- a service without a name comes from every `hue` service
    have hhue : ∀ k, Service.mk .hue k ∉ services := fun k hs => (hempty _ (h.start_nil_mem hs)).1 rfl
    refine List.eq_nil_iff_forall_not_mem.mpr ?_
    rintro ⟨_ | _, k⟩ hs
    · -- the partner is started without looking whether it exists
      have hstart : .start (Service.name ⟨.hue, k⟩) ∈ startContainers files :=
        h.mem_startContainers_iff.mpr ⟨_, hs, .inr (by rw [partner_hadoop])⟩
      obtain ⟨s, hmem, -, hname⟩ := (hexact _).mp hstart
      obtain rfl : Service.mk .hue k = s := Service.name_injective hname
      exact hhue k hmem
    · exact hhue k hs
  · rintro rfl
    have hnone : ∀ c, c ∉ startContainers files := by
      intro c hc
      obtain ⟨s, hs, -⟩ := h.mem_startContainers_iff.mp hc
      cases hs
    refine ⟨fun c hc => absurd hc (hnone c), fun name => ?_⟩
    constructor
    · exact fun hc => absurd hc (hnone _)
    · rintro ⟨s, hs, -⟩
      cases hs

/-- `stop_containers` needs a host without `hue` services. -/
theorem Inv.lawful_stopContainers_iff (h : Inv services files) :
    Lawful services files .stopContainers ↔ ∀ s ∈ services, s.framework ≠ .hue := by
  constructor
  · rintro ⟨hempty, -⟩ ⟨_, k⟩ hs rfl
    have hstop : .stop [] ∈ stopContainers files :=
      h.mem_stopContainers_iff.mpr ⟨_, hs, .inr (by rw [partner_hue])⟩
    exact (hempty _ hstop).2 rfl
  · intro hhue
    refine ⟨fun c hc => ?_, trivial⟩
    obtain ⟨⟨framework, k⟩, hs, hc⟩ := h.mem_stopContainers_iff.mp hc
    cases framework with
    | hue => exact absurd rfl (hhue _ hs)
    | hadoop =>
      rw [partner_hadoop] at hc
      rcases hc with rfl | rfl <;> simp [Service.name_ne_nil]

/-- `stop_idle` keeps to the law. -/
theorem Inv.lawful_stopIdle (h : Inv services files) (age : Text → Int) :
    Lawful services files (.stopIdle age) := by
  refine ⟨fun c hc => ?_, fun name hc => ?_⟩
  · obtain ⟨k, framework, -, -, rfl⟩ := h.of_mem_stopIdle hc
    simp [Service.name_ne_nil]
  · obtain ⟨k, framework, hmem, hage, heq⟩ := h.of_mem_stopIdle hc
    exact ⟨k, framework, hmem, hage, Command.stop.inj heq⟩

/-- **When a task keeps to the law.** In every state that tasks lead to from service files without
markers, a task is lawful exactly when it is careful. -/
theorem lawful_iff (services : List Service) (files : List Text) (tasks : List Task)
    (h : Run (fun files task files' => perform files task = files') (services.map Service.file) tasks files)
    (task : Task) : Lawful services files task ↔ Careful services task := by
  have hinv := Inv.of_run h
  cases task with
  | stopIdle age => exact iff_of_true (hinv.lawful_stopIdle age) trivial
  | markIdle age hosts report => exact iff_of_true ⟨fun c hc => absurd hc List.not_mem_nil, trivial⟩ trivial
  | startContainers => exact hinv.lawful_startContainers_iff
  | stopContainers => exact hinv.lawful_stopContainers_iff

/-- A cluster is marked; then its `hadoop` service alone may be stopped and not started. -/
theorem lawful_iff_marked : ∃ tasks files,
    Run (fun files task files' => perform files task = files') ([⟨.hadoop, 7⟩].map Service.file) tasks files ∧
      Lawful [⟨.hadoop, 7⟩] files .stopContainers ∧ ¬ Lawful [⟨.hadoop, 7⟩] files .startContainers := by
  let task : Task := .markIdle (fun _ => 301) (fun _ => []) fun _ => []
  have hrun : Run (fun files task files' => perform files task = files')
      ([⟨.hadoop, 7⟩].map Service.file) [task] (perform ([⟨.hadoop, 7⟩].map Service.file) task) :=
    .cons rfl (.nil _)
  refine ⟨_, _, hrun, (lawful_iff _ _ _ hrun .stopContainers).mpr ?_, fun hlawful => ?_⟩
  · rintro s hs
    rw [List.mem_singleton.mp hs]
    decide
  · cases (lawful_iff _ _ _ hrun .startContainers).mp hlawful

/-- The usual pair of services already makes `start_containers` start a service without a name. -/
theorem pair_not_lawful : .start [] ∈ commands ([⟨.hadoop, 1⟩, ⟨.hue, 1⟩].map Service.file) .startContainers ∧
    ¬ Lawful [⟨.hadoop, 1⟩, ⟨.hue, 1⟩] ([⟨.hadoop, 1⟩, ⟨.hue, 1⟩].map Service.file) .startContainers := by
  have hinv := Inv.start [⟨.hadoop, 1⟩, ⟨.hue, 1⟩]
  have hstart := hinv.start_nil_mem (k := 1) (by decide)
  exact ⟨hstart, fun hlawful => (hlawful.1 _ hstart).1 rfl⟩

end GexCloud.Master
