import GexCloud.Slave.Substitution

/-! # Restarting the playbook

Whether a run of `slaveplaybook.rb` after aborted ones leaves the machine as a single run would.

* **`restart_files`** — the files below `NODE_INFO_DIR` and `CONTAINER_DIR` come out the same after any aborted
  runs.
* `Harmless` — where a run may be aborted for `/etc/hosts`.
* **`restart_eq`** — after runs that were aborted there, the machine comes out the same. -/

namespace GexCloud.Slave

open Texts Overwrites

variable {E : Setup} {m : Node} {steps l : List Step} {c : Step} {k : Place}

/-! ## What the steps write and read -/

/-- The places that a step writes. -/
def Step.targets : Step → Place → Prop
  | .save place _, k => k = place
  | .initContainerDir f, k => ∃ v, k = .volume f v
  | .initContainerHosts f, k => k = .container f "hosts".toList
  | .initContainerResolv f, k => k = .container f "resolv.conf".toList
  | .unlinkVolume f v, k => k = .volume f v
  | .linkVolume f v, k => k = .volume f v
  | .setProvisioned, k => k = .info "PROVISIONED".toList
  | _, _ => False

/-- The places that a step reads. -/
def Step.sources : Step → Place → Prop
  | .initContainerHosts _, k => k = .info "CLUSTER_ID".toList ∨ k = .info "MASTER_IP".toList
  | .initContainerResolv _, k => k = .info "DNS_IP".toList
  | .setProvisioned, k => k = .info "PROVISIONED".toList
  | _, _ => False

/-- A step writes its targets only. -/
theorem Step.write_of_not_targets {files : Store} (h : ¬ c.targets k) : c.write E files k = files k := by
  cases c with
  | initContainerDir f =>
    cases k with
    | volume f' v =>
      have hne : f' ≠ f := fun heq => h ⟨v, by rw [heq]⟩
      exact if_neg hne
    | info name => rfl
    | container f' name => rfl
  | readHostname | writeHostname | replaceLocalhost | replaceHostname => rfl
  | appendMaster f => rfl
  | save | initContainerHosts | initContainerResolv | unlinkVolume | linkVolume | setProvisioned =>
    exact Function.update_of_ne h _ _

/-- What is read of a file is determined by what is there. -/
theorem getInfo_congr {files files' : Store} {name : Text} (h : files (.info name) = files' (.info name)) :
    getInfo files name = getInfo files' name := by
  rw [getInfo, getInfo, h]

/-- A place that is written holds what is written. -/
theorem update_congr {files files' : Store} {place : Place} {x y : Option FileTree.Node} (hk : k = place) (h : x = y) :
    Function.update files place x k = Function.update files' place y k := by
  rw [hk, h, Function.update_self, Function.update_self]

/-- What a step writes is determined by what it reads. -/
theorem Step.write_determined {files files' : Store} (h : ∀ k, c.sources k → files k = files' k)
    (hk : c.targets k) : c.write E files k = c.write E files' k := by
  cases c with
  | initContainerDir f =>
    obtain ⟨v, rfl⟩ := hk
    exact (if_pos rfl).trans (if_pos rfl).symm
  | initContainerHosts f =>
    have hcluster := getInfo_congr (h (.info "CLUSTER_ID".toList) (.inl rfl))
    have hmaster := getInfo_congr (h (.info "MASTER_IP".toList) (.inr rfl))
    exact update_congr hk (congrArg₂ (fun clusterId masterIp =>
      some (FileTree.Node.file (containerHosts E f clusterId masterIp))) hcluster hmaster)
  | initContainerResolv f =>
    have hdns := getInfo_congr (h (.info "DNS_IP".toList) rfl)
    exact update_congr hk (congrArg (fun dnsIp => some (FileTree.Node.file (containerResolv dnsIp))) hdns)
  | setProvisioned =>
    have hflag := h (.info "PROVISIONED".toList) rfl
    exact update_congr hk (congrArg (fun flag => some (flag.getD (.file []))) hflag)
  | save | unlinkVolume | linkVolume =>
    exact update_congr hk rfl
  | readHostname | writeHostname | replaceLocalhost | replaceHostname | appendMaster => exact hk.elim

/-- A step as a command on the files. -/
def Step.command (E : Setup) (c : Step) : Command Place (Option FileTree.Node) where
  act files := c.write E files
  sources := c.sources
  targets := c.targets
  frame _ _ h := Step.write_of_not_targets h
  determined _ _ h _ hk := Step.write_determined h hk

/-- The files of a run are those of its commands. -/
theorem foldl_perform_files (steps : List Step) (p : Process) :
    (steps.foldl (perform E) p).machine.files = Overwrites.run (steps.map (Step.command E)) p.machine.files := by
  induction steps generalizing p with
  | nil => rfl
  | cons c steps ih => exact ih _

/-! ## The steps of the playbook -/

/-- A step that saves something, but does not mark the node as provisioned. -/
def Step.isSave : Step → Bool
  | .save place _ => decide (place ≠ .info "PROVISIONED".toList)
  | _ => false

/-- A step that has to do with the name of the machine. -/
def Step.isNaming : Step → Bool
  | .readHostname | .writeHostname | .replaceLocalhost | .replaceHostname | .appendMaster _ => true
  | _ => false

/-- A step that makes a container. -/
def Step.isCreation : Step → Bool
  | .initContainerDir _ | .initContainerHosts _ | .initContainerResolv _ | .unlinkVolume _ _
  | .linkVolume _ _ => true
  | c => c.isSave

/-- The static addresses are saved. -/
theorem isSave_saveStaticIps : ∀ c ∈ saveStaticIps E, c.isSave = true := by
  refine List.forall_mem_append.mpr ⟨List.all_eq_true.mp rfl, fun c hc => ?_⟩
  obtain ⟨f, -, hf⟩ := List.mem_filterMap.mp hc
  obtain ⟨ip, -, rfl⟩ := Option.map_eq_some_iff.mp hf
  rfl

/-- The information about the node is saved. -/
theorem isSave_saveNodeInfo : ∀ c ∈ saveNodeInfo E, c.isSave = true := by
  refine List.forall_mem_append.mpr ⟨List.forall_mem_append.mpr ⟨List.all_eq_true.mp rfl, List.all_eq_true.mp rfl⟩, ?_⟩
  split
  · exact isSave_saveStaticIps
  · exact nofun

/-- What comes before the machine gets its name. -/
def beforeNaming (E : Setup) : List Step := awsCheck E :: FRAMEWORKS.map .initContainerDir

/-- What comes after. -/
def afterNaming (E : Setup) : List Step := if E.hadoopAppId then FRAMEWORKS.flatMap (setupFramework E) else []

/-- The steps of a start, in three parts around the naming. -/
theorem provisioning_eq : provisioning E =
    saveNodeInfo E ++ (beforeNaming E ++ ((setupEnvironment ++ FRAMEWORKS.map .appendMaster) ++ afterNaming E)) := by
  simp only [provisioning, beforeNaming, afterNaming, List.append_assoc]

/-- Before the naming only files are made anew. -/
theorem isCreation_beforeNaming : ∀ c ∈ beforeNaming E, c.isCreation = true := by
  refine List.forall_mem_cons.mpr ⟨?_, List.all_eq_true.mp rfl⟩
  rw [awsCheck]
  split <;> rfl

/-- And so they are after it. -/
theorem isCreation_afterNaming : ∀ c ∈ afterNaming E, c.isCreation = true := by
  unfold afterNaming
  split
  · exact List.all_eq_true.mp rfl
  · exact nofun

/-- The naming is the part that changes `/etc/hosts` and the host name. -/
theorem isNaming_naming : ∀ c ∈ setupEnvironment ++ FRAMEWORKS.map .appendMaster, c.isNaming = true :=
  List.all_eq_true.mp rfl

/-- Saving a value makes its file anew. -/
theorem Step.isCreation_of_isSave (h : c.isSave = true) : c.isCreation = true := by
  cases c with
  | save place content => exact h
  | _ => cases h

/-- What makes a file anew names nothing. -/
theorem Step.isNaming_of_isCreation (h : c.isCreation = true) : c.isNaming = false := by
  cases c with
  | readHostname | writeHostname | replaceLocalhost | replaceHostname | appendMaster => cases h
  | _ => rfl

/-- The steps of the playbook make containers or have to do with the name. -/
theorem isCreation_or_isNaming (hc : c ∈ provisioning E) : c.isCreation = true ∨ c.isNaming = true := by
  rw [provisioning_eq, List.mem_append, List.mem_append, List.mem_append] at hc
  rcases hc with hc | hc | hc | hc
  · exact .inl (Step.isCreation_of_isSave (isSave_saveNodeInfo c hc))
  · exact .inl (isCreation_beforeNaming c hc)
  · exact .inr (isNaming_naming c hc)
  · exact .inl (isCreation_afterNaming c hc)

/-- No step of the playbook marks the node as provisioned. -/
theorem not_targets_flag (hc : c ∈ provisioning E) : ¬ c.targets (.info "PROVISIONED".toList) := by
  intro hk
  have h := isCreation_or_isNaming hc
  cases c with
  | save place content =>
    obtain rfl : _ = place := hk
    have hplace : decide (Place.info "PROVISIONED".toList ≠ .info "PROVISIONED".toList) = true :=
      h.resolve_right Bool.false_ne_true
    exact of_decide_eq_true hplace rfl
  | initContainerDir f =>
    obtain ⟨v, hv⟩ := hk
    cases hv
  | setProvisioned => simp [Step.isCreation, Step.isSave, Step.isNaming] at h
  | initContainerHosts | initContainerResolv | unlinkVolume | linkVolume => exact absurd hk nofun
  | readHostname | writeHostname | replaceLocalhost | replaceHostname | appendMaster => exact hk

/-- What the playbook reads. -/
theorem sources_subset (hc : c ∈ provisioning E) (hk : c.sources k) :
    k ∈ ["CLUSTER_ID".toList, "MASTER_IP".toList, "DNS_IP".toList].map Place.info := by
  have h := isCreation_or_isNaming hc
  cases c with
  | initContainerHosts f => rcases hk with rfl | rfl <;> simp
  | initContainerResolv f =>
    rw [show k = _ from hk]
    simp
  | setProvisioned => simp [Step.isCreation, Step.isSave, Step.isNaming] at h
  | _ => exact hk.elim

/-! ## The files -/

/-- What is read has been saved by the same run. -/
theorem targets_saveNodeInfo (hk : k ∈ ["CLUSTER_ID".toList, "MASTER_IP".toList, "DNS_IP".toList].map Place.info) :
    Targets ((saveNodeInfo E).map (Step.command E)) k := by
  have hsaved : ∀ index name, saveInfo E index name ∈ saveNodeInfo E →
      Targets ((saveNodeInfo E).map (Step.command E)) (.info name) :=
    fun index name h => ⟨_, List.mem_map_of_mem h, rfl⟩
  simp only [List.map_cons, List.map_nil, List.mem_cons, List.not_mem_nil, or_false] at hk
  rcases hk with rfl | rfl | rfl
  · exact hsaved 3 _ (by simp [saveNodeInfo])
  · exact hsaved 0 _ (by simp [saveNodeInfo])
  · exact hsaved 2 _ (by simp [saveNodeInfo])

/-- **The playbook reads only what it has saved.** -/
theorem closed_provisioning (P : Place → Prop) : Closed P ((provisioning E).map (Step.command E)) := by
  have hsub := fun c (hc : c ∈ provisioning E) k => sources_subset (k := k) hc
  rw [provisioning_eq] at hsub ⊢
  rw [List.map_append]
  refine closed_append (closed_of_forall fun d hd k hk => ?_) (closed_of_forall fun d hd k hk => .inr ?_)
  · obtain ⟨c, hc, rfl⟩ := List.mem_map.mp hd
    have hsave := isSave_saveNodeInfo c hc
    cases c with
    | save place content => exact hk.elim
    | _ => cases hsave
  · obtain ⟨c, hc, rfl⟩ := List.mem_map.mp hd
    exact targets_saveNodeInfo (hsub c (List.mem_append_right _ hc) k hk)

/-- A run that is not refused does its steps. -/
theorem run_of_not_provisioned (hm : m.provisioned = false) :
    run E steps m = (steps.foldl (perform E) ⟨m, []⟩).machine :=
  if_neg (by rw [hm]; exact Bool.false_ne_true)

/-- The files after a run. -/
theorem run_files (hm : m.provisioned = false) :
    (run E steps m).files = Overwrites.run (steps.map (Step.command E)) m.files := by
  rw [run_of_not_provisioned hm, foldl_perform_files]

/-- An aborted run does not mark the node. -/
theorem run_provisioned (hm : m.provisioned = false) (hsteps : steps <+: provisioning E) :
    (run E steps m).provisioned = false := by
  have hflag : (run E steps m).files (.info "PROVISIONED".toList) = m.files (.info "PROVISIONED".toList) := by
    rw [run_files hm]
    refine run_of_not_targets ?_
    rintro ⟨d, hd, hk⟩
    obtain ⟨c, hc, rfl⟩ := List.mem_map.mp hd
    exact not_targets_flag (hsteps.subset hc) hk
  rw [Node.provisioned, hflag]
  exact hm

/-- Aborted runs do not mark the node. -/
theorem runs_provisioned {cuts : List (List Step)} (hm : m.provisioned = false)
    (hcuts : ∀ cut ∈ cuts, cut <+: provisioning E) : (runs E cuts m).provisioned = false := by
  induction cuts generalizing m with
  | nil => exact hm
  | cons cut cuts ih =>
    exact ih (run_provisioned hm (hcuts cut List.mem_cons_self)) fun d hd => hcuts d (List.mem_cons_of_mem cut hd)

/-- The files after aborted runs. -/
theorem runs_files {cuts : List (List Step)} (hm : m.provisioned = false)
    (hcuts : ∀ cut ∈ cuts, cut <+: provisioning E) : (runs E cuts m).files =
      (cuts.map (List.map (Step.command E))).foldl (fun files cut => Overwrites.run cut files) m.files := by
  induction cuts generalizing m with
  | nil => rfl
  | cons cut cuts ih =>
    have hcut := hcuts cut List.mem_cons_self
    rw [List.map_cons, List.foldl_cons, ← run_files hm]
    exact ih (run_provisioned hm hcut) fun d hd => hcuts d (List.mem_cons_of_mem cut hd)

/-- **The files come out the same after any aborted runs.** -/
theorem restart_files {cuts : List (List Step)} (hm : m.provisioned = false)
    (hcuts : ∀ cut ∈ cuts, cut <+: provisioning E) :
    (run E (playbook E) (runs E cuts m)).files = (run E (playbook E) m).files := by
  have hprogram : Overwrites.run ((provisioning E).map (Step.command E)) (runs E cuts m).files =
      Overwrites.run ((provisioning E).map (Step.command E)) m.files := by
    rw [runs_files hm hcuts]
    refine run_restarts (closed_provisioning _) fun d hd => ?_
    obtain ⟨cut, hcut, rfl⟩ := List.mem_map.mp hd
    exact (hcuts cut hcut).map _
  rw [run_files (runs_provisioned hm hcuts), run_files hm, playbook, List.map_append]
  simp only [Overwrites.run, List.foldl_append] at hprogram ⊢
  rw [hprogram]

/-! ## `/etc/hosts` and `/etc/hostname` -/

/-- What the naming steps work on. -/
def Process.names (p : Process) : Text × HostnameFile × Text := (p.machine.hosts, p.machine.hostname, p.hostname)

/-- The other steps leave it. -/
theorem perform_names_of_not_naming (h : c.isNaming = false) (p : Process) : (perform E p c).names = p.names := by
  cases c with
  | readHostname | writeHostname | replaceLocalhost | replaceHostname | appendMaster => cases h
  | _ => simp [perform, Process.names, Step.rewrite]

/-- What a step makes of it depends on nothing else. -/
theorem perform_names_congr {p q : Process} (h : p.names = q.names) :
    (perform E p c).names = (perform E q c).names := by
  simp only [Process.names, Prod.mk.injEq] at h
  simp only [Process.names, perform, h.1, h.2.1, h.2.2]

/-- Only the naming steps of a run matter. -/
theorem foldl_names (steps : List Step) {p q : Process} (h : p.names = q.names) :
    (steps.foldl (perform E) p).names = ((steps.filter Step.isNaming).foldl (perform E) q).names := by
  induction steps generalizing p q with
  | nil => exact h
  | cons c steps ih =>
    cases hc : c.isNaming with
    | true =>
      rw [List.filter_cons_of_pos hc]
      exact ih (perform_names_congr h)
    | false =>
      rw [List.filter_cons_of_neg (by rw [hc]; exact Bool.false_ne_true)]
      exact ih ((perform_names_of_not_naming hc p).trans h)

/-- The naming steps of the playbook. -/
theorem filter_provisioning :
    (provisioning E).filter Step.isNaming = setupEnvironment ++ FRAMEWORKS.map .appendMaster := by
  have hnone : ∀ l : List Step, (∀ c ∈ l, c.isCreation = true) → l.filter Step.isNaming = [] := by
    intro l hl
    refine List.filter_eq_nil_iff.mpr fun c hc hnaming => ?_
    rw [Step.isNaming_of_isCreation (hl c hc)] at hnaming
    cases hnaming
  rw [provisioning_eq, List.filter_append, List.filter_append, List.filter_append,
    hnone _ fun c hc => Step.isCreation_of_isSave (isSave_saveNodeInfo c hc), hnone _ isCreation_beforeNaming,
    hnone _ isCreation_afterNaming, List.filter_eq_self.mpr isNaming_naming, List.append_nil]
  rfl

/-! ## Substituting a name by itself -/

/-- A name is not changed where it is replaced by itself. -/
theorem substitute_self {pattern : Text} (hdot : '.' ∉ pattern) (text : Text) :
    substitute pattern pattern 0 text = text := by
  by_cases hne : pattern = []
  · rw [hne, substitute_nil]
  · induction text using substituteInduction hne with
    | nil => rfl
    | hit m t hlength hm ih =>
      have hsame : pattern = m := (isPrefix_of_matchesAt hdot hm).eq_of_length hlength.symm
      rw [substitute_hit hne hlength hm, ih, hsame]
    | miss c t hmatch ih => rw [substitute_miss hmatch, ih]

/-- A pattern without dots that is replaced by itself. -/
theorem sed_self {pattern : Text} (hdot : '.' ∉ pattern) (content : Text) : sed pattern pattern content = content := by
  have hline : substitute pattern pattern 0 = id := by
    funext line
    exact substitute_self hdot line
  rw [sed, hline, List.map_id, List.intercalate_splitOn]

/-- The node's name is one, so that replacing it by itself changes nothing. -/
theorem replaceHostname_node (E : Setup) (hosts : Text) : replaceHostname E E.node hosts = hosts :=
  sed_self (fun h => (E.node_ok '.' h).2 rfl) hosts

/-- No character of a host name is white space. -/
theorem isSpace_of_isHostChar {ch : Char} (h : isHostChar ch = true) : isSpace ch.toNat = false := by
  have hspaces : ∀ n ∈ [0, 9, 10, 11, 12, 13, 32], isHostChar (Char.ofNat n) = false := by decide
  rw [← Bool.not_eq_true]
  intro hspace
  have hcode : ch.toNat = 0 ∨ (9 ≤ ch.toNat ∧ ch.toNat ≤ 13) ∨ ch.toNat = 32 := by
    simpa [isSpace, or_assoc] using hspace
  have hmem : ch.toNat ∈ [0, 9, 10, 11, 12, 13, 32] := by
    simp only [List.mem_cons, List.not_mem_nil, or_false]
    omega
  have hnot := hspaces _ hmem
  rw [Char.ofNat_toNat, h] at hnot
  cases hnot

/-- The machine has the name of the node. -/
theorem strip_hostnameFile (E : Setup) : strip E.hostnameFile.1 = E.node :=
  stripBy_of_forall fun ch hch => isSpace_of_isHostChar (E.node_ok ch hch).1

/-! ## Restarts -/

/-- What the two substitutions are to make of `/etc/hosts`. -/
def target (E : Setup) (m : Node) : Text := replaceHostname E (strip m.hostname.1) (replaceLocalhost E m.hosts)

/-- **Where a run may be aborted**: no master has been appended; the new name has not been written before
the old one was replaced, unless there was nothing to replace; and when the first substitution has been made, it
would change nothing if it were made again. -/
structure Harmless (E : Setup) (m : Node) (steps : List Step) : Prop where
  no_append : ∀ f, .appendMaster f ∉ steps
  replaced : .writeHostname ∈ steps → .replaceHostname ∈ steps ∨ target E m = replaceLocalhost E m.hosts
  settled : .replaceLocalhost ∈ steps → replaceLocalhost E (run E steps m).hosts = (run E steps m).hosts

/-- Each run was aborted where it may be. -/
def AllHarmless (E : Setup) : Node → List (List Step) → Prop
  | _, [] => True
  | m, steps :: cuts => Harmless E m steps ∧ AllHarmless E (run E steps m) cuts

/-- The naming steps that a run has done are the first ones. -/
theorem filter_of_isPrefix (h : steps <+: provisioning E) :
    steps.filter Step.isNaming <+: setupEnvironment ++ FRAMEWORKS.map .appendMaster := by
  rw [← filter_provisioning (E := E)]
  exact h.filter _

/-- What a run makes of `/etc/hosts` and `/etc/hostname`. -/
theorem run_names (hm : m.provisioned = false) (hfilter : steps.filter Step.isNaming = l) :
    ((run E steps m).hosts, (run E steps m).hostname) =
      ((l.foldl (perform E) ⟨m, []⟩).machine.hosts, (l.foldl (perform E) ⟨m, []⟩).machine.hostname) := by
  have hnames := foldl_names (E := E) steps (p := ⟨m, []⟩) rfl
  rw [hfilter] at hnames
  rw [run_of_not_provisioned hm]
  simp only [Process.names, Prod.mk.injEq] at hnames
  rw [hnames.1, hnames.2.1]

/-- How far the naming has come in a run without masters. -/
theorem filter_mem_inits (hsteps : steps <+: provisioning E) (happend : ∀ f, .appendMaster f ∉ steps) :
    steps.filter Step.isNaming ∈ setupEnvironment.inits := by
  have hfront := filter_of_isPrefix hsteps
  rw [List.mem_inits]
  rcases List.prefix_or_prefix_of_prefix hfront (List.prefix_append _ _) with h | ⟨masters, h⟩
  · exact h
  · rw [← h, List.prefix_append_right_inj] at hfront
    cases masters with
    | nil => rw [← h, List.append_nil]
    | cons c masters =>
      obtain ⟨f, -, rfl⟩ := List.mem_map.mp (hfront.subset List.mem_cons_self)
      have hmem : .appendMaster f ∈ steps.filter Step.isNaming := by
        rw [← h]
        exact List.mem_append_right _ List.mem_cons_self
      exact absurd (List.mem_filter.mp hmem).1 (happend f)

/-- **A run that is aborted where it may be leaves what `/etc/hosts` is to become.** -/
theorem target_run (hm : m.provisioned = false) (hsteps : steps <+: provisioning E) (h : Harmless E m steps) :
    target E (run E steps m) = target E m := by
  have hinits := filter_mem_inits hsteps h.no_append
  have hnames := @run_names E m steps _ hm rfl
  have hdone : ∀ c ∈ steps.filter Step.isNaming, c ∈ steps := fun c hc => (List.mem_filter.mp hc).1
  have hreplaced : .writeHostname ∈ steps.filter Step.isNaming → .replaceHostname ∉ steps.filter Step.isNaming →
      target E m = replaceLocalhost E m.hosts :=
    fun hwrite hnot => (h.replaced (hdone _ hwrite)).resolve_left fun hmem => hnot (List.mem_filter.mpr ⟨hmem, rfl⟩)
  have hsettled : .replaceLocalhost ∈ steps.filter Step.isNaming →
      replaceLocalhost E (run E steps m).hosts = (run E steps m).hosts := fun hmem => h.settled (hdone _ hmem)
  simp only [setupEnvironment, List.inits, List.map_cons, List.map_nil, List.mem_cons, List.not_mem_nil,
    or_false] at hinits
  rw [Prod.mk.injEq] at hnames
  obtain ⟨hhosts, hhostname⟩ := hnames
  generalize steps.filter Step.isNaming = l at *
  rw [target, hhostname]
  rcases hinits with rfl | rfl | rfl | rfl | rfl
  · rw [hhosts]
    rfl
  · rw [hhosts]
    rfl
  · -- the name has been written, but the hosts are as they were
    change replaceHostname E (strip E.hostnameFile.1) _ = _
    rw [strip_hostnameFile, replaceHostname_node, hhosts, hreplaced (by simp) (by simp)]
    rfl
  · -- the first substitution has been made
    change replaceHostname E (strip E.hostnameFile.1) _ = _
    rw [strip_hostnameFile, replaceHostname_node, hsettled (by simp), hhosts, hreplaced (by simp) (by simp)]
    rfl
  · -- both substitutions have been made
    change replaceHostname E (strip E.hostnameFile.1) _ = _
    rw [strip_hostnameFile, replaceHostname_node, hsettled (by simp), hhosts]
    rfl

/-- What a run to the end makes of `/etc/hosts` and `/etc/hostname`. -/
theorem run_playbook_names (hm : m.provisioned = false) :
    (run E (playbook E) m).hosts = target E m ++ masterLine E "hadoop".toList ++ masterLine E "hue".toList ∧
      (run E (playbook E) m).hostname = E.hostnameFile := by
  have hfilter : (playbook E).filter Step.isNaming = setupEnvironment ++ FRAMEWORKS.map .appendMaster := by
    rw [playbook, List.filter_append, filter_provisioning]
    exact List.append_nil _
  exact Prod.mk.inj (run_names hm hfilter)

/-- Runs that are aborted where they may be leave what `/etc/hosts` is to become. -/
theorem target_runs {cuts : List (List Step)} (hm : m.provisioned = false)
    (hcuts : ∀ cut ∈ cuts, cut <+: provisioning E) (h : AllHarmless E m cuts) :
    target E (runs E cuts m) = target E m := by
  induction cuts generalizing m with
  | nil => rfl
  | cons cut cuts ih =>
    have hcut := hcuts cut List.mem_cons_self
    refine (ih (run_provisioned hm hcut) (fun d hd => hcuts d (List.mem_cons_of_mem cut hd)) h.2).trans ?_
    exact target_run hm hcut h.1

/-- A provisioned node is left as it is. -/
theorem run_of_provisioned (hm : m.provisioned = true) : run E steps m = m := if_pos hm

/-- A run to the end marks the node. -/
theorem provisioned_run_playbook (m : Node) : (run E (playbook E) m).provisioned = true := by
  cases hm : m.provisioned with
  | true => rw [run_of_provisioned hm, hm]
  | false =>
    rw [run_of_not_provisioned hm, playbook, List.foldl_append]
    rfl

/-- **The playbook can be restarted**, as long as it was aborted where it may be: a run to the end leaves what a
single run would have left, and later runs leave that. -/
theorem restart_eq (E : Setup) (m : Node) (hm : m.provisioned = false) (cuts : List (List Step))
    (hcuts : ∀ cut ∈ cuts, cut <+: provisioning E) (h : AllHarmless E m cuts) :
    run E (playbook E) (runs E cuts m) = run E (playbook E) m ∧
      ∀ E' steps, run E' steps (run E (playbook E) (runs E cuts m)) = run E (playbook E) (runs E cuts m) := by
  have hend := run_playbook_names (E := E) (runs_provisioned hm hcuts)
  have hsingle := run_playbook_names (E := E) hm
  refine ⟨?_, fun E' steps => run_of_provisioned (provisioned_run_playbook _)⟩
  have hfiles := restart_files hm hcuts
  rw [target_runs hm hcuts h, ← hsingle.1] at hend
  rw [← hsingle.2] at hend
  exact Node.ext hend.1 hend.2 hfiles

/-- A node that is told nothing but its master. -/
def sample : Setup where
  argv index := if index = 0 then "51.77.0.2".toList else if index = 3 then "7".toList else []
  environment _ := []
  echo s := s ++ ['\n']
  node := "node-1".toList
  containerIps _ := none
  aws := false
  overlayIp _ := []
  hadoopAppId := false
  mountpoint _ := []
  node_ok := by
    have hall : "node-1".toList.all (fun ch => isHostChar ch && ch != '.') = true := by decide
    intro ch hch
    have h := List.all_eq_true.mp hall ch hch
    rwa [Bool.and_eq_true, bne_iff_ne] at h

/-- A fresh machine. -/
def freshMachine : Node where
  hosts := "127.0.0.1 localhost\n".toList
  hostname := ⟨"ubuntu\n".toList, List.all_eq_true.mp (by decide)⟩
  files _ := none

/-- A run that is aborted when both substitutions are made. -/
theorem restart_eq_renamed :
    run sample (playbook sample) (runs sample [(provisioning sample).take 26] freshMachine) =
      run sample (playbook sample) freshMachine := by
  have hfilter : ((provisioning sample).take 26).filter Step.isNaming = setupEnvironment := rfl
  have hnaming : ∀ f, .appendMaster f ∉ (provisioning sample).take 26 := by
    intro f hf
    have hmem : .appendMaster f ∈ setupEnvironment := hfilter ▸ List.mem_filter.mpr ⟨hf, rfl⟩
    simp [setupEnvironment] at hmem
  have hreplaced : .replaceHostname ∈ (provisioning sample).take 26 :=
    (List.mem_filter.mp (hfilter ▸ (by simp [setupEnvironment] : Step.replaceHostname ∈ setupEnvironment))).1
  have hsettled : replaceLocalhost sample (run sample ((provisioning sample).take 26) freshMachine).hosts =
      (run sample ((provisioning sample).take 26) freshMachine).hosts := by decide +kernel
  exact (restart_eq sample freshMachine rfl [(provisioning sample).take 26]
    (fun _ hcut => List.mem_singleton.mp hcut ▸ List.take_prefix _ _)
    ⟨⟨hnaming, fun _ => .inl hreplaced, fun _ => hsettled⟩, trivial⟩).1

/-- A run that is aborted when the first master has been appended: it is there twice in the end. -/
theorem master_twice : (provisioning sample).take 27 <+: provisioning sample ∧
    (run sample (playbook sample) (run sample ((provisioning sample).take 27) freshMachine)).hosts ≠
      (run sample (playbook sample) freshMachine).hosts :=
  ⟨List.take_prefix _ _, by decide +kernel⟩

end GexCloud.Slave
