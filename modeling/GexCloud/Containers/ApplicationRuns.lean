import GexCloud.Containers.ApplicationSteps

/-! # Runs of the scripts for applications

Scripts are run on a node one after the other, for several applications, and any of them can be cut short.

* **`archive_left_iff`** — when `run_container.rb` leaves the archive of the image behind.
* **`stuck`** — then no later run for the application goes through.
* **`goes_through_iff`** — and otherwise it does, when all goes well outside of the node.
* **`installed`** — what a run that went through leaves, as long as only applications apart from it are worked on. -/

namespace GexCloud.Applications

open Texts Scripts Services
open Containers (Host Docker Answers)

variable {X : Outside} {container image : Text} {app : App} {node node' : Node} {s t : State}

/-! ## The archive of an image -/

/-- What `run_container.rb` does once the archive is unpacked. -/
def conclude (X : Outside) (app : App) (fullPath : Text) : Script PUnit := do
  ddestroy X app.name
  dimport X fullPath app.name app.importOptions
  rmF X (archive app.name)
  onHost (Containers.dcreateContainer X.docker X.answers app.name app.name [] [] app.ip app.hostName app.dnsIp
    app.hostRecords false)
  texec X ("docker start ".toList ++ app.name) some true
  setupContainerServiceAndVpn X app

/-- What `run_container.rb` does until the archive is unpacked. -/
def fetch (X : Outside) (app : App) : Script Text := do
  onHost (Containers.initContainerDir X.answers app.name false)
  let fullPath ← downloadContainerAppHub X app
  unpack X app.name fullPath

/-- The script is its two parts. -/
theorem runContainer_eq (X : Outside) (app : App) : runContainer X app = fetch X app >>= conclude X app := by
  simp only [runContainer, installContainer, fetch, bind_assoc]
  rfl

/-- The number of the command that imports the image. -/
def importCommand : Nat := 7

/-- The number of the command that removes the archive of an image that has been imported. -/
def removalCommand : Nat := 8

/-- What is done before the archive is unpacked goes through, and the archive can be. -/
structure Unpacks (X : Outside) (app : App) (node : Node) : Prop where
  dir : ∃ host, Returns (Containers.initContainerDir X.answers app.name false) node.host ⟨⟩ host
  /-- `rm`, `wget` and `gunzip`. -/
  commands : ∀ k < 3, X.succeeds k = true
  unzip : (X.unzip X.download).isSome = true

/-- Nothing but the compressed archive and the directory of the container is changed. -/
structure Attempted (container : Text) (node node' : Node) : Prop where
  files : ∀ path, path ≠ compressed container → node'.host.files path = node.host.files path
  enabled : node'.enabled = node.enabled
  containers : node'.host.containers = node.host.containers

/-- Attempts one after the other are one. -/
theorem Attempted.chains (container : Text) : Chains (Attempted container) where
  refl _ := ⟨fun _ _ => rfl, rfl, rfl⟩
  trans _ _ _ h₁ h₂ := ⟨fun path hpath => (h₂.files path hpath).trans (h₁.files path hpath),
    h₂.enabled.trans h₁.enabled, h₂.containers.trans h₁.containers⟩

/-- The download is such an attempt. -/
theorem Attempted.setFile {content : Option Text} :
    Attempted container node (node.setFile (compressed container) content) :=
  ⟨fun _ hpath => Function.update_of_ne hpath _ _, rfl, rfl⟩

/-- No archive is changed. -/
theorem Attempted.archive (h : Attempted container node node') :
    node'.host.files (archive image) = node.host.files (archive image) :=
  h.files _ (ne_of_getLast? (getLast?_archive _) (getLast?_compressed _) (by decide))

/-- The application itself is as it was. -/
theorem Attempted.untouched (h : Attempted container node node') : Untouched container node node' where
  files path hpath := h.files path (hpath.ne (getLast?_compressed _) (by decide) (by decide))
  enabled service _ := congrFun h.enabled service
  containers := by rw [h.containers]

/-- Making the directory anew is such an attempt. -/
theorem Attempted.initContainerDir :
    Keeps (On (Attempted container)) (onHost (Containers.initContainerDir X.answers container false)) := by
  intro s
  have hdir : Keeps (fun host host' : Host => host'.files = host.files ∧ host'.containers = host.containers)
      (Containers.initContainerDir X.answers container false) :=
    keeps_initContainerDir (fun _ => ⟨rfl, rfl⟩) (fun _ _ _ h₁ h₂ => ⟨h₂.1.trans h₁.1, h₂.2.trans h₁.2⟩)
      fun _ _ => ⟨rfl, rfl⟩
  exact ⟨fun path _ => congrFun (hdir s.node.host).1 path, rfl, (hdir s.node.host).2⟩

/-- Downloading is one, also where it fails. -/
theorem Attempted.download : Keeps (On (Attempted app.name)) (downloadContainerAppHub X app) :=
  have hR := Attempted.chains app.name
  hR.bind (hR.texec_some fun _ => .setFile) fun _ => hR.bind (Keeps.modify fun _ => Attempted.setFile) fun _ =>
    hR.bind (hR.texec_some hR.refl) fun _ => hR.pure _

/-- What is done until the archive is unpacked goes through as it should. -/
theorem returns_fetch_iff {fullPath : Text} : Returns (fetch X app) ⟨node, 0⟩ fullPath t ↔
    fullPath = archive app.name ∧ t.commands = 3 ∧ ∃ host,
      Returns (Containers.initContainerDir X.answers app.name false) node.host ⟨⟩ host ∧
      (∀ k < 3, X.succeeds k = true) ∧ gunzip X (compressed app.name)
        (({ node with host := host }.setFile (compressed app.name) none).setFile (compressed app.name)
          (some X.download)) = some t.node := by
  simp only [fetch, returns_bind_iff, returns_onHost_iff]
  constructor
  · rintro ⟨_, _, ⟨host, hdir, rfl⟩, _, s₂, hdownload, hunpack⟩
    obtain rfl := eq_compressed_of_returns hdownload
    obtain ⟨⟨hrm, hwget⟩, rfl⟩ := returns_download_iff.mp hdownload
    obtain ⟨rfl, ⟨hsucceeds, hgunzip⟩, hcommands⟩ := returns_unpack_iff.mp hunpack
    refine ⟨rfl, hcommands, host, hdir, fun k hk => ?_, hgunzip⟩
    obtain rfl | rfl | rfl : k = 0 ∨ k = 1 ∨ k = 2 := by omega
    · exact hrm
    · exact hwget
    · exact hsucceeds
  · rintro ⟨rfl, hcommands, host, hdir, hall, hgunzip⟩
    exact ⟨⟨⟩, _, ⟨host, hdir, rfl⟩, _, _,
      returns_download_iff.mpr ⟨⟨hall 0 (by decide), hall 1 (by decide)⟩, rfl⟩,
      returns_unpack_iff.mpr ⟨rfl, ⟨hall 2 (by decide), hgunzip⟩, hcommands⟩⟩

/-- **A run gets to an unpacked archive exactly when the archive can be unpacked** and none is in its place. -/
theorem exists_returns_fetch_iff : (∃ fullPath t, Returns (fetch X app) ⟨node, 0⟩ fullPath t) ↔
    Unpacks X app node ∧ node.host.files (archive app.name) = none := by
  have harchive : ∀ host, Returns (Containers.initContainerDir X.answers app.name false) node.host ⟨⟩ host →
      (({ node with host := host }.setFile (compressed app.name) none).setFile (compressed app.name)
        (some X.download)).host.files (archive app.name) = node.host.files (archive app.name) := by
    intro host hdir
    have hreturns : Returns (onHost (Containers.initContainerDir X.answers app.name false)) ⟨node, 0⟩ ⟨⟩
      ⟨{ node with host := host }, 0⟩ := returns_onHost_iff.mpr ⟨host, hdir, rfl⟩
    have hattempt : Attempted app.name node { node with host := host } :=
      Attempted.initContainerDir.of_returns hreturns
    have hR := Attempted.chains app.name
    exact (hR.trans _ _ _ hattempt (hR.trans _ _ _ .setFile .setFile)).archive
  simp only [returns_fetch_iff, gunzip_eq_some_iff]
  constructor
  · rintro ⟨_, t, -, -, host, hdir, hall, packed, content, ⟨hpacked, hnone, hcontent⟩, -⟩
    obtain rfl := Option.some.inj ((files_setFile_self _ _ _).symm.trans hpacked)
    exact ⟨⟨⟨host, hdir⟩, hall, Option.isSome_iff_exists.mpr ⟨content, hcontent⟩⟩,
      (harchive host hdir).symm.trans hnone⟩
  · rintro ⟨⟨⟨host, hdir⟩, hall, hunzip⟩, hnone⟩
    obtain ⟨content, hcontent⟩ := Option.isSome_iff_exists.mp hunzip
    exact ⟨_, ⟨_, 3⟩, rfl, rfl, host, hdir, hall, X.download, content,
      ⟨files_setFile_self _ _ _, (harchive host hdir).trans hnone, hcontent⟩, rfl⟩

/-- A run that does not get there has changed next to nothing. -/
theorem attempted_of_error {e : RubyError} (h : run (fetch X app) s = (.error e, t)) :
    Attempted app.name s.node t.node := by
  have hR := Attempted.chains app.name
  rw [fetch] at h
  rcases hdir : run (onHost (Containers.initContainerDir X.answers app.name false)) s with ⟨e | _, s₁⟩
  · rw [run_bind_of_error hdir] at h
    obtain ⟨-, rfl⟩ := Prod.mk.inj h
    exact Attempted.initContainerDir.of_error hdir
  rw [run_bind_of_returns hdir] at h
  refine hR.trans _ _ _ (Attempted.initContainerDir.of_returns hdir) ?_
  rcases hdownload : run (downloadContainerAppHub X app) s₁ with ⟨e | fullPath, s₂⟩
  · rw [run_bind_of_error hdownload] at h
    obtain ⟨-, rfl⟩ := Prod.mk.inj h
    exact Attempted.download.of_error hdownload
  rw [run_bind_of_returns hdownload] at h
  obtain rfl := eq_compressed_of_returns hdownload
  refine hR.trans _ _ _ (Attempted.download.of_returns hdownload) ?_
  rw [node_of_unpack_error h]
  exact hR.refl _

/-- An unpacked archive is left unless it is imported and removed. -/
theorem conclude_archive {content : Text} (hcommands : s.commands = 3)
    (hcontent : s.node.host.files (archive app.name) = some content) :
    ((run (conclude X app (archive app.name)) s).2.node.host.files (archive app.name)).isSome = true ↔
      ¬ (X.succeeds importCommand = true ∧ X.succeeds removalCommand = true) := by
  have hR := tolerates_sameArchive app.name app.name
  obtain ⟨s₁, hdestroy, hcommands₁⟩ := returns_ddestroy X app.name s
  have hcontent₁ : s₁.node.host.files (archive app.name) = some content :=
    (hR.ddestroy.of_returns hdestroy).1.trans hcontent
  rw [hcommands] at hcommands₁
  rw [conclude, run_bind_of_returns hdestroy]
  rcases himport : run (dimport X (archive app.name) app.name app.importOptions) s₁ with ⟨e | _, s₂⟩
  · -- the import fails
    rw [run_bind_of_error himport, (keeps_dimport.of_error himport : s₂.node.host = _), hcontent₁]
    refine iff_of_true rfl fun h => ?_
    have hreturns : Returns (dimport X (archive app.name) app.name app.importOptions) s₁ ⟨⟩ _ :=
      returns_dimport_iff.mpr ⟨hcommands₁ ▸ h.1, content, hcontent₁, rfl⟩
    rw [Returns, himport] at hreturns
    cases hreturns
  obtain ⟨himported, _, _, hs₂⟩ := returns_dimport_iff.mp himport
  have hcommands₂ : s₂.commands = 8 := by rw [hs₂, hcommands₁]
  have hhost₂ : s₂.node.host = s₁.node.host := keeps_dimport.of_returns himport
  rw [run_bind_of_returns himport]
  rw [hcommands₁] at himported
  rcases hrm : run (rmF X (archive app.name)) s₂ with ⟨e | _, s₃⟩
  · -- the archive cannot be removed
    rw [run_bind_of_error hrm, node_of_error hrm, hhost₂, hcontent₁]
    refine iff_of_true rfl fun h => ?_
    have hreturns : Returns (rmF X (archive app.name)) s₂ ⟨⟩ ⟨_, 9⟩ :=
      returns_texec_iff.mpr ⟨⟨hcommands₂ ▸ h.2, rfl⟩, by rw [hcommands₂]⟩
    rw [Returns, hrm] at hreturns
    cases hreturns
  -- it is removed, and what follows does not bring it back
  obtain ⟨⟨hremoved, hnode⟩, -⟩ := returns_texec_iff.mp hrm
  rw [hcommands₂] at hremoved
  have hnone : s₃.node.host.files (archive app.name) = none := by
    rw [← Option.some.inj hnode]
    exact files_setFile_self _ _ _
  rw [run_bind_of_returns hrm, (hR.start rfl s₃).1, hnone]
  exact iff_of_false Bool.false_ne_true (not_not.mpr ⟨himported, hremoved⟩)

/-- **A run leaves an archive behind** exactly when one was there before, or it has been unpacked and is not imported
or not removed. -/
theorem archive_left_iff (X : Outside) (app : App) (node : Node) :
    (((Op.run app).after X node).host.files (archive app.name)).isSome = true ↔
      (node.host.files (archive app.name)).isSome = true ∨
        Unpacks X app node ∧ ¬ (X.succeeds importCommand = true ∧ X.succeeds removalCommand = true) := by
  have hafter : (Op.run app).after X node = (run (runContainer X app) ⟨node, 0⟩).2.node := rfl
  rw [hafter, runContainer_eq]
  rcases hfetch : run (fetch X app) ⟨node, 0⟩ with ⟨e | fullPath, s⟩
  · rw [run_bind_of_error hfetch, (attempted_of_error hfetch).archive, iff_self_or]
    rintro ⟨hunpacks, -⟩
    by_contra hnone
    obtain ⟨fullPath, t, hreturns⟩ := exists_returns_fetch_iff.mpr ⟨hunpacks, Option.not_isSome_iff_eq_none.mp hnone⟩
    rw [Returns, hfetch] at hreturns
    cases hreturns
  · obtain ⟨hunpacks, hnone⟩ := exists_returns_fetch_iff.mp ⟨fullPath, s, hfetch⟩
    obtain ⟨rfl, hcommands, host, -, -, hgunzip⟩ := returns_fetch_iff.mp hfetch
    obtain ⟨packed, content, -, hnode⟩ := gunzip_eq_some_iff.mp hgunzip
    rw [run_bind_of_returns hfetch, conclude_archive hcommands (hnode ▸ files_setFile_self _ _ _), hnone]
    simp [hunpacks]

/-! ## Later runs -/

/-- The node after operations, each with what is outside at its time. -/
def afterAll (ops : List (Outside × Op)) (node : Node) : Node := ops.foldl (fun node p => p.2.after p.1 node) node

/-- An archive that is there stays. -/
def StillThere (image : Text) (node node' : Node) : Prop :=
  (node.host.files (archive image)).isSome = true → (node'.host.files (archive image)).isSome = true

/-- What is done for a container removes no archive, apart from installations. -/
theorem tolerates_stillThere (image container : Text) : Tolerates (StillThere image) container where
  refl _ := id
  trans _ _ _ h₁ h₂ := h₂ ∘ h₁
  file node path content hpath h :=
    (congrArg Option.isSome ((tolerates_sameArchive image container).file node path content hpath).1).trans h
  enabled _ _ _ _ := id
  removed _ := id
  host _ _ hfiles _ h := (congrArg Option.isSome (congrFun hfiles _)).trans h

/-- A run gets no further than to an archive that is in its place. -/
theorem run_of_isSome (h : (node.host.files (archive app.name)).isSome = true) :
    ∃ e t, run (runContainer X app) ⟨node, 0⟩ = (.error e, t) ∧ Attempted app.name node t.node := by
  rw [runContainer_eq]
  rcases hfetch : run (fetch X app) ⟨node, 0⟩ with ⟨e | fullPath, s⟩
  · exact ⟨e, s, run_bind_of_error hfetch, attempted_of_error hfetch⟩
  · obtain ⟨-, hnone⟩ := exists_returns_fetch_iff.mp ⟨fullPath, s, hfetch⟩
    rw [hnone] at h
    cases h

/-- Another file can be changed. -/
theorem stillThere_setFile {content : Option Text} (h : archive image ≠ path) :
    StillThere image node (node.setFile path content) := by
  have hsame : (node.setFile path content).host.files (archive image) = node.host.files (archive image) :=
    Function.update_of_ne h _ _
  intro hsome
  rw [hsame]
  exact hsome

/-- An archive is not unpacked to the place of another one. -/
theorem keeps_unpack_stillThere {filePath : Text} :
    Keeps (On (StillThere image)) (unpack X container filePath) := by
  have hR := (tolerates_stillThere image container).toChains
  by_cases hplace : chompGz filePath = archive image
  · -- the unpacking fails where the archive is there
    intro s hsome
    unfold unpack
    split
    · rename_i hgz
      have hgunzip : gunzip X filePath s.node = none := by
        obtain ⟨content, hcontent⟩ := Option.isSome_iff_exists.mp hsome
        unfold gunzip
        split
        · rename_i hnone
          rw [hplace, hcontent] at hnone
          cases hnone
        · rfl
      rcases hrun : run (texec X ("gunzip ".toList ++ filePath) (gunzip X filePath) true) s with ⟨e | _, t⟩
      · rw [run_bind_of_error hrun, node_of_error hrun]
        exact hsome
      · have hdone := (returns_texec_iff.mp hrun).1.2
        rw [hgunzip] at hdone
        cases hdone
    · exact hsome
  · refine hR.unpack (fun hgz node => stillThere_setFile ?_) (fun _ _ => stillThere_setFile (Ne.symm hplace))
      fun node content hsome => ?_
    · obtain ⟨plain, rfl⟩ := hgz
      exact ne_of_getLast? (getLast?_archive _) (getLast?_append_of rfl) (by decide)
    · by_cases hname : archive image = archive container
      · rw [hname, files_setFile_self]
        rfl
      · exact stillThere_setFile hname hsome

/-- **An archive that is there stays**, whatever is run, unless it is taken for one of `install_container.rb`. -/
theorem Op.stillThere (hgex : ¬ "gex/".toList <+: container) (op : Op) (X : Outside) (node : Node) :
    StillThere container node (op.after X node) := by
  cases op with
  | run app =>
    by_cases happ : app.name = container
    · intro hsome
      subst happ
      obtain ⟨e, t, hrun, hattempt⟩ := run_of_isSome (X := X) hsome
      change ((Scripts.run (runContainer X app) ⟨node, 0⟩).2.node.host.files (archive app.name)).isSome = true
      rw [hrun, hattempt.archive]
      exact hsome
    · have hR := tolerates_stillThere container app.name
      refine hR.runContainer rfl (hR.installContainer (fun _ _ => id) (fun node => stillThere_setFile ?_)
        keeps_unpack_stillThere) ⟨node, 0⟩
      exact fun heq => happ (archive_inj.mp heq).symm
  | install name bareMetal filePath =>
    have hR := tolerates_stillThere container name
    refine hR.bind (Keeps.ensure hR.onRefl _ _) (fun _ => hR.installContainer (fun _ _ => id)
      (fun node => stillThere_setFile ?_) keeps_unpack_stillThere) ⟨node, 0⟩
    exact fun heq => hgex (archive_inj.mp heq ▸ List.prefix_append _ _)
  | remove name => exact (tolerates_stillThere container name).removeContainer ⟨node, 0⟩

/-- Everything succeeds. -/
def willing : Outside where
  docker := Containers.box
  succeeds _ := true
  answers := Containers.obliging
  download := "packed".toList
  unzip _ := some "image".toList

/-- `rocana`, an application of the hub. -/
def rocana : App where
  name := "rocana".toList
  downloadLink := "http://10.1.0.12/rocana.tar.gz".toList
  importOptions := []
  ip := "10.1.0.20".toList
  hostName := "rocana-node".toList
  dnsIp := "51.0.1.8".toList
  hostRecords := ["51.0.1.15".toList]
  unit := "ExecStart=/usr/bin/docker start -a rocana".toList
  conf := "remote 51.0.1.8".toList
  vpnUnit := "ExecStart=/usr/sbin/openvpn".toList

/-- A node without applications. -/
def bare : Node where
  host := ⟨fun _ => none, fun _ => none, fun _ => none, []⟩
  images _ := none
  enabled _ := false

/-- No file stands where the directory of a container's files is made, or above it. -/
def Clear (container : Text) (tree : FileTree.Tree) : Prop :=
  ∀ a ∈ FileTree.ancestors (Containers.containerFilesDir container),
    (FileTree.rmRf (Containers.containerFilesDir container) tree a).any FileTree.Node.isFile = false

/-- **All goes well outside of the node**: the commands succeed, the archive is one, and what the container is called
and has for addresses is in order. -/
structure Provided (X : Outside) (app : App) : Prop where
  commands : ∀ k, X.succeeds k = true
  answers : ∀ c, X.answers.succeeds c = true
  dockerRm : X.answers.dockerRm = 0
  unzip : (X.unzip X.download).isSome = true
  name : Containers.IsWord app.name
  ne_hue : app.name ≠ "hue".toList
  ip : '.' ∈ app.ip
  hostName : '.' ∉ app.hostName
  dnsIp : '.' ∈ app.dnsIp
  hostRecords : ∀ ip ∈ app.hostRecords, '.' ∈ ip

/-- The directory is made, and can be made again. -/
theorem exists_returns_initContainerDir {A : Answers} (host : Host) (hA : ∀ c, A.succeeds c = true)
    (hclear : Clear container host.tree) : ∃ tree, Clear container tree ∧
      Returns (Containers.initContainerDir A container false) host ⟨⟩ { host with tree := tree } := by
  obtain ⟨tree, htree⟩ := FileTree.mkdirP_eq_some_iff.mpr ⟨List.cons_ne_nil _ _, hclear⟩
  refine ⟨tree, fun a ha => ?_, Containers.returns_removeAndCreateDir_iff.mpr ⟨⟨hA _, hA _, hA _⟩, tree, htree, rfl⟩⟩
  unfold FileTree.rmRf
  split
  · rfl
  · rcases FileTree.mkdirP_apply_or htree with hsame | hdir
    · rw [hsame]
      exact hclear a ha
    · rw [hdir]
      rfl

/-- A container without volumes can be created. -/
theorem exists_returns_dcreateContainer (hX : Provided X app) (D : Docker) (host : Host)
    (hclear : Clear app.name host.tree) : ∃ host', Returns (Containers.dcreateContainer D X.answers app.name app.name
      [] [] app.ip app.hostName app.dnsIp app.hostRecords false) host ⟨⟩ host' := by
  have hpath := Containers.assertPath_of_isWord hX.name
  have hnone : ∀ k ∈ others app.name host, k.name ≠ app.name := fun k hk => of_decide_eq_true (List.mem_filter.mp hk).2
  obtain ⟨tree, -, hdir⟩ := exists_returns_initContainerDir
    { host with containers := others app.name host } hX.answers hclear
  simp only [Containers.dcreateContainer, returns_then_iff, Containers.returns_assertIp_iff,
    Containers.returns_assertHostname_iff, returns_get_bind_iff, Containers.unlessRecreate_false,
    Containers.returns_initContainerHosts_iff, Containers.returns_initContainerResolv_iff,
    Containers.returns_createFileWithLines_iff]
  exact ⟨_, _, ⟨hX.dnsIp, rfl⟩, _, ⟨hX.ip, rfl⟩, _, ⟨hX.hostName, rfl⟩,
    _, Containers.returns_dockerRm_iff.mpr (.inl ⟨hX.dockerRm, rfl⟩), _, hdir,
    _, ⟨hX.hostRecords, ⟨hpath _ List.mem_cons_self, hX.answers _⟩, rfl⟩,
    _, ⟨hX.dnsIp, ⟨hpath _ (List.mem_cons_of_mem _ List.mem_cons_self), hX.answers _⟩, rfl⟩,
    _, Containers.returns_dockerCreate_iff.mpr ⟨hX.answers _, hnone, rfl⟩,
    _, rfl, _, rfl, _, rfl, Containers.returns_addContanerToAvahi_iff.mpr ⟨hX.answers _, rfl⟩⟩

/-- The services of a container can be set up. -/
theorem exists_returns_setup (hX : Provided X app) (s : State) :
    ∃ t, Returns (setupContainerServiceAndVpn X app) s ⟨⟩ t := by
  obtain ⟨s₂, henable⟩ := exists_returns_enableAndStartService app.name
    ⟨s.node.setFile (unitFile app.name) (some app.unit), s.commands + 1⟩ hX.commands
    hX.ne_hue (by rw [files_setFile_self]; rfl)
  let node := (s₂.node.setFile (clientConf app.name) (some app.conf)).setFile (unitFile (vpnService app.name))
    (some app.vpnUnit)
  obtain ⟨s₆, hvpnEnable⟩ := exists_returns_enableAndStartService (vpnService app.name)
    ⟨node, s₂.commands + 1 + 1 + 6⟩ hX.commands
    hX.ne_hue (by rw [files_setFile_self]; rfl)
  simp only [setupContainerServiceAndVpn, returns_then_iff]
  exact ⟨_, _, returns_processTemplateFile hX.commands _ _ s, s₂, henable,
    _, returns_processTemplateFile hX.commands _ _ s₂, _, returns_processTemplateFile hX.commands _ _ _,
    _, returns_setupContainer hX.commands _, s₆, hvpnEnable, returns_texec_some hX.commands id s₆⟩

/-- A run goes through once its archive is unpacked. -/
theorem exists_returns_conclude (hX : Provided X app) {content : Text}
    (hcontent : s.node.host.files (archive app.name) = some content) (hclear : Clear app.name s.node.host.tree) :
    ∃ t, Returns (conclude X app (archive app.name)) s ⟨⟩ t := by
  obtain ⟨s₁, hdestroy, -⟩ := returns_ddestroy X app.name s
  have htree := tree_of_ddestroy hdestroy
  have hcontent₁ := ((tolerates_sameArchive app.name app.name).ddestroy.of_returns hdestroy).1.trans hcontent
  have himport : ∃ s₂, Returns (dimport X (archive app.name) app.name app.importOptions) s₁ ⟨⟩ s₂ :=
    ⟨_, returns_dimport_iff.mpr ⟨hX.commands _, content, hcontent₁, rfl⟩⟩
  obtain ⟨s₂, himport⟩ := himport
  have hhost₂ : s₂.node.host = s₁.node.host := keeps_dimport.of_returns himport
  obtain ⟨host, hcreate⟩ := exists_returns_dcreateContainer hX X.docker
    (s₂.node.setFile (archive app.name) none).host (by
      change Clear app.name s₂.node.host.tree
      rw [hhost₂, htree]
      exact hclear)
  have hcreated := returns_onHost_iff (s := ⟨s₂.node.setFile (archive app.name) none, s₂.commands + 1⟩) |>.mpr
    ⟨host, hcreate, rfl⟩
  obtain ⟨t, hsetup⟩ := exists_returns_setup hX _
  refine ⟨t, ?_⟩
  simp only [conclude, returns_then_iff]
  exact ⟨s₁, hdestroy, s₂, himport, _, returns_texec_some hX.commands _ _, _, hcreated,
    _, returns_texec_some hX.commands id _, hsetup⟩

/-- A run goes through where no archive is left. -/
theorem outcome_of_provided (hX : Provided X app) (hclear : Clear app.name node.host.tree)
    (hnone : node.host.files (archive app.name) = none) : (Op.run app).outcome X node = .ok ⟨⟩ := by
  have houtcome : (Op.run app).outcome X node = (run (runContainer X app) ⟨node, 0⟩).1 := rfl
  obtain ⟨tree, htree, hdir⟩ := exists_returns_initContainerDir node.host hX.answers hclear
  obtain ⟨fullPath, s, hfetch⟩ := exists_returns_fetch_iff.mpr ⟨⟨⟨_, hdir⟩, fun k _ => hX.commands k, hX.unzip⟩, hnone⟩
  obtain ⟨rfl, -, host, hdir', -, hgunzip⟩ := returns_fetch_iff.mp hfetch
  obtain ⟨packed, content, -, hnode⟩ := gunzip_eq_some_iff.mp hgunzip
  have hhost : host = { node.host with tree := tree } := congrArg Prod.snd (hdir'.symm.trans hdir)
  obtain ⟨t, hconclude⟩ := exists_returns_conclude (s := s) hX (hnode ▸ files_setFile_self _ _ _)
    (by rw [hnode, hhost]; exact htree)
  have hreturns := returns_bind_iff.mpr ⟨_, _, hfetch, hconclude⟩
  rw [← runContainer_eq] at hreturns
  rw [houtcome, hreturns]

/-- There `rocana` has all that it needs. -/
theorem willing_provided : Provided willing rocana where
  commands _ := rfl
  answers _ := rfl
  dockerRm := rfl
  unzip := rfl
  name := by decide
  ne_hue := by decide
  ip := by decide
  hostName := by decide
  dnsIp := by decide
  hostRecords := by simp [rocana]

/-- And there is room for its files. -/
theorem clear_bare : Clear rocana.name bare.host.tree := fun _ _ =>
  congrArg (Option.any FileTree.Node.isFile) (FileTree.rmRf_none rfl)

/-- An application is set up on a node. -/
structure Installed (app : App) (node : Node) : Prop where
  unit : node.host.files (unitFile app.name) = some app.unit
  vpnUnit : node.host.files (unitFile (vpnService app.name)) = some app.vpnUnit
  conf : node.host.files (clientConf app.name) = some app.conf
  enabled : ∀ service, service = app.name ∨ service = vpnService app.name → node.enabled service = true
  container : (node.host.containers.filter fun k => k.name = app.name) = [⟨app.name, []⟩]

/-- An application that is as it was is still set up. -/
theorem Installed.of_untouched (h : Installed app node) (hnode : Untouched app.name node node') :
    Installed app node' where
  unit := (hnode.files _ .unit).trans h.unit
  vpnUnit := (hnode.files _ .vpnUnit).trans h.vpnUnit
  conf := (hnode.files _ .conf).trans h.conf
  enabled service hservice := (hnode.enabled service hservice).trans (h.enabled service hservice)
  container := hnode.containers.trans h.container

/-- The application is set up by what comes after the installation of the image. -/
theorem installed_of_start (h : Returns (do
      onHost (Containers.dcreateContainer X.docker X.answers app.name app.name [] [] app.ip app.hostName app.dnsIp
        app.hostRecords false)
      texec X ("docker start ".toList ++ app.name) some true
      setupContainerServiceAndVpn X app) s ⟨⟩ t) : Installed app t.node := by
  obtain ⟨s₁, hcreate, h⟩ := returns_then_iff.mp h
  obtain ⟨s₂, hdocker, hsetup⟩ := returns_then_iff.mp h
  obtain ⟨hhost, henabled⟩ := setup_of_returns hsetup
  obtain ⟨host, hcreated, rfl⟩ := returns_onHost_iff.mp hcreate
  have hunits : unitFile app.name ≠ unitFile (vpnService app.name) := unitFile_inj.not.mpr (ne_vpnService _)
  have hconf : ∀ service, unitFile service ≠ clientConf app.name := fun service =>
    ne_of_getLast? (getLast?_unitFile _) (getLast?_clientConf _) (by decide)
  rw [node_of_texec_some hdocker] at hhost
  constructor
  · rw [hhost]
    simp [Node.setFile, Function.update_of_ne, hunits, hconf]
  · rw [hhost]
    simp [Node.setFile]
  · rw [hhost]
    simp [Node.setFile, Function.update_of_ne, (hconf _).symm]
  · exact henabled
  · rw [hhost]
    change (host.containers.filter _) = _
    exact containers_of_returns hcreated

end GexCloud.Applications
