import GexCloud.Containers.ApplicationFrames

/-! # What the functions for an application do

* `done`, `run_command`, `returns_texec_iff` — a command, by its number and what it does.
* `enabling_of_returns`, **`setup_of_returns`**, `containers_of_returns` — the services and the container that are there
  when the functions went through.
* `returns_download_iff`, `returns_unpack_iff`, `returns_ddestroy`, `returns_dimport_iff` — the steps of an
  installation.
* `exists_returns_setup` — when the services can be set up. -/

namespace GexCloud.Applications

open Texts Scripts Services
open Containers (Host Docker Answers)

variable {X : Outside} {R : Node → Node → Prop} {container other path service image cmd : Text} {α : Type} {app : App}
  {node node' : Node} {s t : State} {r : PUnit}

/-! ## Commands -/

/-- What a command does, when it succeeds. -/
def done (X : Outside) (effect : Node → Option Node) (s : State) : Option Node :=
  if X.succeeds s.commands then effect s.node else none

/-- A command always comes back: it says whether it has succeeded. -/
theorem run_command (effect : Node → Option Node) (s : State) : run (command X effect) s =
    (.ok (done X effect s).isSome, ⟨(done X effect s).getD s.node, s.commands + 1⟩) := by
  change command X effect s = _
  unfold command done
  split
  · rename_i h
    rw [h]
    rfl
  · rename_i h
    rw [h]
    rfl

/-- A command whose success is not asked for goes through anyway. -/
theorem run_texec (effect : Node → Option Node) (checkreturn : Bool) (s : State) :
    run (texec X cmd effect checkreturn) s =
      (if (done X effect s).isSome || !checkreturn then .ok ⟨⟩ else .error (.commandFailed cmd),
        ⟨(done X effect s).getD s.node, s.commands + 1⟩) := by
  rw [texec, run_bind, run_command]
  dsimp only
  split <;> rfl

/-- A command takes effect when nothing outside and nothing on the node is against it. -/
theorem done_eq_some_iff {effect : Node → Option Node} :
    done X effect s = some node ↔ X.succeeds s.commands = true ∧ effect s.node = some node := by
  unfold done
  split
  · simp [*]
  · simp [*]

/-- A command that is checked. -/
theorem returns_texec_iff {effect : Node → Option Node} : Returns (texec X cmd effect true) s r t ↔
    (X.succeeds s.commands = true ∧ effect s.node = some t.node) ∧ t.commands = s.commands + 1 := by
  rw [Returns, run_texec, ← done_eq_some_iff]
  obtain ⟨node, commands⟩ := t
  cases done X effect s with
  | none => simp
  | some node' => simp [eq_comm]

/-- A command that is not checked. -/
theorem returns_texec_unchecked (effect : Node → Option Node) (s : State) :
    Returns (texec X cmd effect false) s ⟨⟩ ⟨(done X effect s).getD s.node, s.commands + 1⟩ := by
  rw [Returns, run_texec, Bool.not_false, Bool.or_true, if_pos rfl]

/-- A command that ends a script has done nothing. -/
theorem node_of_error {effect : Node → Option Node} {checkreturn : Bool} {e : RubyError}
    (h : run (texec X cmd effect checkreturn) s = (.error e, t)) : t.node = s.node := by
  rw [run_texec] at h
  cases hdone : done X effect s with
  | none =>
    rw [hdone] at h
    exact congrArg (fun x => x.2.node) h.symm
  | some node => simp [hdone] at h

/-- A command that does one thing. -/
theorem returns_texec_some (hX : ∀ k, X.succeeds k = true) (change : Node → Node) (s : State) :
    Returns (texec X cmd (fun node => some (change node)) true) s ⟨⟩ ⟨change s.node, s.commands + 1⟩ :=
  returns_texec_iff.mpr ⟨⟨hX _, rfl⟩, rfl⟩

/-- A part on the host leaves the rest of the node. -/
theorem returns_onHost_iff {m : Containers.Script α} {a : α} : Returns (onHost m) s a t ↔
    ∃ host, Returns m s.node.host a host ∧ t = { s with node := { s.node with host := host } } := by
  change ((run m s.node.host).1, { s with node := { s.node with host := (run m s.node.host).2 } }) = _ ↔ _
  unfold Returns
  rcases run m s.node.host with ⟨x, host⟩
  constructor
  · intro heq
    have hx : x = .ok a := congrArg Prod.fst heq
    exact ⟨host, by rw [hx], (congrArg Prod.snd heq).symm⟩
  · rintro ⟨_, heq, rfl⟩
    obtain ⟨rfl, rfl⟩ := Prod.mk.inj heq
    rfl

/-! ## The services -/

/-- Nothing but a service is changed. -/
structure Enabling (service : Text) (node node' : Node) : Prop where
  host : node'.host = node.host
  images : node'.images = node.images
  enabled : ∀ other, other ≠ service → node'.enabled other = node.enabled other

/-- Enabling a service twice is enabling it. -/
theorem Enabling.chains (service : Text) : Chains (Enabling service) where
  refl _ := ⟨rfl, rfl, fun _ _ => rfl⟩
  trans _ _ _ h₁ h₂ := ⟨h₂.host.trans h₁.host, h₂.images.trans h₁.images,
    fun other hne => (h₂.enabled other hne).trans (h₁.enabled other hne)⟩

/-- What a call of `systemctl` by the functions for services comes to. -/
theorem returns_sh_iff {status : Status} : Returns ((machine X).sh cmd) s status t ↔
    status = ⟨some (if (done X (systemctl cmd) s).isSome then 0 else 1), []⟩ ∧
      t = ⟨(done X (systemctl cmd) s).getD s.node, s.commands + 1⟩ := by
  change Returns (command X (systemctl cmd) >>= fun success => _) s status t ↔ _
  rw [Returns, run_bind, run_command]
  dsimp only
  rw [run_pure, Prod.mk.injEq, Except.ok.injEq]
  exact and_congr eq_comm eq_comm

/-- A service that is started has been enabled. -/
theorem enabling_of_returns {name : Option Text}
    (h : Returns (enableAndStartService (machine X) name service) s ⟨⟩ t) :
    Enabling service s.node t.node ∧ t.node.enabled service = true := by
  refine ⟨((Enabling.chains service).enableAndStartService fun node enabled =>
    ⟨rfl, rfl, fun other hne => Function.update_of_ne hne _ _⟩).of_returns h, ?_⟩
  obtain ⟨k, -, -, hstarted⟩ := returns_enableAndStartService_iff.mp h
  cases hstarted with
  | @intro s₁ s₂ s₃ s₄ stop disable enable start stopped disabled enabled enable_success known started start_success =>
    have hs₃ : s₃.node.enabled service = true := by
      obtain ⟨rfl, rfl⟩ := returns_sh_iff.mp enabled
      cases hdone : done X (systemctl ("systemctl enable ".toList ++ service)) s₂ with
      | none =>
        rw [hdone] at enable_success
        cases enable_success
      | some node =>
        have hnode := (done_eq_some_iff.mp hdone).2
        rw [systemctl_enable] at hnode
        split at hnode
        · obtain rfl := Option.some.inj hnode
          exact Function.update_self ..
        · cases hnode
    have hs₄ : s₄.node = s₃.node := by
      obtain ⟨-, rfl⟩ := returns_sh_iff.mp started
      unfold done
      rw [systemctl_start]
      split <;> rfl
    exact hs₄ ▸ hs₃

/-- A service that has a unit file is started. -/
theorem exists_returns_enableAndStartService (service : Text) (s : State) (hX : ∀ k, X.succeeds k = true) {name : Text}
    (hname : name ≠ "hue".toList) (hunit : (s.node.host.files (unitFile service)).isSome = true) :
    ∃ t, Returns (enableAndStartService (machine X) (some name) service) s ⟨⟩ t := by
  have hsh : ∀ {cmd node s}, systemctl cmd s.node = some node →
      Returns ((machine X).sh cmd) s ⟨some 0, []⟩ ⟨node, s.commands + 1⟩ := by
    intro cmd node s h
    rw [returns_sh_iff, done_eq_some_iff.mpr ⟨hX _, h⟩]
    exact ⟨rfl, rfl⟩
  have henable : systemctl ("systemctl enable ".toList ++ service) (s.node.setEnabled service false) =
      some ((s.node.setEnabled service false).setEnabled service true) :=
    (systemctl_enable _ _).trans (if_pos hunit)
  -- the first attempt goes through
  exact ⟨_, returns_enableAndStartService_iff.mpr ⟨0, Nat.zero_le _, fun j hj => absurd hj (Nat.not_lt_zero j),
    .intro (hsh (systemctl_stop _ _)) (hsh (systemctl_disable _ _)) (hsh henable) rfl
      (fun h => absurd (Option.some.inj h) hname) (hsh (systemctl_start _ _)) (.inl rfl)⟩⟩

/-- Only counting is done. -/
theorem node_of_texec_some {checkreturn : Bool} (h : Returns (texec X cmd some checkreturn) s r t) :
    t.node = s.node := by
  have hnode := congrArg (fun x => x.2.node) h
  rw [run_texec] at hnode
  refine hnode.symm.trans ?_
  unfold done
  dsimp only
  split <;> rfl

/-- A processed template is a file with its content. -/
theorem node_of_processTemplateFile {destination content : Text}
    (h : Returns (processTemplateFile X destination content) s r t) :
    t.node = s.node.setFile destination (some content) :=
  (Option.some.inj (returns_texec_iff.mp h).1.2).symm

/-- What is done in the container leaves the node. -/
theorem node_of_setupContainer (h : Returns (setupContainer X container) s r t) : t.node = s.node := by
  have hR : Chains fun node node' : Node => node' = node := ⟨fun _ => rfl, fun _ _ _ h₁ h₂ => h₂.trans h₁⟩
  refine Keeps.of_returns (R := On fun node node' => node' = node) ?_ h
  exact hR.bind (hR.texec_some hR.refl) fun _ => hR.bind (hR.texec_some hR.refl) fun _ =>
    hR.bind (hR.texec_some hR.refl) fun _ => hR.bind (hR.texec_some hR.refl) fun _ =>
    hR.bind (hR.texec_some hR.refl) fun _ => hR.texec_some hR.refl

/-- **What `setup_container_service_and_vpn` does when it goes through.** -/
theorem setup_of_returns (h : Returns (setupContainerServiceAndVpn X app) s ⟨⟩ t) :
    t.node.host = (((s.node.setFile (unitFile app.name) (some app.unit)).setFile (clientConf app.name)
      (some app.conf)).setFile (unitFile (vpnService app.name)) (some app.vpnUnit)).host ∧
    ∀ service, service = app.name ∨ service = vpnService app.name → t.node.enabled service = true := by
  simp only [setupContainerServiceAndVpn, returns_then_iff] at h
  obtain ⟨s₁, hunit, s₂, henable, s₃, hconf, s₄, hvpnUnit, s₅, hcontainer, s₆, hvpnEnable, hecho⟩ := h
  obtain ⟨hs₂, henabled⟩ := enabling_of_returns henable
  obtain ⟨hs₆, hvpnEnabled⟩ := enabling_of_returns hvpnEnable
  have hnode₅ : s₅.node = (s₂.node.setFile (clientConf app.name) (some app.conf)).setFile
      (unitFile (vpnService app.name)) (some app.vpnUnit) := by
    rw [node_of_setupContainer hcontainer, node_of_processTemplateFile hvpnUnit, node_of_processTemplateFile hconf]
  rw [node_of_texec_some hecho]
  constructor
  · rw [hs₆.host, hnode₅]
    simp only [Node.setFile]
    rw [hs₂.host, node_of_processTemplateFile hunit]
    rfl
  · rintro service (rfl | rfl)
    · rw [hs₆.enabled app.name (ne_vpnService app.name), hnode₅]
      exact henabled
    · exact hvpnEnabled

/-- **The container that is created** is the only one of its name. -/
theorem containers_of_returns {D : Docker} {A : Answers} {host host' : Host} {imageTag ip hostName dnsIp : Text}
    {hostRecords : List Text} (h : Returns (Containers.dcreateContainer D A container imageTag [] [] ip hostName dnsIp
      hostRecords false) host r host') :
    (host'.containers.filter fun k => k.name = container) = [⟨container, []⟩] := by
  simp only [Containers.dcreateContainer, returns_then_iff, returns_get_bind_iff, Containers.unlessRecreate_false,
    Containers.returns_dockerCreate_iff] at h
  obtain ⟨_, -, _, -, _, -, _, -, _, -, _, -, u, -, _, ⟨-, hfresh, rfl⟩, _, hcopy, _, herase, _, hlink, havahi⟩ := h
  obtain ⟨-, rfl⟩ := Containers.returns_addContanerToAvahi_iff.mp havahi
  obtain ⟨-, rfl⟩ := returns_pure_iff.mp hlink
  obtain ⟨-, rfl⟩ := returns_pure_iff.mp herase
  obtain ⟨-, rfl⟩ := returns_pure_iff.mp hcopy
  have hnone : (u.containers.filter fun k => k.name = container) = [] := by
    rw [List.filter_eq_nil_iff]
    exact fun k hk => by simpa using hfresh k hk
  simp [List.filter_append, hnone]

/-- When all commands succeed, a template is processed. -/
theorem returns_processTemplateFile (hX : ∀ k, X.succeeds k = true) (destination content : Text) (s : State) :
    Returns (processTemplateFile X destination content) s ⟨⟩
      ⟨s.node.setFile destination (some content), s.commands + 1⟩ := returns_texec_some hX _ s

/-- When all commands succeed, the container is set up, with six of them. -/
theorem returns_setupContainer (hX : ∀ k, X.succeeds k = true) (s : State) :
    Returns (setupContainer X container) s ⟨⟩ ⟨s.node, s.commands + 6⟩ := by
  have hcommand : ∀ cmd s, Returns (inContainer X container cmd) s ⟨⟩ ⟨s.node, s.commands + 1⟩ := fun cmd s =>
    returns_texec_some hX id s
  simp only [setupContainer, returns_then_iff]
  exact ⟨_, hcommand _ _, _, hcommand _ _, _, hcommand _ _, _, hcommand _ _, _, hcommand _ _, hcommand _ _⟩

/-! ## The installation of the image -/

/-- The content that a file is given. -/
theorem files_setFile_self (path : Text) (content : Option Text) (node : Node) :
    (node.setFile path content).host.files path = content := Function.update_self ..

/-- A download that goes through. -/
theorem returns_download_iff : Returns (downloadContainerAppHub X app) s (compressed app.name) t ↔
    (X.succeeds s.commands = true ∧ X.succeeds (s.commands + 1) = true) ∧
      t = ⟨(s.node.setFile (compressed app.name) none).setFile (compressed app.name) (some X.download),
        s.commands + 2⟩ := by
  obtain ⟨node, commands⟩ := t
  simp only [downloadContainerAppHub, rmF, returns_bind_iff, returns_texec_iff, returns_modify_iff, returns_pure_iff,
    Option.some.injEq, State.mk.injEq]
  constructor
  · rintro ⟨_, u, ⟨⟨hrm, hnode⟩, hcommands⟩, _, _, rfl, _, v, ⟨⟨hwget, hnode'⟩, hcommands'⟩, -, rfl⟩
    dsimp only at hwget hnode' hcommands'
    rw [hcommands] at hwget hcommands'
    exact ⟨⟨hrm, hwget⟩, by rw [← hnode', hnode], hcommands'⟩
  · rintro ⟨⟨hrm, hwget⟩, rfl, rfl⟩
    exact ⟨⟨⟩, ⟨s.node.setFile (compressed app.name) none, s.commands + 1⟩, ⟨⟨hrm, rfl⟩, rfl⟩, ⟨⟩, _, rfl, ⟨⟩,
      ⟨_, s.commands + 2⟩, ⟨⟨hwget, rfl⟩, rfl⟩, trivial, rfl⟩

/-- The archive that was downloaded is unpacked at its place. -/
theorem returns_unpack_iff {fullPath : Text} : Returns (unpack X container (compressed container)) s fullPath t ↔
    fullPath = archive container ∧ (X.succeeds s.commands = true ∧
      gunzip X (compressed container) s.node = some t.node) ∧ t.commands = s.commands + 1 := by
  rw [unpack, if_pos (gz_compressed container)]
  dsimp only
  rw [if_pos (chompGz_compressed container), returns_bind_iff]
  simp only [returns_texec_iff, returns_pure_iff]
  constructor
  · rintro ⟨_, _, h, rfl, rfl⟩
    exact ⟨rfl, h⟩
  · rintro ⟨rfl, h⟩
    exact ⟨⟨⟩, t, h, rfl, rfl⟩

/-- An archive that cannot be unpacked is left as it is. -/
theorem node_of_unpack_error {e : RubyError}
    (h : run (unpack X container (compressed container)) s = (.error e, t)) : t.node = s.node := by
  rw [unpack, if_pos (gz_compressed container)] at h
  dsimp only at h
  rw [if_pos (chompGz_compressed container)] at h
  rcases hgunzip : run (texec X ("gunzip ".toList ++ compressed container) (gunzip X (compressed container)) true) s
    with ⟨e' | _, u⟩
  · rw [run_bind_of_error hgunzip] at h
    obtain ⟨-, rfl⟩ := Prod.mk.inj h
    exact node_of_error hgunzip
  · rw [run_bind_of_returns hgunzip] at h
    cases h

/-- What is unpacked, and what of it is left. -/
theorem gunzip_eq_some_iff : gunzip X (compressed container) node = some node' ↔
    ∃ packed content, (node.host.files (compressed container) = some packed ∧
      node.host.files (archive container) = none ∧ X.unzip packed = some content) ∧
      node' = (node.setFile (compressed container) none).setFile (archive container) (some content) := by
  rw [gunzip, chompGz_compressed]
  split
  · rename_i packed hpacked hnone
    rw [Option.map_eq_some_iff]
    constructor
    · rintro ⟨content, hunzip, rfl⟩
      exact ⟨packed, content, ⟨hpacked, hnone, hunzip⟩, rfl⟩
    · rintro ⟨packed', content, ⟨hpacked', -, hunzip⟩, rfl⟩
      obtain rfl := Option.some.inj (hpacked.symm.trans hpacked')
      exact ⟨content, hunzip, rfl⟩
  · rename_i hno
    refine iff_of_false nofun ?_
    rintro ⟨packed, content, ⟨hpacked, hnone, -⟩, -⟩
    exact hno packed hpacked hnone

/-- A service is removed, also where it cannot be disabled. -/
theorem returns_disableAndRemoveService (X : Outside) (service : Text) (s : State) :
    ∃ t, Returns (disableAndRemoveService X service) s ⟨⟩ t ∧ t.commands = s.commands + 1 :=
  ⟨_, returns_then_iff.mpr ⟨_, returns_texec_unchecked _ s, returns_then_iff.mpr ⟨_, rfl, rfl⟩⟩, rfl⟩

/-- `ddestroy` goes through, whatever its commands come to. -/
theorem returns_ddestroy (X : Outside) (container : Text) (s : State) :
    ∃ t, Returns (ddestroy X container) s ⟨⟩ t ∧ t.commands = s.commands + 3 := by
  obtain ⟨t₁, h₁, hcommands₁⟩ := returns_disableAndRemoveService X container s
  obtain ⟨t₂, h₂, hcommands₂⟩ : ∃ t₂, Returns (drm X container) t₁ ⟨⟩ t₂ ∧ t₂.commands = t₁.commands + 1 :=
    ⟨_, returns_bind_iff.mpr ⟨_, _, run_command _ t₁, rfl⟩, rfl⟩
  obtain ⟨t₃, h₃, hcommands₃⟩ := returns_disableAndRemoveService X (vpnService container) t₂
  refine ⟨t₃, returns_then_iff.mpr ⟨t₁, h₁, returns_then_iff.mpr ⟨t₂, h₂, h₃⟩⟩, ?_⟩
  omega

/-- An import that goes through. -/
theorem returns_dimport_iff {file importOptions : Text} : Returns (dimport X file image importOptions) s ⟨⟩ t ↔
    X.succeeds (s.commands + 1) = true ∧ ∃ content, s.node.host.files file = some content ∧
      t = ⟨((done X (fun node => some (node.setImage image none)) s).getD s.node).setImage image (some content),
        s.commands + 2⟩ := by
  obtain ⟨node, commands⟩ := t
  have hfiles : ((done X (fun node => some (node.setImage image none)) s).getD s.node).host.files file =
      s.node.host.files file := by
    unfold done
    split <;> rfl
  rw [dimport, Returns, run_bind_of_returns (returns_texec_unchecked _ s), ← Returns, returns_texec_iff, dockerImport,
    Option.map_eq_some_iff, hfiles]
  simp only [State.mk.injEq]
  constructor
  · rintro ⟨⟨hsucceeds, content, hfile, hnode⟩, hcommands⟩
    exact ⟨hsucceeds, content, hfile, hnode.symm, hcommands⟩
  · rintro ⟨hsucceeds, content, hfile, hnode, hcommands⟩
    exact ⟨⟨hsucceeds, content, hfile, hnode.symm⟩, hcommands⟩

/-- The archive of an image is as it was. -/
def SameArchive (image : Text) (node node' : Node) : Prop :=
  node'.host.files (archive image) = node.host.files (archive image) ∧ node'.images image = node.images image

/-- What is done for a container leaves the archives and images, apart from their installation. -/
theorem tolerates_sameArchive (image container : Text) : Tolerates (SameArchive image) container where
  refl _ := ⟨rfl, rfl⟩
  trans _ _ _ h₁ h₂ := ⟨h₂.1.trans h₁.1, h₂.2.trans h₁.2⟩
  file _ path _ hpath :=
    ⟨Function.update_of_ne (fun heq : archive image = path => not_own_archive (heq ▸ hpath)) _ _, rfl⟩
  enabled _ _ _ _ := ⟨rfl, rfl⟩
  removed _ := ⟨rfl, rfl⟩
  host _ _ hfiles _ := ⟨congrFun hfiles _, rfl⟩

/-- An image that is installed from a download: the archive has been unpacked, imported and removed. -/
theorem image_of_returns
    (h : Returns (installContainer X app.name (compressed app.name) app.name app.importOptions) s ⟨⟩ t)
    (hdownload : s.node.host.files (compressed app.name) = some X.download) :
    (∃ content, X.unzip X.download = some content ∧ t.node.images app.name = some content) ∧
      t.node.host.files (archive app.name) = none := by
  rw [installContainer, returns_bind_iff] at h
  obtain ⟨fullPath, s₁, hunpack, h⟩ := h
  obtain ⟨rfl, ⟨-, hgunzip⟩, -⟩ := returns_unpack_iff.mp hunpack
  obtain ⟨packed, content, ⟨hpacked, -, hcontent⟩, hnode⟩ := gunzip_eq_some_iff.mp hgunzip
  obtain ⟨s₂, hdestroy, h⟩ := returns_then_iff.mp h
  obtain ⟨s₃, himport, hrm⟩ := returns_then_iff.mp h
  obtain ⟨-, content', hfile, rfl⟩ := returns_dimport_iff.mp himport
  have hsame := (tolerates_sameArchive app.name app.name).ddestroy.of_returns hdestroy
  have hcontent' : content' = content := by
    rw [hsame.1, hnode] at hfile
    exact Option.some.inj (hfile.symm.trans (Function.update_self ..))
  obtain rfl := Option.some.inj (hdownload.symm.trans hpacked)
  have ht := (returns_texec_iff.mp hrm).1.2
  rw [← Option.some.inj ht]
  refine ⟨⟨content, hcontent, ?_⟩, Function.update_self ..⟩
  rw [← hcontent']
  exact Function.update_self ..

/-- An import leaves the host. -/
theorem keeps_dimport {file importOptions : Text} :
    Keeps (On fun node node' => node'.host = node.host) (dimport X file image importOptions) := by
  have hR : Chains fun node node' : Node => node'.host = node.host :=
    ⟨fun _ => rfl, fun _ _ _ h₁ h₂ => h₂.trans h₁⟩
  refine hR.bind (hR.texec_some fun _ => rfl) fun _ => hR.texec fun node node' h => ?_
  obtain ⟨content, -, rfl⟩ := Option.map_eq_some_iff.mp h
  rfl

/-- What is done up to the creation of the container leaves the directories. -/
theorem tree_of_ddestroy (h : Returns (ddestroy X container) s r t) : t.node.host.tree = s.node.host.tree := by
  have hR : Bears (fun node node' => node'.host.tree = node.host.tree) container :=
    { refl := fun _ => rfl
      trans := fun _ _ _ h₁ h₂ => h₂.trans h₁
      file := fun _ _ _ _ => rfl
      enabled := fun _ _ _ _ => rfl
      removed := fun _ => rfl }
  exact hR.ddestroy.of_returns h

end GexCloud.Applications
