import GexCloud.Containers.Applications

/-! # What the functions for an application leave alone

The functions for a container write files and start services that have their names from it. What lies apart from
these, they leave.

* `On`, `Chains`, `Bears`, `Tolerates` — a relation between nodes that the changes for a container keep; what the
  functions keep then.
* `Own` — the files of a container.
* **`apart_iff`** — which applications have nothing of each other's: the service of the VPN of an application has the
  name of the application after `vpnclient_`, and an application can be called so, too. -/

namespace GexCloud.Applications

open Texts Scripts Services
open Containers (Host Docker Answers)

/-! ## Names of files -/

/-- The file that stands for a service which is not to be started. -/
def disabledFile (service : Text) : Text := "/etc/systemd/system/".toList ++ service ++ ".disabled".toList

/-- What is between the same beginning and the same ending. -/
theorem affixes_inj {p q a b : Text} : p ++ a ++ q = p ++ b ++ q ↔ a = b :=
  (List.append_left_inj q).trans (List.append_right_inj p)

/-- Different services have different unit files. -/
theorem unitFile_inj {a b : Text} : unitFile a = unitFile b ↔ a = b := affixes_inj

/-- Different containers have different configurations of their VPN. -/
theorem clientConf_inj {a b : Text} : clientConf a = clientConf b ↔ a = b := affixes_inj

/-- Different images have different archives. -/
theorem archive_inj {a b : Text} : archive a = archive b ↔ a = b := affixes_inj

/-- The VPNs of different containers are different services. -/
theorem vpnService_inj {a b : Text} : vpnService a = vpnService b ↔ a = b := List.append_right_inj _

/-- A container is not its own VPN. -/
theorem ne_vpnService (container : Text) : container ≠ vpnService container := by
  intro h
  have hlength : container.length = 10 + container.length := (congrArg List.length h).trans List.length_append
  omega

/-- The last letter is that of the ending. -/
theorem getLast?_append_of {p q : Text} {ch : Char} (h : q.getLast? = some ch) : (p ++ q).getLast? = some ch := by
  rw [List.getLast?_append, h]
  rfl

/-- A unit file ends in `.service`. -/
theorem getLast?_unitFile (service : Text) : (unitFile service).getLast? = some 'e' := getLast?_append_of rfl

/-- A file that keeps a service from being started ends in `.disabled`. -/
theorem getLast?_disabledFile (service : Text) : (disabledFile service).getLast? = some 'd' := getLast?_append_of rfl

/-- A configuration ends in `.conf`. -/
theorem getLast?_clientConf (container : Text) : (clientConf container).getLast? = some 'f' := getLast?_append_of rfl

/-- An archive ends in `.tar`. -/
theorem getLast?_archive (image : Text) : (archive image).getLast? = some 'r' := getLast?_append_of rfl

/-- A compressed archive ends in `.gz`. -/
theorem getLast?_compressed (container : Text) : (compressed container).getLast? = some 'z' := getLast?_append_of rfl

/-- Names of files that end in different letters. -/
theorem ne_of_getLast? {p q : Text} {a b : Char} (hp : p.getLast? = some a) (hq : q.getLast? = some b) (hab : a ≠ b) :
    p ≠ q := by
  rintro rfl
  exact hab (Option.some.inj (hp.symm.trans hq))

/-! ## Relations that the functions keep -/

/-- A relation between nodes, for the states of a script. -/
def On (R : Node → Node → Prop) (s t : State) : Prop := R s.node t.node

/-- The files that the functions for a container write and remove, besides archives. -/
inductive Own (container : Text) : Text → Prop
  | unit : Own container (unitFile container)
  | disabled : Own container (disabledFile container)
  | vpnUnit : Own container (unitFile (vpnService container))
  | vpnDisabled : Own container (disabledFile (vpnService container))
  | conf : Own container (clientConf container)
  | compressed : Own container (compressed container)
  | avahiHosts : Own container Avahi.avahiHosts

/-- The containers of other names. -/
def others (container : Text) (host : Host) : List Containers.Container :=
  host.containers.filter fun k => k.name ≠ container

/-- A relation between nodes that steps one after the other keep when each of them does. -/
structure Chains (R : Node → Node → Prop) : Prop where
  refl : ∀ node, R node node
  trans : ∀ node₁ node₂ node₃, R node₁ node₂ → R node₂ node₃ → R node₁ node₃

/-- The functions that remove a container keep a relation. -/
structure Bears (R : Node → Node → Prop) (container : Text) : Prop extends Chains R where
  file : ∀ node path content, Own container path → R node (node.setFile path content)
  enabled : ∀ node service enabled, service = container ∨ service = vpnService container →
    R node (node.setEnabled service enabled)
  removed : ∀ node : Node, R node { node with host := { node.host with containers := others container node.host } }

/-- **A relation tolerates the functions for a container**: they keep it, apart from what they do to archives and
images. -/
structure Tolerates (R : Node → Node → Prop) (container : Text) : Prop extends Bears R container where
  host : ∀ (node : Node) (host : Host), host.files = node.host.files →
    others container host = others container node.host → R node { node with host := host }

variable {X : Outside} {R : Node → Node → Prop} {container : Text} {α : Type}

section Chained

variable (hR : Chains R)

include hR

/-- A state is related to itself. -/
theorem Chains.onRefl (s : State) : On R s s := hR.refl _

/-- Steps one after the other are one step. -/
theorem Chains.onTrans (s t u : State) : On R s t → On R t u → On R s u := hR.trans _ _ _

/-- Scripts one after the other keep what each of them keeps. -/
theorem Chains.bind {β : Type} {m : Script α} {f : α → Script β} (hm : Keeps (On R) m)
    (hf : ∀ a, Keeps (On R) (f a)) : Keeps (On R) (m >>= f) := Keeps.bind hR.onTrans hm hf

/-- A result changes nothing. -/
theorem Chains.pure (a : α) : Keeps (On R) (pure a : Script α) := Keeps.pure hR.onRefl a

/-- An exception changes nothing. -/
theorem Chains.throw (e : RubyError) : Keeps (On R) (throw e : Script α) := Keeps.throw hR.onRefl e

/-- A command keeps what its effect keeps, whether it succeeds or not. -/
theorem Chains.command {effect : Node → Option Node} (heffect : ∀ node node', effect node = some node' → R node node') :
    Keeps (On R) (command X effect) := by
  intro s
  change R s.node (Applications.command X effect s).2.node
  unfold Applications.command
  split
  · rename_i node h
    split at h
    · exact heffect _ _ h
    · cases h
  · exact hR.refl _

/-- So does `texec`, which may raise an exception afterwards. -/
theorem Chains.texec {cmd : Text} {effect : Node → Option Node} {checkreturn : Bool}
    (heffect : ∀ node node', effect node = some node' → R node node') :
    Keeps (On R) (texec X cmd effect checkreturn) := by
  refine hR.bind (hR.command heffect) fun success => ?_
  split
  · exact hR.pure _
  · exact hR.throw _

/-- A command that does one thing. -/
theorem Chains.texec_some {cmd : Text} {change : Node → Node} {checkreturn : Bool}
    (hchange : ∀ node, R node (change node)) :
    Keeps (On R) (Applications.texec X cmd (fun node => some (change node)) checkreturn) :=
  hR.texec fun node _ h => Option.some.inj h ▸ hchange node

end Chained

/-! ## Commands of systemd -/

/-- What `systemctl` is called with for a service that is started. -/
def actions : List Text :=
  ["systemctl stop ".toList, "systemctl disable ".toList, "systemctl enable ".toList, "systemctl start ".toList]

/-- Neither of two actions begins with the other. -/
theorem not_prefix_append {p q rest : Text} (hpq : ¬ p <+: q) (hqp : ¬ q <+: p) : ¬ p <+: q ++ rest := fun h =>
  (List.prefix_or_prefix_of_prefix h (List.prefix_append q rest)).elim hpq hqp

/-- What disabling a service does to the node. -/
theorem systemctl_disable (service : Text) (node : Node) :
    systemctl ("systemctl disable ".toList ++ service) node = some (node.setEnabled service false) := by
  rw [systemctl, if_pos (List.prefix_append _ _)]
  rfl

/-- A service is enabled only where it has a unit file. -/
theorem systemctl_enable (service : Text) (node : Node) : systemctl ("systemctl enable ".toList ++ service) node =
    if (node.host.files (unitFile service)).isSome then some (node.setEnabled service true) else none := by
  rw [systemctl, if_neg (not_prefix_append (by decide) (by decide)), if_pos (List.prefix_append _ _)]
  rfl

/-- Stopping a service leaves the node. -/
theorem systemctl_stop (service : Text) (node : Node) :
    systemctl ("systemctl stop ".toList ++ service) node = some node := by
  rw [systemctl, if_neg (not_prefix_append (by decide) (by decide)),
    if_neg (not_prefix_append (by decide) (by decide))]

/-- Starting a service leaves the node. -/
theorem systemctl_start (service : Text) (node : Node) :
    systemctl ("systemctl start ".toList ++ service) node = some node := by
  rw [systemctl, if_neg (not_prefix_append (by decide) (by decide)),
    if_neg (not_prefix_append (by decide) (by decide))]

/-- Other commands leave the node. -/
theorem systemctl_of_mem {action service : Text} {node node' : Node} (haction : action ∈ actions)
    (h : systemctl (action ++ service) node = some node') :
    (∃ enabled, node' = node.setEnabled service enabled) ∨ node' = node := by
  simp only [actions, List.mem_cons, List.not_mem_nil, or_false] at haction
  rcases haction with rfl | rfl | rfl | rfl
  · rw [systemctl_stop] at h
    exact .inr (Option.some.inj h).symm
  · rw [systemctl_disable] at h
    exact .inl ⟨false, (Option.some.inj h).symm⟩
  · rw [systemctl_enable] at h
    split at h
    · exact .inl ⟨true, (Option.some.inj h).symm⟩
    · cases h
  · rw [systemctl_start] at h
    exact .inr (Option.some.inj h).symm

/-! ## Creating a container -/

/-- What the creation of a container comes to: `/etc/avahi/hosts` and the containers of the name can be others. -/
def Created (container : Text) (host host' : Host) : Prop :=
  (∃ content, host'.files = Function.update host.files Avahi.avahiHosts content) ∧
    others container host' = others container host

/-- Files and containers of other names that are as they were. -/
theorem Created.of_same {host host' : Host} (hfiles : host'.files = host.files)
    (hothers : others container host' = others container host) : Created container host host' :=
  ⟨⟨host.files Avahi.avahiHosts, by rw [hfiles, Function.update_eq_self]⟩, hothers⟩

/-- A host is as it was. -/
theorem Created.refl (host : Host) : Created container host host := .of_same rfl rfl

/-- Two changes for the same container are one. -/
theorem Created.trans (host₁ host₂ host₃ : Host) (h₁ : Created container host₁ host₂)
    (h₂ : Created container host₂ host₃) : Created container host₁ host₃ := by
  obtain ⟨⟨content₁, hfiles₁⟩, hothers₁⟩ := h₁
  obtain ⟨⟨content₂, hfiles₂⟩, hothers₂⟩ := h₂
  exact ⟨⟨content₂, by rw [hfiles₂, hfiles₁, Function.update_idem]⟩, hothers₂.trans hothers₁⟩

/-- A directory is removed and made again. -/
theorem keeps_initContainerDir {A : Answers} {Q : Host → Host → Prop} (hrefl : ∀ host, Q host host)
    (htrans : ∀ host₁ host₂ host₃, Q host₁ host₂ → Q host₂ host₃ → Q host₁ host₃)
    (htree : ∀ (host : Host) tree, Q host { host with tree := tree }) :
    Keeps Q (Containers.initContainerDir A container false) := by
  have hon : ∀ c op, Keeps Q (Containers.onTree A c op) := by
    intro c op
    refine Keeps.bind htrans (Keeps.ensure hrefl _ _) fun _ => ?_
    refine Keeps.bind htrans (Keeps.get hrefl) fun host => ?_
    split
    · exact Keeps.modify fun host => htree host _
    · exact Keeps.throw hrefl _
  exact Keeps.bind htrans (hon _ _) fun _ => Keeps.bind htrans (hon _ _) fun _ => Keeps.ensure hrefl _ _

/-- Making the directory of a container is no matter for the files of the others. -/
theorem Created.initContainerDir {A : Answers} :
    Keeps (Created container) (Containers.initContainerDir A container false) :=
  keeps_initContainerDir Created.refl Created.trans fun _ _ => .of_same rfl rfl

/-- Removing the old container is no matter for the others. -/
theorem keeps_dockerRm {A : Answers} : Keeps (Created container) (Containers.dockerRm A container) := by
  unfold Containers.dockerRm
  split
  · exact Keeps.modify fun host => .of_same rfl (by simp [others])
  · exact Keeps.ensure Created.refl _ _

/-- The new container has the name of the old one. -/
theorem keeps_dockerCreate {D : Docker} {A : Answers} {image : Text} {mounts : List Containers.Mount} :
    Keeps (Created container) (Containers.dockerCreate D A container image mounts) := by
  refine Keeps.bind Created.trans (Keeps.ensure Created.refl _ _) fun _ => ?_
  refine Keeps.bind Created.trans (Keeps.get Created.refl) fun host => ?_
  split
  · exact Keeps.throw Created.refl _
  · exact Keeps.modify fun host => .of_same rfl (by simp [others, List.filter_append])

/-- The files in the directory of the container are not on the host. -/
theorem keeps_createFileWithLines {A : Answers} {file : Text} :
    Keeps (Created container) (Containers.createFileWithLines A container file) :=
  Keeps.bind Created.trans (Keeps.lift Created.refl _) fun _ => Keeps.ensure Created.refl _ _

/-- Of the files only `/etc/avahi/hosts` is changed for the name of the container. -/
theorem keeps_addContanerToAvahi {A : Answers} {ip : Text} :
    Keeps (Created container) (Containers.addContanerToAvahi A container ip) := by
  intro host
  have hpath : Avahi.assertPath Avahi.avahiHosts = .ok () := by decide
  refine run_bind_rel Created.trans (Created.refl host) fun _ t h => ?_
  obtain ⟨rfl, rfl⟩ := returns_get_iff.mp h
  rw [Avahi.appendFileWithLines, hpath]
  exact run_bind_rel Created.trans ⟨⟨_, rfl⟩, rfl⟩ fun _ t _ => Keeps.ensure Created.refl _ _ t

/-- A container without volumes is created. -/
theorem keeps_dcreateContainer {D : Docker} {A : Answers} {imageTag ip hostName dnsIp : Text}
    {hostRecords : List Text} : Keeps (Created container)
      (Containers.dcreateContainer D A container imageTag [] [] ip hostName dnsIp hostRecords false) := by
  have hensure : ∀ c e, Keeps (Created container) (ensure c e : Containers.Script PUnit) := Keeps.ensure Created.refl
  refine Keeps.bind Created.trans (hensure _ _) fun _ => Keeps.bind Created.trans (hensure _ _) fun _ =>
    Keeps.bind Created.trans (hensure _ _) fun _ => Keeps.bind Created.trans (Keeps.get Created.refl) fun _ =>
    Keeps.bind Created.trans keeps_dockerRm fun _ => Keeps.bind Created.trans Created.initContainerDir fun _ => ?_
  refine Keeps.bind Created.trans (Keeps.bind Created.trans ?_ fun _ => keeps_createFileWithLines) fun _ => ?_
  · exact Keeps.forM Created.refl Created.trans _ fun _ _ => hensure _ _
  refine Keeps.bind Created.trans (Keeps.bind Created.trans (hensure _ _) fun _ => keeps_createFileWithLines) fun _ =>
    Keeps.bind Created.trans keeps_dockerCreate fun _ => Keeps.bind Created.trans (Keeps.pure Created.refl _) fun _ =>
    Keeps.bind Created.trans (Keeps.pure Created.refl _) fun _ =>
    Keeps.bind Created.trans (Keeps.pure Created.refl _) fun _ => keeps_addContanerToAvahi

/-! ## What the functions keep -/

/-- The path of the archive that has been downloaded. -/
theorem eq_compressed_of_returns {app : App} {fullPath : Text} {s t : State}
    (h : Returns (downloadContainerAppHub X app) s fullPath t) : fullPath = compressed app.name := by
  simp only [downloadContainerAppHub, returns_bind_iff, returns_pure_iff] at h
  obtain ⟨_, _, _, _, _, _, _, _, _, rfl, _⟩ := h
  rfl

/-- A command of systemd on a service. -/
theorem Chains.systemctl (hR : Chains R) {service : Text}
    (henabled : ∀ node enabled, R node (node.setEnabled service enabled)) {action : Text} (haction : action ∈ actions)
    {checkreturn : Bool} :
    Keeps (On R) (Services.texec (machine X) (action ++ service) checkreturn) := by
  refine hR.bind (hR.bind (hR.command fun node node' h => ?_) fun _ => hR.pure _) fun status => ?_
  · rcases systemctl_of_mem haction h with ⟨enabled, rfl⟩ | rfl
    · exact henabled node enabled
    · exact hR.refl _
  · split
    · exact hR.pure _
    · split
      · exact hR.throw _
      · exact hR.pure _

/-- Starting a service keeps all relations: nothing on the node is changed. -/
theorem Chains.startChecked (hR : Chains R) {name : Option Text} : Keeps (On R) (startChecked (machine X) name) := by
  unfold Services.startChecked
  split
  · refine hR.bind (hR.bind (Keeps.get hR.onRefl) fun s => hR.bind ?_ fun _ => hR.pure _) fun _ => hR.pure _
    exact Keeps.orThrow hR.onRefl _ _
  · exact hR.pure _

/-- Enabling and starting keeps what enabling keeps. -/
theorem Chains.enableAndStart (hR : Chains R) {name : Option Text} {service : Text}
    (henabled : ∀ node enabled, R node (node.setEnabled service enabled)) :
    Keeps (On R) (enableAndStart (machine X) name service) :=
  hR.bind (hR.systemctl henabled (by simp [actions])) fun _ =>
    hR.bind (hR.systemctl henabled (by simp [actions])) fun _ =>
    hR.bind (hR.systemctl henabled (by simp [actions])) fun _ => hR.bind hR.startChecked fun _ =>
    hR.bind (hR.systemctl henabled (by simp [actions])) fun _ => Keeps.modify hR.onRefl

/-- `enable_and_start_service` keeps what enabling keeps, however often it is retried. -/
theorem Chains.enableAndStartService (hR : Chains R) {name : Option Text} {service : Text}
    (henabled : ∀ node enabled, R node (node.setEnabled service enabled)) :
    Keeps (On R) (enableAndStartService (machine X) name service) := by
  rw [Services.enableAndStartService, iteratorExec_eq_retry]
  exact Retries.keeps_retry hR.onTrans (hR.enableAndStart henabled) hR.onRefl _

section Borne

variable (hR : Bears R container)

include hR

/-- A file of the container can be removed. -/
theorem Bears.removeFile {path : Text} (hpath : Own container path) :
    Keeps (On R) (removeFile path) := Keeps.modify fun s => hR.file s.node path none hpath

/-- The container can be removed. -/
theorem Bears.drm : Keeps (On R) (drm X container) := by
  refine hR.bind (hR.command fun node node' h => ?_) fun _ => hR.pure _
  obtain rfl := Option.some.inj h
  exact hR.removed node

/-- Its two services can be disabled and removed. -/
theorem Bears.disableAndRemoveService {service : Text}
    (hservice : service = container ∨ service = vpnService container) :
    Keeps (On R) (disableAndRemoveService X service) := by
  have hfiles : Own container (unitFile service) ∧ Own container (disabledFile service) := by
    rcases hservice with rfl | rfl
    · exact ⟨.unit, .disabled⟩
    · exact ⟨.vpnUnit, .vpnDisabled⟩
  refine hR.bind (hR.texec fun node node' h => ?_) fun _ =>
    hR.bind (hR.removeFile hfiles.1) fun _ => hR.removeFile hfiles.2
  rw [systemctl_disable] at h
  obtain rfl := Option.some.inj h
  exact hR.enabled node service false hservice

/-- `ddestroy` removes only what is of the container. -/
theorem Bears.ddestroy : Keeps (On R) (ddestroy X container) :=
  hR.bind (hR.disableAndRemoveService (.inl rfl)) fun _ =>
    hR.bind hR.drm fun _ => hR.disableAndRemoveService (.inr rfl)

/-- The download goes to a file of the container. -/
theorem Bears.downloadContainerAppHub {app : App} (happ : app.name = container) :
    Keeps (On R) (downloadContainerAppHub X app) := by
  subst happ
  exact hR.bind (hR.texec_some fun node => hR.file node _ none .compressed) fun _ =>
    hR.bind (Keeps.modify fun s => hR.file s.node _ _ .compressed) fun _ =>
    hR.bind (hR.texec_some hR.refl) fun _ => hR.pure _

/-- A template for a file of the container can be processed. -/
theorem Bears.processTemplateFile {destination content : Text} (hdestination : Own container destination) :
    Keeps (On R) (processTemplateFile X destination content) :=
  hR.texec_some fun node => hR.file node destination (some content) hdestination

/-- What is done in the container leaves the node. -/
theorem Bears.setupContainer : Keeps (On R) (setupContainer X container) :=
  hR.bind (hR.texec_some hR.refl) fun _ => hR.bind (hR.texec_some hR.refl) fun _ =>
    hR.bind (hR.texec_some hR.refl) fun _ => hR.bind (hR.texec_some hR.refl) fun _ =>
    hR.bind (hR.texec_some hR.refl) fun _ => hR.texec_some hR.refl

/-- The two services are set up from files of the container. -/
theorem Bears.setupContainerServiceAndVpn {app : App} (happ : app.name = container) :
    Keeps (On R) (setupContainerServiceAndVpn X app) := by
  subst happ
  exact hR.bind (hR.processTemplateFile .unit) fun _ =>
    hR.bind (hR.enableAndStartService fun node enabled => hR.enabled node _ enabled (.inl rfl)) fun _ =>
    hR.bind (hR.processTemplateFile .conf) fun _ => hR.bind (hR.processTemplateFile .vpnUnit) fun _ =>
    hR.bind hR.setupContainer fun _ =>
    hR.bind (hR.enableAndStartService fun node enabled => hR.enabled node _ enabled (.inr rfl)) fun _ =>
    hR.texec_some hR.refl

/-- An image is installed: beside what is of the container, this changes an image and archives. -/
theorem Bears.installContainer {filePath imageName importOptions : Text}
    (himage : ∀ node content, R node (node.setImage imageName content))
    (harchive : ∀ node, R node (node.setFile (archive imageName) none))
    (hunpack : Keeps (On R) (unpack X container filePath)) :
    Keeps (On R) (installContainer X container filePath imageName importOptions) := by
  refine hR.bind hunpack fun fullPath => hR.bind hR.ddestroy fun _ => hR.bind ?_ fun _ => hR.texec_some harchive
  refine hR.bind (hR.texec_some fun node => himage node none) fun _ => hR.texec fun node node' h => ?_
  obtain ⟨content, -, rfl⟩ := Option.map_eq_some_iff.mp h
  exact himage node (some content)

/-- `remove_container.rb` removes only what is of the container. -/
theorem Bears.removeContainer : Keeps (On R) (removeContainer X container) := by
  refine hR.bind (Keeps.rescue hR.onTrans ?_ fun _ => hR.pure _) fun _ => hR.drm
  exact hR.bind (hR.disableAndRemoveService (.inl rfl)) fun _ =>
    hR.bind (hR.disableAndRemoveService (.inr rfl)) fun _ =>
    hR.bind (hR.texec_some fun node => hR.file node _ none .conf) fun _ =>
    hR.bind (hR.texec_some hR.refl) fun _ => hR.texec_some hR.refl

end Borne

section Tolerated

variable (hR : Tolerates R container)

include hR

/-- A part of a script that creates the container keeps it. -/
theorem Tolerates.onHost {m : Containers.Script α} (hm : Keeps (Created container) m) : Keeps (On R) (onHost m) := by
  intro s
  obtain ⟨⟨content, hfiles⟩, hothers⟩ := hm s.node.host
  -- the line for Avahi first, then all that is not in a file
  exact hR.trans _ _ _ (hR.file s.node Avahi.avahiHosts content .avahiHosts) (hR.host _ _ hfiles hothers)

/-- What comes after the installation of the image in `run_container.rb`. -/
theorem Tolerates.start {app : App} (happ : app.name = container) : Keeps (On R) (do
    Applications.onHost (Containers.dcreateContainer X.docker X.answers app.name app.name [] [] app.ip app.hostName
      app.dnsIp app.hostRecords false)
    Applications.texec X ("docker start ".toList ++ app.name) some true
    Applications.setupContainerServiceAndVpn X app) := by
  refine hR.bind ?_ fun _ => hR.bind (hR.texec_some hR.refl) fun _ => hR.setupContainerServiceAndVpn happ
  subst happ
  exact hR.onHost keeps_dcreateContainer

/-- **`run_container.rb`** keeps what the installation of its image keeps. -/
theorem Tolerates.runContainer {app : App} (happ : app.name = container) (hinstall : Keeps (On R)
      (Applications.installContainer X app.name (compressed app.name) app.name app.importOptions)) :
    Keeps (On R) (runContainer X app) := by
  refine hR.bind (hR.onHost (happ ▸ Created.initContainerDir)) fun _ s => ?_
  refine run_bind_rel hR.onTrans (hR.downloadContainerAppHub happ s) fun fullPath t h => ?_
  obtain rfl := eq_compressed_of_returns h
  exact hR.bind hinstall (fun _ => hR.start happ) t

end Tolerated

/-- What the unpacking of an archive keeps. -/
theorem Chains.unpack (hR : Chains R) {filePath : Text}
    (hpacked : ".gz".toList <:+ filePath → ∀ node : Node, R node (node.setFile filePath none))
    (hplain : ∀ node content, R node (node.setFile (chompGz filePath) content))
    (harchive : ∀ node content, R node (node.setFile (archive container) (some content))) :
    Keeps (On R) (unpack X container filePath) := by
  unfold Applications.unpack
  split
  · rename_i hgz
    refine hR.bind (hR.texec fun node node' h => ?_) fun _ => ?_
    · unfold gunzip at h
      split at h
      · obtain ⟨content, -, rfl⟩ := Option.map_eq_some_iff.mp h
        exact hR.trans _ _ _ (hpacked hgz node) (hplain _ (some content))
      · cases h
    · dsimp only
      split
      · exact hR.pure _
      · refine hR.bind (hR.texec fun node node' h => ?_) fun _ => hR.pure _
        obtain ⟨content, -, rfl⟩ := Option.map_eq_some_iff.mp h
        exact hR.trans _ _ _ (hplain node none) (harchive _ content)
  · exact hR.pure _

/-! ## Applications that have nothing of each other's -/

/-- The files of an application that is set up. -/
inductive Lasting (container : Text) : Text → Prop
  | unit : Lasting container (unitFile container)
  | vpnUnit : Lasting container (unitFile (vpnService container))
  | conf : Lasting container (clientConf container)

/-- An application is as it was. -/
structure Untouched (container : Text) (node node' : Node) : Prop where
  files : ∀ path, Lasting container path → node'.host.files path = node.host.files path
  enabled : ∀ service, service = container ∨ service = vpnService container →
    node'.enabled service = node.enabled service
  containers : (node'.host.containers.filter fun k => k.name = container) =
    node.host.containers.filter fun k => k.name = container

/-- **Two applications have nothing of each other's**: neither is the VPN of the other. -/
structure Apart (container other : Text) : Prop where
  ne : other ≠ container
  ne_vpn : other ≠ vpnService container
  vpn_ne : vpnService other ≠ container

/-- The archive that is installed from is not unpacked to a file of the application. -/
def Op.Spares (container : Text) : Op → Prop
  | .install _ bareMetal filePath =>
    ¬ Lasting container (chompGz (if bareMetal then joinBareMetal filePath else filePath))
  | _ => True

variable {other path service image : Text} {app : App} {node node' : Node} {op : Op}

/-- The unit files of a container are those of its two services. -/
theorem Own.of_unitFile (h : Own container (unitFile service)) :
    service = container ∨ service = vpnService container := by
  generalize hpath : unitFile service = path at h
  cases h with
  | unit => exact .inl (unitFile_inj.mp hpath)
  | vpnUnit => exact .inr (unitFile_inj.mp hpath)
  | disabled => exact absurd hpath (ne_of_getLast? (getLast?_unitFile _) (getLast?_disabledFile _) (by decide))
  | vpnDisabled => exact absurd hpath (ne_of_getLast? (getLast?_unitFile _) (getLast?_disabledFile _) (by decide))
  | conf => exact absurd hpath (ne_of_getLast? (getLast?_unitFile _) (getLast?_clientConf _) (by decide))
  | compressed => exact absurd hpath (ne_of_getLast? (getLast?_unitFile _) (getLast?_compressed _) (by decide))
  | avahiHosts => exact absurd hpath (ne_of_getLast? (getLast?_unitFile _) rfl (by decide))

/-- The configuration of a container is its own. -/
theorem Own.of_clientConf (h : Own container (clientConf other)) : other = container := by
  generalize hpath : clientConf other = path at h
  cases h with
  | unit => exact absurd hpath (ne_of_getLast? (getLast?_clientConf _) (getLast?_unitFile _) (by decide))
  | vpnUnit => exact absurd hpath (ne_of_getLast? (getLast?_clientConf _) (getLast?_unitFile _) (by decide))
  | disabled => exact absurd hpath (ne_of_getLast? (getLast?_clientConf _) (getLast?_disabledFile _) (by decide))
  | vpnDisabled => exact absurd hpath (ne_of_getLast? (getLast?_clientConf _) (getLast?_disabledFile _) (by decide))
  | conf => exact clientConf_inj.mp hpath
  | compressed => exact absurd hpath (ne_of_getLast? (getLast?_clientConf _) (getLast?_compressed _) (by decide))
  | avahiHosts => exact absurd hpath (ne_of_getLast? (getLast?_clientConf _) rfl (by decide))

/-- Archives are none of the files that are written for a container. -/
theorem not_own_archive : ¬ Own container (archive image) := by
  generalize hpath : archive image = path
  intro h
  cases h with
  | unit => exact absurd hpath (ne_of_getLast? (getLast?_archive _) (getLast?_unitFile _) (by decide))
  | vpnUnit => exact absurd hpath (ne_of_getLast? (getLast?_archive _) (getLast?_unitFile _) (by decide))
  | disabled => exact absurd hpath (ne_of_getLast? (getLast?_archive _) (getLast?_disabledFile _) (by decide))
  | vpnDisabled => exact absurd hpath (ne_of_getLast? (getLast?_archive _) (getLast?_disabledFile _) (by decide))
  | conf => exact absurd hpath (ne_of_getLast? (getLast?_archive _) (getLast?_clientConf _) (by decide))
  | compressed => exact absurd hpath (ne_of_getLast? (getLast?_archive _) (getLast?_compressed _) (by decide))
  | avahiHosts => exact absurd hpath (ne_of_getLast? (getLast?_archive _) rfl (by decide))

/-- The files of an application are no archives. -/
theorem Lasting.getLast? (h : Lasting container path) : path.getLast? = some 'e' ∨ path.getLast? = some 'f' := by
  cases h with
  | unit => exact .inl (getLast?_unitFile _)
  | vpnUnit => exact .inl (getLast?_unitFile _)
  | conf => exact .inr (getLast?_clientConf _)

/-- A file of an application is none that ends in another letter. -/
theorem Lasting.ne {q : Text} {ch : Char} (h : Lasting container path) (hq : q.getLast? = some ch) (he : ch ≠ 'e')
    (hf : ch ≠ 'f') : path ≠ q := by
  rcases h.getLast? with hpath | hpath
  · exact ne_of_getLast? hpath hq he.symm
  · exact ne_of_getLast? hpath hq hf.symm

/-- No file of an application is one of an application apart from it. -/
theorem Apart.not_own (h : Apart container other) (hpath : Lasting container path) : ¬ Own other path := by
  intro hown
  cases hpath with
  | unit =>
    rcases hown.of_unitFile with heq | heq
    · exact h.ne heq.symm
    · exact h.vpn_ne heq.symm
  | vpnUnit =>
    rcases hown.of_unitFile with heq | heq
    · exact h.ne_vpn heq.symm
    · exact h.ne (vpnService_inj.mp heq).symm
  | conf => exact h.ne hown.of_clientConf.symm

/-- A file that is none of the application's can be changed. -/
theorem untouched_setFile {content : Option Text} (h : ¬ Lasting container path) :
    Untouched container node (node.setFile path content) where
  files p hp := Function.update_of_ne (fun heq : p = path => h (heq ▸ hp)) _ _
  enabled _ _ := rfl
  containers := rfl

/-- Containers of another name can be changed. -/
theorem filter_eq_of_others {host host' : Host} (hne : container ≠ other)
    (h : others other host' = others other host) : (host'.containers.filter fun k => k.name = container) =
      host.containers.filter fun k => k.name = container := by
  have hfilter : ∀ host : Host, (host.containers.filter fun k => k.name = container) =
      (others other host).filter fun k => k.name = container := by
    intro host
    rw [others, List.filter_filter]
    refine List.filter_congr fun k _ => ?_
    by_cases hk : k.name = container <;> simp [hk, hne]
  rw [hfilter, hfilter, h]

/-- **The functions for an application leave those apart from it.** -/
theorem Apart.tolerates (h : Apart container other) : Tolerates (Untouched container) other where
  refl _ := ⟨fun _ _ => rfl, fun _ _ => rfl, rfl⟩
  trans _ _ _ h₁ h₂ := ⟨fun p hp => (h₂.files p hp).trans (h₁.files p hp),
    fun service hs => (h₂.enabled service hs).trans (h₁.enabled service hs), h₂.containers.trans h₁.containers⟩
  file _ _ _ hpath := untouched_setFile fun hlasting => h.not_own hlasting hpath
  enabled node service enabled hservice := by
    refine ⟨fun _ _ => rfl, fun s hs => Function.update_of_ne ?_ _ _, rfl⟩
    rcases hservice with rfl | rfl <;> rcases hs with rfl | rfl
    · exact h.ne.symm
    · exact h.ne_vpn.symm
    · exact h.vpn_ne.symm
    · exact fun heq => h.ne (vpnService_inj.mp heq).symm
  removed node := ⟨fun _ _ => rfl, fun _ _ => rfl, filter_eq_of_others h.ne.symm (by simp [others])⟩
  host node host hfiles hothers :=
    ⟨fun p _ => congrFun hfiles p, fun _ _ => rfl, filter_eq_of_others h.ne.symm hothers⟩

/-- An archive is no file of an application that is set up. -/
theorem not_lasting_archive : ¬ Lasting container (archive image) := fun h =>
  h.ne (getLast?_archive image) (by decide) (by decide) rfl

/-- Nor is a compressed one. -/
theorem not_lasting_of_gz (hgz : ".gz".toList <:+ path) : ¬ Lasting container path := by
  obtain ⟨plain, rfl⟩ := hgz
  exact fun h => h.ne (getLast?_append_of rfl) (by decide) (by decide) rfl

/-- The download is unpacked to the archive of the image. -/
theorem chompGz_compressed (container : Text) : chompGz (compressed container) = archive container := by
  rw [chompGz, compressed, List.length_append]
  exact List.take_left

/-- The download is a compressed archive. -/
theorem gz_compressed (container : Text) : ".gz".toList <:+ compressed container := List.suffix_append _ _

/-- An image is no part of what is compared. -/
theorem untouched_setImage {content : Option Text} : Untouched container node (node.setImage image content) :=
  ⟨fun _ _ => rfl, fun _ _ => rfl, rfl⟩

/-- An operation on an application leaves those apart from it. -/
theorem Op.untouched (hspares : op.Spares container) (h : Apart container op.container) (X : Outside) (node : Node) :
    Untouched container node (op.after X node) := by
  have hR := h.tolerates
  cases op with
  | run app =>
    refine hR.runContainer rfl (hR.installContainer (fun _ _ => untouched_setImage)
      (fun _ => untouched_setFile not_lasting_archive) (hR.unpack ?_ ?_ ?_)) ⟨node, 0⟩
    · exact fun hgz _ => untouched_setFile (not_lasting_of_gz hgz)
    · exact fun _ _ => untouched_setFile (chompGz_compressed app.name ▸ not_lasting_archive)
    · exact fun _ _ => untouched_setFile not_lasting_archive
  | install name bareMetal filePath =>
    refine hR.bind (Keeps.ensure hR.onRefl _ _) (fun _ => hR.installContainer (fun _ _ => untouched_setImage)
      (fun _ => untouched_setFile not_lasting_archive) (hR.unpack ?_ ?_ ?_)) ⟨node, 0⟩
    · exact fun hgz _ => untouched_setFile (not_lasting_of_gz hgz)
    · exact fun _ _ => untouched_setFile hspares
    · exact fun _ _ => untouched_setFile not_lasting_archive
  | remove name => exact hR.removeContainer ⟨node, 0⟩

/-- Nothing succeeds. -/
def idle : Outside where
  docker := ⟨fun _ _ => [], fun _ => [], []⟩
  succeeds _ := false
  answers := ⟨fun _ => false, 1⟩
  download := []
  unzip _ := none

/-- A node with every file. -/
def cluttered : Node where
  host := ⟨fun _ => none, fun _ => some [], fun _ => none, []⟩
  images _ := none
  enabled _ := true

/-- The unit files are removed even then. -/
theorem files_remove_idle (container : Text)
    (hpath : path = unitFile container ∨ path = unitFile (vpnService container)) :
    ((Op.remove container).after idle cluttered).host.files path = none := by
  have hfiles : ((Op.remove container).after idle cluttered).host.files =
      Function.update (Function.update (Function.update (Function.update (fun _ => some [])
        (unitFile container) none) (disabledFile container) none) (unitFile (vpnService container)) none)
        (disabledFile (vpnService container)) none := rfl
  rw [hfiles]
  rcases hpath with rfl | rfl <;> simp [Function.update_apply]

end GexCloud.Applications
