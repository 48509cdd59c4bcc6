import GexCloud.Containers.Volumes
import Mathlib.Data.List.Chain

/-! # `gexcloud_container_utils.rb`: running a container again

`rake rerun` creates a container once more, with `recreate: true`, so that it keeps its files and its line
in `/etc/avahi/hosts`.

* `Config` — the settings of the servers.
* `gexcloudCreateConfigureAndRunContainer` — the function, up to where provisioning starts.
* `Frame` — what is to stay.
* **`frame_iff`** — the function keeps it only where it does not get that far: the flag is not handed on. -/

namespace GexCloud.Containers

open Texts FileTree Scripts

/-! ## Settings -/

/-- The key of the settings of a server. -/
inductive ServerType
  | prod
  | main

/-- Which settings a type stands for. -/
def serverType (type : Text) : ServerType := if type = "prod".toList then .prod else .main

/-- The settings of a server: a hash from the names of symbols to texts. -/
abbrev Settings := List (Text × Option Text)

/-- `settings[key]`, which is also `$vars[key]` once the settings are the variables. -/
def Settings.get (settings : Settings) (key : Text) : Option Text := (settings.lookup key).join

/-- A word, of which the name of a constant is made. -/
def IsWord (t : Text) : Prop := t ≠ [] ∧ ∀ ch ∈ t, ch.isAlphanum ∨ ch = '_'

instance (t : Text) : Decidable (IsWord t) :=
  decidable_of_iff (t ≠ [] ∧ t.all (fun ch => decide (ch.isAlphanum ∨ ch = '_')) = true) (by
    simp only [IsWord, List.all_eq_true, decide_eq_true_eq])

/-- The configuration: what `eval (name.to_s.upcase + '_SETTINGS')` gives, and how a hash and an array are
printed. The name of a constant is a word. -/
structure Config where
  constant : Text → Except RubyError (ServerType → Option Settings)
  inspectHash : Settings → Text
  inspectArray : List (Option Text) → Text
  isWord : ∀ name types, constant name = .ok types → IsWord name

/-- The settings are defined for the name and the type. -/
def Config.Defines (C : Config) (name type : Text) (settings : Settings) : Prop :=
  ∃ types, C.constant name = .ok types ∧ types (serverType type) = some settings

/-- `assert_nnil`. -/
def assertNnil (C : Config) (objects : List (Option Text)) : Script PUnit :=
  ensure (objects.all Option.isSome) (.exception ("Nil parameter, ".toList ++ C.inspectArray objects))

/-- `init_vars`. -/
def initVars (C : Config) (vars : Settings) : Script Settings := do
  vars.forM fun entry => assertNnil C [some entry.1, entry.2]
  return vars

/-- `_a`. -/
def _a (C : Config) (vars : Settings) (var : Text) : Script Text :=
  orThrow (.exception ("No such variable ".toList ++ (var ++ ' ' :: C.inspectHash vars))) (vars.get var)

/-- `var_exists?`, which holds when there is no such variable. -/
def varExists (vars : Settings) (var : Text) : Bool := (vars.get var).isNone

/-! ## Creating and running a container -/

/-- `use_container`. `aws_check` fails on Amazon, where it sets a variable before there are any. -/
def useContainer (A : Answers) (c : Text) : Script PUnit := do
  ensure (decide (c ≠ "container".toList)) (.exception "Incorrect container name ".toList)
  ensure (A.succeeds .awsCheck) .noMethodError

/-- The options for the ports. -/
def portsOptions (C : Config) (vars : Settings) (publicNet : Option Text) : Script PUnit :=
  if publicNet.isNone && varExists vars "PORTS".toList then do
    let _ ← _a C vars "PORTS".toList
    return
  else return

/-- The networks of the container, after it has been created. -/
def connectNetworks (A : Answers) (container : Text) (removeDefaultNet : Bool) : Script PUnit := do
  texec A (.networkConnect "overlay".toList container)
  unless removeDefaultNet do
    texec A (.networkConnect "bridge".toList container)

/-- `dmark_disabled`. -/
def dmarkDisabled (A : Answers) (container : Text) : Script PUnit :=
  texec A (.touch ("/etc/systemd/system/".toList ++ (container ++ ".disabled".toList)))

/-- `gexcloud_create_and_configure_container`, up to `provision_and_start_created_container`. Of the public
network only the address is used. -/
def gexcloudCreateAndConfigureContainer (C : Config) (D : Docker) (A : Answers) (container tag : Text)
    (vars : Settings) (publicNet : Option Text) (removeDefaultNet _recreate : Bool) : Script PUnit := do
  useContainer A container
  let vars ← initVars C vars
  portsOptions C vars publicNet
  let ip ← orThrow .noMethodError publicNet
  let dnsServer ← _a C vars "dns_server".toList
  -- the keyword `recreate` is not among the arguments, and its default is `false`
  dcreateContainer D A container tag bootstrapFileName VOLUMES ip container dnsServer [] false
  dmarkDisabled A container
  connectNetworks A container removeDefaultNet

/-- **`gexcloud_create_configure_and_run_container`**, up to `provision_and_start_created_container`. -/
def gexcloudCreateConfigureAndRunContainer (C : Config) (D : Docker) (A : Answers) (name type : Text)
    (recreate : Bool) : Script PUnit := do
  assertNnil C [some name, some type]
  let types ← lift (C.constant name)
  let settings ← orThrow .noMethodError (types (serverType type))
  let publicIp := settings.get "PUBLIC_IP".toList
  let privateIp := settings.get "PRIVATE_IP".toList
  assertNnil C
    [privateIp, some ("Private IP must always be defined ".toList ++ C.inspectHash settings)]
  let host ← get
  ensure (isDirectory host.tree "/disk2/gexcloud-main-data/gexcloud".toList ||
    isDirectory host.tree "/mount/vagrant".toList) (.exception "Cant find NSF directories to mount.".toList)
  -- `remove_default_net` is set by the address and not among the arguments: the default network stays
  gexcloudCreateAndConfigureContainer C D A name name settings publicIp false recreate

/-! ## What is to stay -/

/-- **What a run leaves**: the files and links below the directory of the container's files, and
`/etc/avahi/hosts`. -/
def Frame (container : Text) (host host' : Host) : Prop :=
  (∀ path node, containerFilesDir container ++ ['/'] <+: path → host.tree path = some node →
    node ≠ .directory → host'.tree path = some node) ∧
  host'.files Avahi.avahiHosts = host.files Avahi.avahiHosts

/-- The settings and the tree with which the container is created, with its address and that of its name
server. -/
structure Proceeds (settings : Settings) (name : Text) (tree : Tree) (ip dnsServer : Text) : Prop where
  privateIp : (settings.get "PRIVATE_IP".toList).isSome = true
  mounts : isDirectory tree "/disk2/gexcloud-main-data/gexcloud".toList = true ∨
    isDirectory tree "/mount/vagrant".toList = true
  name_ne : name ≠ "container".toList
  values : ∀ entry ∈ settings, entry.2.isSome = true
  publicIp : settings.get "PUBLIC_IP".toList = some ip
  dnsServer_eq : settings.get "dns_server".toList = some dnsServer
  ip_ok : '.' ∈ ip
  dnsServer_ok : '.' ∈ dnsServer

/-- No file or link is below the directory of the container's files, and a file stands above it. -/
def Unreached (container : Text) (tree : Tree) : Prop :=
  (∀ path node, containerFilesDir container ++ ['/'] <+: path → tree path = some node → node = .directory) ∧
  ∃ a ∈ ancestors (containerFilesDir container), a ≠ containerFilesDir container ∧
    (tree a).any Node.isFile = true

variable {C : Config} {D : Docker} {A : Answers} {host host' : Host} {r : PUnit} {container name type : Text}
  {settings : Settings} {recreate : Bool}

/-- A host is as it was. -/
theorem Frame.refl (host : Host) : Frame container host host := ⟨fun _ _ _ h _ => h, rfl⟩

/-- What two changes leave, they leave together. -/
theorem Frame.trans {host₁ host₂ host₃ : Host} (h₁ : Frame container host₁ host₂)
    (h₂ : Frame container host₂ host₃) : Frame container host₁ host₃ :=
  ⟨fun path node hpath hnode hne => h₂.1 path node hpath (h₁.1 path node hpath hnode hne) hne,
    h₂.2.trans h₁.2⟩

/-! ## What is left as it was -/

/-- The tree and the files are as they were. -/
def Undisturbed (s t : Host) : Prop := t.tree = s.tree ∧ t.files = s.files

/-- A host is as it was. -/
theorem Undisturbed.refl (s : Host) : Undisturbed s s := ⟨rfl, rfl⟩

/-- Two changes that leave the tree and the files are one. -/
theorem Undisturbed.trans (s t u : Host) (h₁ : Undisturbed s t) (h₂ : Undisturbed t u) : Undisturbed s u :=
  ⟨h₂.1.trans h₁.1, h₂.2.trans h₁.2⟩

/-- Then all stays that is to stay. -/
theorem Undisturbed.frame (s t : Host) (h : Undisturbed s t) : Frame container s t :=
  ⟨fun _ _ _ hnode _ => by rw [h.1]; exact hnode, by rw [h.2]⟩

/-- The commands that are only called leave the host. -/
theorem keeps_texec (c : Command) : Keeps Undisturbed (texec A c) := Keeps.ensure Undisturbed.refl _ _

/-- Removing a container leaves the tree and the files. -/
theorem keeps_dockerRm : Keeps Undisturbed (dockerRm A container) := by
  unfold dockerRm
  split
  · exact Keeps.modify fun _ => ⟨rfl, rfl⟩
  · exact Keeps.ensure Undisturbed.refl _ _

/-- Creating a container leaves the tree and the files. -/
theorem keeps_dockerCreate {image : Text} {mounts : List Mount} :
    Keeps Undisturbed (dockerCreate D A container image mounts) := by
  refine Keeps.bind Undisturbed.trans (keeps_texec _) fun _ => ?_
  refine Keeps.bind Undisturbed.trans (Keeps.get Undisturbed.refl) fun host => ?_
  split
  · exact Keeps.throw Undisturbed.refl _
  · exact Keeps.modify fun _ => ⟨rfl, rfl⟩

/-! ## The creation without the flag -/

/-- The files, of which `/etc/avahi/hosts` is one, are as they were. -/
def SameFiles (s t : Host) : Prop := t.files = s.files

/-- A host has the files that it has. -/
theorem SameFiles.refl (s : Host) : SameFiles s s := rfl

/-- Two changes that leave the files are one. -/
theorem SameFiles.trans (s t u : Host) (h₁ : SameFiles s t) (h₂ : SameFiles t u) : SameFiles s u :=
  Eq.trans h₂ h₁

/-- The files are part of what is undisturbed. -/
theorem Undisturbed.sameFiles (s t : Host) (h : Undisturbed s t) : SameFiles s t := h.2

/-- A command on the tree leaves the files. -/
theorem keeps_onTree {c : Command} {op : Tree → Option Tree} : Keeps SameFiles (onTree A c op) := by
  refine Keeps.bind SameFiles.trans (Keeps.mono Undisturbed.sameFiles (keeps_texec c)) fun _ => ?_
  refine Keeps.bind SameFiles.trans (Keeps.get SameFiles.refl) fun host => ?_
  split
  · exact Keeps.modify fun _ => rfl
  · exact Keeps.throw SameFiles.refl _

/-- Directories are in the tree. -/
theorem keeps_removeAndCreateDir {dir : Text} : Keeps SameFiles (removeAndCreateDir A dir) :=
  Keeps.bind SameFiles.trans keeps_onTree fun _ => Keeps.bind SameFiles.trans keeps_onTree fun _ =>
    Keeps.mono Undisturbed.sameFiles (keeps_texec _)

/-- Copying into a container changes one of its volumes. -/
theorem keeps_dcp {dst : Text} : Keeps SameFiles (dcp D A container dst) := by
  refine Keeps.bind SameFiles.trans (Keeps.ensure SameFiles.refl _ _) fun _ => ?_
  refine Keeps.bind SameFiles.trans (Keeps.mono Undisturbed.sameFiles (keeps_texec _)) fun _ => ?_
  refine Keeps.modify fun host => ?_
  unfold Host.putFile
  split
  · rfl
  · rfl

/-- Copying the start script is such a copy. -/
theorem keeps_copyBootstrap {cmd : Text} : Keeps SameFiles (copyBootstrap D A container cmd) := by
  unfold copyBootstrap
  split
  · exact keeps_dcp
  · split
    · refine Keeps.bind SameFiles.trans ?_ fun found => ?_
      · exact Keeps.bind SameFiles.trans (Keeps.get SameFiles.refl) fun _ => Keeps.pure SameFiles.refl _
      · split
        · exact Keeps.pure SameFiles.refl _
        · exact keeps_dcp
    · exact Keeps.pure SameFiles.refl _

/-- Erasing changes the volumes. -/
theorem keeps_eraseVolumes {volumes : List Text} : Keeps SameFiles (eraseVolumes A container volumes) := by
  refine Keeps.forM SameFiles.refl SameFiles.trans _ fun v _ => ?_
  refine Keeps.bind SameFiles.trans (Keeps.modify fun _ => rfl) fun _ => Keeps.modify fun host => ?_
  split
  · rfl
  · rfl

/-- The directory for a link is in the tree. -/
theorem keeps_makeParent {target : Text} : Keeps SameFiles (makeParent A target) := by
  refine Keeps.bind SameFiles.trans (Keeps.get SameFiles.refl) fun host => ?_
  split
  · exact Keeps.pure SameFiles.refl _
  · exact Keeps.bind SameFiles.trans keeps_onTree fun _ => keeps_onTree

/-- So are the links. -/
theorem keeps_linkVolumes {volumes : List Text} : Keeps SameFiles (linkVolumes D A container volumes) := by
  refine Keeps.forM SameFiles.refl SameFiles.trans _ fun v _ => ?_
  refine Keeps.bind SameFiles.trans (Keeps.get SameFiles.refl) fun host => ?_
  dsimp only
  split
  · exact Keeps.pure SameFiles.refl _
  · refine Keeps.bind SameFiles.trans keeps_makeParent fun _ => Keeps.bind SameFiles.trans ?_ fun _ => keeps_onTree
    refine Keeps.bind SameFiles.trans (Keeps.mono Undisturbed.sameFiles (keeps_texec _)) fun _ => ?_
    refine Keeps.bind SameFiles.trans (Keeps.get SameFiles.refl) fun host => ?_
    split
    · exact Keeps.pure SameFiles.refl _
    · exact Keeps.throw SameFiles.refl _

/-- A file to which something is added is not what it was. -/
theorem some_append_ne {file : Option Text} {added : Text} (h : added ≠ []) : some (file.getD [] ++ added) ≠ file := by
  intro heq
  cases file with
  | none => cases heq
  | some content => exact h (List.append_right_eq_self.mp (Option.some.inj heq))

/-- A line that is written is not empty. -/
theorem puts_ne_nil (line : Option Text) : FileEdit.puts line ≠ [] := by
  unfold FileEdit.puts
  split
  · exact List.cons_ne_nil _ _
  · split
    · rename_i h
      intro hnil
      rw [hnil] at h
      cases h
    · exact List.append_ne_nil_of_right_ne_nil _ (List.cons_ne_nil _ _)

/-- **Without the flag, a call that goes through adds a line to `/etc/avahi/hosts`.** -/
theorem dcreateContainer_avahiHosts {imageTag cmd ip hostName dnsIp : Text} {volumes hostRecords : List Text}
    (h : Returns (dcreateContainer D A container imageTag cmd volumes ip hostName dnsIp hostRecords false)
      host r host') : host'.files Avahi.avahiHosts ≠ host.files Avahi.avahiHosts := by
  simp only [dcreateContainer, initContainerDir, unlessRecreate_false, returns_then_iff, returns_assertIp_iff,
    returns_assertHostname_iff, returns_get_bind_iff, returns_initContainerHosts_iff,
    returns_initContainerResolv_iff, returns_createFileWithLines_iff] at h
  obtain ⟨_, ⟨-, rfl⟩, _, ⟨-, rfl⟩, _, ⟨-, rfl⟩, s, hrm, t, hdir, _, ⟨-, -, rfl⟩, _, ⟨-, -, rfl⟩, u, hcreate,
    copied, hcopy, erased, herase, linked, hlink, havahi⟩ := h
  obtain ⟨-, rfl⟩ := returns_addContanerToAvahi_iff.mp havahi
  have hfiles : linked.files = host.files := by
    rw [keeps_linkVolumes.of_returns hlink, keeps_eraseVolumes.of_returns herase, keeps_copyBootstrap.of_returns hcopy,
      (keeps_dockerCreate.of_returns hcreate).2, keeps_removeAndCreateDir.of_returns hdir,
      (keeps_dockerRm.of_returns hrm).2]
  change Function.update linked.files Avahi.avahiHosts _ Avahi.avahiHosts ≠ _
  rw [Function.update_self, hfiles]
  refine some_append_ne ?_
  rw [List.map_singleton, List.flatten_singleton]
  exact puts_ne_nil _

/-! ## Up to the creation -/

/-- Text without two slashes in a row. -/
theorem not_infix_of_isChain {t : Text} (h : t.IsChain fun a b => ¬ (a = '/' ∧ b = '/')) : ¬ "//".toList <:+: t := by
  intro hinfix
  have hchain := h.infix hinfix
  revert hchain
  decide

/-- A word is accepted as the name of a container in the paths of its files. -/
theorem assertPath_of_isWord (hword : IsWord name) :
    ∀ file ∈ ["hosts".toList, "resolv.conf".toList],
      Avahi.assertPath ("/disk2/containers/".toList ++ (name ++ '/' :: file)) = .ok () := by
  have hslash : ∀ ch ∈ name, ch ≠ '/' := by
    rintro ch hch rfl
    exact absurd (hword.2 '/' hch) (by decide)
  have hfront : "/disk2/containers/".toList.IsChain fun a b => ¬ (a = '/' ∧ b = '/') := by decide
  have hname : name.Pairwise fun a b => ¬ (a = '/' ∧ b = '/') :=
    List.pairwise_of_forall_mem_list fun a ha _ _ h => hslash a ha h.1
  intro file hfile
  have hback : ('/' :: file).IsChain (fun a b => ¬ (a = '/' ∧ b = '/')) ∧ ¬ ['/'] <:+ '/' :: file := by
    revert file
    decide
  have hpath : ("/disk2/containers/".toList ++ (name ++ '/' :: file)).IsChain fun a b => ¬ (a = '/' ∧ b = '/') := by
    refine List.isChain_append.mpr ⟨hfront, List.isChain_append.mpr ⟨hname.isChain, hback.1, ?_⟩, ?_⟩
    · exact fun a ha b _ h => hslash a (List.mem_of_getLast? ha) h.1
    · intro a _ b hb h
      rw [List.head?_append_of_ne_nil _ hword.1] at hb
      exact hslash b (List.mem_of_head? hb) h.2
  have hend : ¬ ['/'] <:+ "/disk2/containers/".toList ++ (name ++ '/' :: file) := by
    intro h
    rw [← List.append_assoc] at h
    exact hback.2 (List.suffix_of_suffix_length_le h (List.suffix_append _ _) (by simp))
  rw [Avahi.assertPath, assert_eq_ok_iff, Bool.and_eq_true, Bool.not_eq_true', Bool.not_eq_true',
    decide_eq_false_iff_not, decide_eq_false_iff_not]
  exact ⟨not_infix_of_isChain hpath, hend⟩

/-- A word is a host name. -/
theorem not_mem_of_isWord (hword : IsWord name) : '.' ∉ name := by
  intro h
  exact absurd (hword.2 '.' h) (by decide)

/-- The variables are the settings, when all of them have values. -/
theorem returns_initVars_iff {vars : Settings} : Returns (initVars C settings) host vars host' ↔
    (∀ entry ∈ settings, entry.2.isSome = true) ∧ settings = vars ∧ host = host' := by
  rw [initVars, returns_then_iff]
  unfold assertNnil
  simp only [returns_forM_ensure_iff, returns_pure_iff, List.all_cons, List.all_nil, Option.isSome_some,
    Bool.true_and, Bool.and_true]
  constructor
  · rintro ⟨_, ⟨hall, rfl⟩, h⟩
    exact ⟨hall, h⟩
  · rintro ⟨hall, h⟩
    exact ⟨host, ⟨hall, rfl⟩, h⟩

/-- `assert_nnil` goes through when nothing is `nil`. -/
theorem returns_assertNnil_iff {objects : List (Option Text)} : Returns (assertNnil C objects) host r host' ↔
    objects.all Option.isSome = true ∧ host = host' := returns_ensure_iff

/-- `use_container` goes through for all names but one, unless on Amazon. -/
theorem returns_useContainer_iff {c : Text} : Returns (useContainer A c) host r host' ↔
    (c ≠ "container".toList ∧ A.succeeds .awsCheck = true) ∧ host = host' := by
  rw [useContainer, returns_then_iff]
  simp only [returns_ensure_iff, decide_eq_true_eq]
  constructor
  · rintro ⟨_, ⟨hc, rfl⟩, haws, rfl⟩
    exact ⟨⟨hc, haws⟩, rfl⟩
  · rintro ⟨⟨hc, haws⟩, rfl⟩
    exact ⟨host, ⟨hc, rfl⟩, haws, rfl⟩

/-- Working out the options changes nothing. -/
theorem keeps_portsOptions {R : Host → Host → Prop} (hrefl : ∀ s, R s s)
    (htrans : ∀ s t u, R s t → R t u → R s u) {vars : Settings} {publicNet : Option Text} :
    Keeps R (portsOptions C vars publicNet) := by
  unfold portsOptions
  split
  · exact Keeps.bind htrans (Keeps.orThrow hrefl _ _) fun _ => Keeps.pure hrefl _
  · exact Keeps.pure hrefl _

/-- What happens once the container is created. -/
def afterCreation (A : Answers) (name : Text) (removeDefaultNet : Bool) : Script PUnit := do
  dmarkDisabled A name
  connectNetworks A name removeDefaultNet

/-- What follows the creation leaves the tree and the files. -/
theorem keeps_afterCreation {removeDefaultNet : Bool} : Keeps Undisturbed (afterCreation A name removeDefaultNet) := by
  refine Keeps.bind Undisturbed.trans (keeps_texec _) fun _ => ?_
  refine Keeps.bind Undisturbed.trans (keeps_texec _) fun _ => ?_
  split
  · exact Keeps.pure Undisturbed.refl _
  · exact keeps_texec _

/-- **Up to the creation nothing is changed**: what relates a host to itself and to what the creation makes
of it relates it to what the whole function makes of it. -/
theorem run_rel {R : Host → Host → Prop} (hrefl : ∀ s, R s s) (htrans : ∀ s t u, R s t → R t u → R s u)
    (hdefined : C.Defines name type settings)
    (hcreate : ∀ ip dnsServer, Proceeds settings name host.tree ip dnsServer →
      R host (run (do
        dcreateContainer D A name name bootstrapFileName VOLUMES ip name dnsServer [] false
        afterCreation A name false) host).2) :
    R host (run (gexcloudCreateConfigureAndRunContainer C D A name type recreate) host).2 := by
  have hensure : ∀ c e, Keeps R (ensure c e : Script PUnit) := Keeps.ensure hrefl
  obtain ⟨types, hconstant, htypes⟩ := hdefined
  refine run_bind_rel htrans (hensure _ _ _) fun _ _ h => ?_
  obtain ⟨-, rfl⟩ := returns_assertNnil_iff.mp h
  refine run_bind_rel htrans (Keeps.lift hrefl _ _) fun _ _ h => ?_
  obtain ⟨heq, rfl⟩ := returns_lift_iff.mp h
  obtain rfl := Except.ok.inj (hconstant.symm.trans heq)
  refine run_bind_rel htrans (Keeps.orThrow hrefl _ _ _) fun _ _ h => ?_
  obtain ⟨heq, rfl⟩ := returns_orThrow_iff.mp h
  obtain rfl := Option.some.inj (htypes.symm.trans heq)
  refine run_bind_rel htrans (hensure _ _ _) fun _ _ h => ?_
  obtain ⟨hprivate, rfl⟩ := returns_assertNnil_iff.mp h
  refine run_bind_rel htrans (Keeps.get hrefl _) fun _ _ h => ?_
  obtain ⟨rfl, rfl⟩ := returns_get_iff.mp h
  refine run_bind_rel htrans (hensure _ _ _) fun _ _ h => ?_
  obtain ⟨hmounts, rfl⟩ := returns_ensure_iff.mp h
  -- `gexcloud_create_and_configure_container`
  refine run_bind_rel htrans ((Keeps.bind htrans (hensure _ _) fun _ => hensure _ _) _) fun _ _ h => ?_
  obtain ⟨⟨hname, -⟩, rfl⟩ := returns_useContainer_iff.mp h
  refine run_bind_rel htrans ?_ fun _ _ h => ?_
  · exact Keeps.bind htrans (Keeps.forM hrefl htrans _ fun _ _ => hensure _ _) (fun _ => Keeps.pure hrefl _) _
  obtain ⟨hvalues, rfl, rfl⟩ := returns_initVars_iff.mp h
  refine run_bind_rel htrans (keeps_portsOptions hrefl htrans _) fun _ _ h => ?_
  obtain rfl := (keeps_portsOptions Eq.refl fun _ _ _ => Eq.trans).of_returns h
  refine run_bind_rel htrans (Keeps.orThrow hrefl _ _ _) fun ip _ h => ?_
  obtain ⟨hpublic, rfl⟩ := returns_orThrow_iff.mp h
  refine run_bind_rel htrans (Keeps.orThrow hrefl _ _ _) fun dnsServer _ h => ?_
  obtain ⟨hdns, rfl⟩ := returns_orThrow_iff.mp h
  by_cases hok : '.' ∈ ip ∧ '.' ∈ dnsServer
  · exact hcreate ip dnsServer
      { privateIp := (Bool.and_eq_true _ _ ▸ hprivate).1
        mounts := by simpa using hmounts
        name_ne := hname
        values := hvalues
        publicIp := hpublic
        dnsServer_eq := hdns
        ip_ok := hok.1
        dnsServer_ok := hok.2 }
  · -- the creation ends with one of its first two assertions
    refine run_bind_rel htrans ?_ fun _ _ h => ?_
    · refine run_bind_rel htrans (hensure _ _ _) fun _ _ h => ?_
      obtain ⟨hdnsServer, rfl⟩ := returns_assertIp_iff.mp h
      refine run_bind_rel htrans (hensure _ _ _) fun _ _ h => ?_
      exact absurd ⟨(returns_assertIp_iff.mp h).1, hdnsServer⟩ hok
    · obtain ⟨_, hdnsServer, h⟩ := returns_then_iff.mp h
      obtain ⟨_, hip, -⟩ := returns_then_iff.mp h
      exact absurd ⟨(returns_assertIp_iff.mp hip).1, (returns_assertIp_iff.mp hdnsServer).1⟩ hok

/-- Where the conditions are met, the function gets to the creation. -/
theorem run_of_proceeds {ip dnsServer : Text} (hdefined : C.Defines name type settings)
    (h : Proceeds settings name host.tree ip dnsServer) (haws : A.succeeds .awsCheck = true) :
    run (gexcloudCreateConfigureAndRunContainer C D A name type recreate) host = run (do
      dcreateContainer D A name name bootstrapFileName VOLUMES ip name dnsServer [] false
      afterCreation A name false) host := by
  obtain ⟨types, hconstant, htypes⟩ := hdefined
  refine (run_bind_of_returns (a := ⟨⟩) (returns_assertNnil_iff.mpr ⟨rfl, rfl⟩)).trans ?_
  refine (run_bind_of_returns (returns_lift_iff.mpr ⟨hconstant, rfl⟩)).trans ?_
  refine (run_bind_of_returns (returns_orThrow_iff.mpr ⟨htypes, rfl⟩)).trans ?_
  refine (run_bind_of_returns (a := ⟨⟩) (returns_assertNnil_iff.mpr ⟨?_, rfl⟩)).trans ?_
  · rw [List.all_cons, h.privateIp]
    rfl
  refine (run_bind_of_returns (returns_get_iff.mpr ⟨rfl, rfl⟩)).trans ?_
  refine (run_bind_of_returns (a := ⟨⟩) (returns_ensure_iff.mpr ⟨?_, rfl⟩)).trans ?_
  · simpa using h.mounts
  refine (run_bind_of_returns (a := ⟨⟩) (returns_useContainer_iff.mpr ⟨⟨h.name_ne, haws⟩, rfl⟩)).trans ?_
  refine (run_bind_of_returns (returns_initVars_iff.mpr ⟨h.values, rfl, rfl⟩)).trans ?_
  refine (run_bind_of_returns (?_ : Returns (portsOptions C settings _) host ⟨⟩ host)).trans ?_
  · rw [portsOptions, h.publicIp]
    exact returns_pure_iff.mpr ⟨rfl, rfl⟩
  refine (run_bind_of_returns (returns_orThrow_iff.mpr ⟨h.publicIp, rfl⟩)).trans ?_
  refine (run_bind_of_returns (returns_orThrow_iff.mpr ⟨h.dnsServer_eq, rfl⟩)).trans ?_
  rfl

/-! ## What a rerun leaves -/

/-- A rerun that creates the container adds a line. -/
theorem not_frame_of_returns {ip dnsServer : Text} (hdefined : C.Defines name type settings)
    (hproceeds : Proceeds settings name host.tree ip dnsServer) (haws : A.succeeds .awsCheck = true)
    (hreturns : Returns (dcreateContainer D A name name bootstrapFileName VOLUMES ip name dnsServer [] false)
      host ⟨⟩ host') :
    ¬ Frame name host (run (gexcloudCreateConfigureAndRunContainer C D A name type recreate) host).2 := by
  rintro ⟨-, hafter⟩
  rw [run_of_proceeds hdefined hproceeds haws, run_bind_of_returns hreturns, (keeps_afterCreation host').2] at hafter
  exact dcreateContainer_avahiHosts hreturns hafter

/-- A path and one within it that it is within are the same. -/
theorem not_within_of_mem_ancestors {a dir : Text} (ha : a ∈ ancestors dir) (hne : a ≠ dir) : ¬ Within dir a := by
  intro h
  have hwithin := (mem_ancestors_iff.mp ha).2
  exact hne (hwithin.isPrefix.eq_of_length_le h.length_le)

/-- With a file above it, the directory cannot be made again. -/
theorem not_returns_removeAndCreateDir (hreached : Unreached container host.tree) :
    ¬ Returns (removeAndCreateDir A (containerFilesDir container)) host r host' := by
  obtain ⟨-, a, ha, hne, hfile⟩ := hreached
  intro h
  obtain ⟨-, tree, hmade, -⟩ := returns_removeAndCreateDir_iff.mp h
  have hnone := (mkdirP_eq_some_iff.mp ⟨tree, hmade⟩).2 a ha
  rw [rmRf_of_not_within (not_within_of_mem_ancestors ha hne), hfile] at hnone
  cases hnone

/-- With a file above the directory, the creation leaves the files. -/
theorem run_dcreateContainer_of_unreached {imageTag cmd ip hostName dnsIp : Text} {volumes hostRecords : List Text}
    (hreached : Unreached container host.tree) {m : PUnit → Script PUnit} : SameFiles host (run
      (dcreateContainer D A container imageTag cmd volumes ip hostName dnsIp hostRecords false >>= m) host).2 := by
  have hensure : ∀ c e, Keeps SameFiles (ensure c e : Script PUnit) := Keeps.ensure SameFiles.refl
  refine run_bind_rel SameFiles.trans ?_ fun _ _ h => ?_
  · refine run_bind_rel SameFiles.trans (hensure _ _ _) fun _ _ h => ?_
    obtain ⟨-, rfl⟩ := returns_assertIp_iff.mp h
    refine run_bind_rel SameFiles.trans (hensure _ _ _) fun _ _ h => ?_
    obtain ⟨-, rfl⟩ := returns_assertIp_iff.mp h
    refine run_bind_rel SameFiles.trans (hensure _ _ _) fun _ _ h => ?_
    obtain ⟨-, rfl⟩ := returns_assertHostname_iff.mp h
    refine run_bind_rel SameFiles.trans (Keeps.get SameFiles.refl _) fun _ _ h => ?_
    obtain ⟨rfl, rfl⟩ := returns_get_iff.mp h
    refine run_bind_rel SameFiles.trans (keeps_dockerRm.mono Undisturbed.sameFiles _) fun _ s h => ?_
    have htree : s.tree = _ := (keeps_dockerRm.of_returns h).1
    refine run_bind_rel SameFiles.trans (keeps_removeAndCreateDir _) fun _ _ h => ?_
    exact absurd h (not_returns_removeAndCreateDir (by rwa [htree]))
  · simp only [dcreateContainer, initContainerDir, unlessRecreate_false, returns_then_iff, returns_assertIp_iff,
      returns_assertHostname_iff, returns_get_bind_iff] at h
    obtain ⟨_, ⟨-, rfl⟩, _, ⟨-, rfl⟩, _, ⟨-, rfl⟩, s, hrm, t, hdir, -⟩ := h
    exact absurd hdir (not_returns_removeAndCreateDir (by rwa [(keeps_dockerRm.of_returns hrm).1]))

/-- No directory can be made. -/
def stubborn : Answers where
  succeeds
    | .mkdir _ => false
    | _ => true
  dockerRm := 0

/-- When the directory cannot be made again, it has been removed. -/
theorem run_dcreateContainer_stubborn {imageTag cmd ip hostName dnsIp : Text} {volumes hostRecords : List Text}
    (hip : '.' ∈ ip) (hhostName : '.' ∉ hostName) (hdnsIp : '.' ∈ dnsIp) {m : PUnit → Script PUnit} :
    (run (dcreateContainer D stubborn container imageTag cmd volumes ip hostName dnsIp hostRecords false >>= m)
      host).2.tree = rmRf (containerFilesDir container) host.tree := by
  have hdir : ∀ s, run (removeAndCreateDir stubborn (containerFilesDir container)) s =
      (.error (.commandFailed (Command.mkdir (containerFilesDir container)).text),
        { s with tree := rmRf (containerFilesDir container) s.tree }) := fun _ => rfl
  suffices hrun : run (dcreateContainer D stubborn container imageTag cmd volumes ip hostName dnsIp hostRecords false)
      host = (.error (.commandFailed (Command.mkdir (containerFilesDir container)).text),
        { host with tree := rmRf (containerFilesDir container) host.tree,
                    containers := host.containers.filter fun k => k.name ≠ container }) by
    rw [run_bind_of_error hrun]
  refine (run_bind_of_returns (a := ⟨⟩) (returns_assertIp_iff.mpr ⟨hdnsIp, rfl⟩)).trans ?_
  refine (run_bind_of_returns (a := ⟨⟩) (returns_assertIp_iff.mpr ⟨hip, rfl⟩)).trans ?_
  refine (run_bind_of_returns (a := ⟨⟩) (returns_assertHostname_iff.mpr ⟨hhostName, rfl⟩)).trans ?_
  refine (run_bind_of_returns (returns_get_iff.mpr ⟨rfl, rfl⟩)).trans ?_
  refine (run_bind_of_returns (a := ⟨⟩) (returns_dockerRm_iff.mpr (.inl ⟨rfl, rfl⟩))).trans ?_
  exact run_bind_of_error (hdir _)

/-- **A rerun leaves the files of the container and `/etc/avahi/hosts` alone, whatever the commands do, only
where it does not get to the creation of the container, or has nothing to remove there and cannot go on.** -/
theorem frame_iff (C : Config) (D : Docker) (name type : Text) (settings : Settings) (host : Host)
    (hdefined : C.Defines name type settings) :
    (∀ A : Answers, Frame name host
      (run (gexcloudCreateConfigureAndRunContainer C D A name type true) host).2) ↔
      (¬ ∃ ip dnsServer, Proceeds settings name host.tree ip dnsServer) ∨ Unreached name host.tree := by
  have hword : IsWord name := by
    obtain ⟨types, hconstant, -⟩ := hdefined
    exact C.isWord name types hconstant
  constructor
  · intro hframe
    by_contra hno
    rw [not_or, not_not] at hno
    obtain ⟨⟨ip, dnsServer, hproceeds⟩, hreached⟩ := hno
    by_cases hfiles : ∀ path node, containerFilesDir name ++ ['/'] <+: path → host.tree path = some node →
        node = .directory
    · -- nothing is lost, but a line is added
      have hdir : ∀ a ∈ ancestors (containerFilesDir name),
          (rmRf (containerFilesDir name) host.tree a).any Node.isFile = false := by
        intro a ha
        rw [rmRf]
        split
        · rfl
        · rename_i hout
          rw [← Bool.not_eq_true]
          exact fun hfile => hreached ⟨hfiles, a, ha, fun heq => hout (.inl heq), hfile⟩
      have hlinks : ∀ v ∈ VOLUMES, isRegular host.tree (containerFilesDir name ++ v) = false := by
        intro v hv
        have hslash : ∀ v ∈ VOLUMES, ['/'] <+: v := by decide
        have hpath : containerFilesDir name ++ ['/'] <+: containerFilesDir name ++ v :=
          (List.prefix_append_right_inj _).mpr (hslash v hv)
        rw [isRegular, maxLinks, follow]
        cases hnode : host.tree (containerFilesDir name ++ v) with
        | none => rfl
        | some node =>
          rw [hfiles _ node hpath hnode]
          rfl
      obtain ⟨host', hreturns⟩ : ∃ host', Returns (dcreateContainer D obliging name name bootstrapFileName VOLUMES ip
          name dnsServer [] false) host ⟨⟩ host' :=
        exists_returns_dcreateContainer (fun _ => rfl) rfl hproceeds.ip_ok (not_mem_of_isWord hword)
          hproceeds.dnsServer_ok (by simp) (assertPath_of_isWord hword) hlinks hdir
      exact not_frame_of_returns hdefined hproceeds rfl hreturns (hframe obliging)
    · -- what is lost is not made again when the directory is not
      push Not at hfiles
      obtain ⟨path, node, hpath, hnode, hnd⟩ := hfiles
      have hafter := (hframe stubborn).1 path node hpath hnode hnd
      rw [run_of_proceeds hdefined hproceeds rfl, run_dcreateContainer_stubborn hproceeds.ip_ok
        (not_mem_of_isWord hword) hproceeds.dnsServer_ok, rmRf, if_pos (.inr hpath)] at hafter
      cases hafter
  · rintro (hno | hreached) A
    · exact Undisturbed.frame _ _ (run_rel Undisturbed.refl Undisturbed.trans hdefined
        fun ip dnsServer h => absurd ⟨ip, dnsServer, h⟩ hno)
    · have hfiles : SameFiles host (run (gexcloudCreateConfigureAndRunContainer C D A name type true) host).2 :=
        run_rel SameFiles.refl SameFiles.trans hdefined fun _ _ _ => run_dcreateContainer_of_unreached hreached
      exact ⟨fun path node hpath hnode hnd => absurd (hreached.1 path node hpath hnode) hnd, congrFun hfiles _⟩

/-- The settings of `proxy` for the type `main`. -/
def proxySettings : Settings :=
  [("NAME".toList, some "main".toList), ("PUBLIC_IP".toList, some "46.172.71.55".toList),
    ("PUBLIC_MAC_ADDRESS".toList, some "92:a5:05:ff:f1:d2".toList), ("GATEWAY".toList, some "46.172.71.33".toList),
    ("PRIVATE_IP".toList, some "51.0.1.15".toList), ("RAM_SIZE".toList, some "3072".toList),
    ("nfs_ip".toList, some "51.1.0.50".toList), ("dns_server".toList, some "51.0.1.8".toList),
    ("office_ips".toList, some "46.172.71.50, 10., 127., 51., 172.82.".toList),
    ("hostname".toList, some "proxy".toList), ("domainname".toList, some "proxy.gex".toList)]

/-- The settings of `kafka` for the type `main`. -/
def kafkaSettings : Settings :=
  [("NAME".toList, some "main".toList), ("PRIVATE_IP".toList, some "10.2.0.50".toList),
    ("PRIVATE_MASK".toList, some "255.0.0.0".toList)]

/-- A configuration with two servers. -/
def config : Config where
  constant name :=
    if name = "proxy".toList then .ok fun
      | .main => some proxySettings
      | .prod => none
    else if name = "kafka".toList then .ok fun
      | .main => some kafkaSettings
      | .prod => none
    else .error (.exception "uninitialized constant".toList)
  inspectHash _ := "{}".toList
  inspectArray _ := "[]".toList
  isWord name types h := by
    split at h
    · subst name
      decide
    · split at h
      · subst name
        decide
      · cases h

/-- A host with the directory to mount and a file of the container `proxy`. -/
def proxyHost : Host where
  tree path :=
    if path = "/mount/vagrant".toList then some .directory
    else if path = "/disk2/containers/proxy/files/conf".toList then some (.file "kept".toList)
    else none
  files _ := none
  volumes _ := none
  containers := []

/-- `kafka` has no public address, so that its container is never created. -/
theorem frame_iff_kafka : Frame "kafka".toList proxyHost (run (gexcloudCreateConfigureAndRunContainer config box
    obliging "kafka".toList "main".toList true) proxyHost).2 := by
  refine (frame_iff config box "kafka".toList "main".toList kafkaSettings proxyHost ⟨_, rfl, rfl⟩).mpr
    (.inl ?_) obliging
  rintro ⟨ip, _, h⟩
  have hpublic := h.publicIp
  revert hpublic
  exact nofun

/-- A rerun of `proxy`, all of whose commands succeed, adds a line to `/etc/avahi/hosts`. -/
theorem proxy_not_frame : config.Defines "proxy".toList "main".toList proxySettings ∧
    ¬ Frame "proxy".toList proxyHost (run (gexcloudCreateConfigureAndRunContainer config box obliging
      "proxy".toList "main".toList true) proxyHost).2 := by
  have hdefined : config.Defines "proxy".toList "main".toList proxySettings := ⟨_, rfl, rfl⟩
  have hproceeds : Proceeds proxySettings "proxy".toList proxyHost.tree "46.172.71.55".toList "51.0.1.8".toList := by
    constructor <;> decide
  obtain ⟨host', hreturns⟩ : ∃ host', Returns (dcreateContainer box obliging "proxy".toList "proxy".toList
      bootstrapFileName VOLUMES "46.172.71.55".toList "proxy".toList "51.0.1.8".toList [] false)
      proxyHost ⟨⟩ host' :=
    exists_returns_dcreateContainer (fun _ => rfl) rfl (by decide) (by decide) (by decide) (by simp) (by decide)
      (by decide) (by decide)
  exact ⟨hdefined, not_frame_of_returns hdefined hproceeds rfl hreturns⟩

end GexCloud.Containers
