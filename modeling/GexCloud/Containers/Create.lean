import GexCloud.Base.DockerUtils
import GexCloud.Network.AvahiHosts
import GexCloud.Support.FileTree
import GexCloud.Support.Scripts

/-! # `docker_utils.rb`: creating a container

`dcreate_container` removes the container with the name, if there is one, creates it anew and gives it
named volumes, to which links are made below the directory of its files.

* `Host`, `Docker`, `Answers` — a host with its volumes and containers; what Docker has for its images;
  which commands succeed.
* `dockerCreate`, `dcp`, `eraseVolumes`, `linkVolumes` — what the commands do.
* **`dcreateContainer`** — the function, with its flag `recreate`.

Of Docker: `rm -f` keeps named volumes; `create` fills a named volume from the image when the volume is new
or empty and takes it as it is otherwise; `volume rm` fails when a container has the volume. A command that
fails has done nothing. -/

namespace GexCloud.Containers

open Texts FileTree Scripts

/-! ## The host -/

/-- The data of a volume: contents by paths below the mount point. -/
abbrev Volume := List (Text × Text)

/-- A file is put into a volume. -/
def Volume.put (path content : Text) (data : Volume) : Volume :=
  (path, content) :: data.filter fun entry => entry.1 ≠ path

/-- What is mounted: a named volume or a path of the host. -/
inductive Source
  | volume (name : Text)
  | bind (path : Text)
  deriving DecidableEq

/-- A mount of a container. -/
structure Mount where
  source : Source
  path : Text

/-- A container. -/
structure Container where
  name : Text
  mounts : List Mount

/-- A container has a volume. -/
def Container.uses (k : Container) (name : Text) : Bool := k.mounts.any fun m => decide (m.source = .volume name)

/-- The state of a host: the tree with the directories of the containers, `/etc/avahi/hosts`, and what
Docker has. -/
structure Host where
  tree : Tree
  files : Files
  volumes : Text → Option Volume
  containers : List Container

/-- What is given: the data of an image below a path, the directory of a volume, and the file
`/tmp/gex_etc_bootstrap_sh`. -/
structure Docker where
  image : Text → Text → Volume
  mountpoint : Text → Text
  bootstrap : Text

/-- The commands, and the files that are opened. -/
inductive Command
  | removeDir (dir : Text)
  | mkdir (dir : Text)
  | chmod (dir : Text)
  | rmdir (dir : Text)
  | ln (target path : Text)
  | createFile (path : Text)
  | create (container image : Text)
  | cp (container dst : Text)
  | cpOut (container src : Text)
  | volumeInspect (name : Text)
  | volumeRm (name : Text)
  | reloadAvahi
  | awsCheck
  | touch (path : Text)
  | networkConnect (network container : Text)

/-- The text of a command, without its options. -/
def Command.text : Command → Text
  | .removeDir dir => "rm -rf ".toList ++ dir
  | .mkdir dir => "mkdir -p ".toList ++ dir
  | .chmod dir => "chmod 755 ".toList ++ dir
  | .rmdir dir => "rmdir ".toList ++ dir
  | .ln target path => "ln -s ".toList ++ target ++ ' ' :: path
  | .createFile path => path
  | .create container image => "docker create --name ".toList ++ container ++ ' ' :: image
  | .cp container dst => "docker cp /tmp/gex_etc_bootstrap_sh ".toList ++ container ++ ':' :: dst
  | .cpOut container src => "docker cp ".toList ++ container ++ ':' :: src
  | .volumeInspect name => "docker volume inspect ".toList ++ name
  | .volumeRm name => "docker volume rm -f ".toList ++ name
  | .reloadAvahi => "/usr/sbin/avahi-daemon -r".toList
  | .awsCheck => "dmidecode -s bios-version".toList
  | .touch path => "touch ".toList ++ path
  | .networkConnect network container => "docker network connect ".toList ++ network ++ ' ' :: container

/-- Which commands succeed, as far as that is not decided by the state, and the status of
`docker rm -f`. -/
structure Answers where
  succeeds : Command → Bool
  dockerRm : Nat

/-- A script on a host. -/
abbrev Script (α : Type) := Scripts.Script RubyError Host α

/-! ## Commands -/

/-- `texec`. -/
def texec (A : Answers) (c : Command) : Script PUnit := ensure (A.succeeds c) (.commandFailed c.text)

/-- `texec` of a command on the tree. -/
def onTree (A : Answers) (c : Command) (op : Tree → Option Tree) : Script PUnit := do
  texec A c
  let host ← get
  match op host.tree with
  | some tree => modify fun host => { host with tree := tree }
  | none => throw (.commandFailed c.text)

/-- `remove_and_create_dir`. -/
def removeAndCreateDir (A : Answers) (dir : Text) : Script PUnit := do
  onTree A (.removeDir dir) fun tree => some (rmRf dir tree)
  onTree A (.mkdir dir) (mkdirP dir)
  texec A (.chmod dir)

/-- `system("docker rm -f #{$container}")` and the test of its status. -/
def dockerRm (A : Answers) (container : Text) : Script PUnit :=
  if A.dockerRm = 0 then
    modify fun host => { host with containers := host.containers.filter fun k => k.name ≠ container }
  else
    ensure (decide (A.dockerRm = 1))
      (.exception ("Docker rm returned error code ".toList ++ decimal A.dockerRm))

/-- The data of a volume at a mount of a new container. -/
def populate (image : Volume) : Option Volume → Volume
  | none => image
  | some data => if data = [] then image else data

/-- The volumes after a container has been created with these mounts. -/
def createVolumes (D : Docker) (image : Text) (mounts : List Mount) (volumes : Text → Option Volume)
    (name : Text) : Option Volume :=
  match mounts.find? fun m => decide (m.source = .volume name) with
  | some m => some (populate (D.image image m.path) (volumes name))
  | none => volumes name

/-- `docker create`. -/
def dockerCreate (D : Docker) (A : Answers) (container image : Text) (mounts : List Mount) :
    Script PUnit := do
  texec A (.create container image)
  let host ← get
  if host.containers.any fun k => k.name = container then
    throw (.commandFailed (Command.create container image).text)
  else
    modify fun host =>
      { host with volumes := createVolumes D image mounts host.volumes,
                  containers := host.containers ++ [⟨container, mounts⟩] }

/-- The volume at a mount, when the path lies below it, and the path below the mount point. -/
def Mount.volumeAt (m : Mount) (path : Text) : Option (Text × Text) :=
  match m.source with
  | .volume name => if m.path ++ ['/'] <+: path then some (name, path.drop m.path.length) else none
  | .bind _ => none

/-- The volume of a container that a path lies in, and the path below its mount point. -/
def Host.volumeAt (host : Host) (container path : Text) : Option (Text × Text) :=
  (host.containers.find? fun k => k.name = container).bind fun k => k.mounts.findSome? (·.volumeAt path)

/-- A file is copied into a container. What lies in no volume is not part of the state. -/
def Host.putFile (host : Host) (container dst content : Text) : Host :=
  match host.volumeAt container dst with
  | some (name, path) =>
    let data := (host.volumes name).map (Volume.put path content)
    { host with volumes := Function.update host.volumes name data }
  | none => host

/-- `dcp` of `/tmp/gex_etc_bootstrap_sh`. -/
def dcp (D : Docker) (A : Answers) (container dst : Text) : Script PUnit := do
  ensure (!refused dst) (.exception "Assert failed".toList)
  texec A (.cp container dst)
  modify fun host => host.putFile container dst D.bootstrap

/-- Whether a container has a file. -/
def Host.hasFile (A : Answers) (host : Host) (container file : Text) : Bool :=
  match host.volumeAt container file with
  | some (name, path) => (host.volumes name).any fun data => data.any fun entry => entry.1 = path
  | none => A.succeeds (.cpOut container file)

/-- `dfile_exists?`. -/
def dfileExists (A : Answers) (container file : Text) : Script Bool := do
  let host ← get
  return host.hasFile A container file

/-! ## Directories and volumes of a container -/

/-- `container_files_dir`. -/
def containerFilesDir (container : Text) : Text := "/disk2/containers/".toList ++ (container ++ "/files".toList)

/-- `VOLUMES`. -/
def VOLUMES : List Text :=
  ["/data".toList, "/etc".toList, "/var/log".toList, "/home".toList, "/root".toList]

/-- `volume_name`. -/
def volumeName (container v : Text) : Text := container ++ mangle v

/-- The source of a default volume, as `volumes_string` has it. -/
def volumeSource (container : Text) (tree : Tree) (v : Text) : Source :=
  if isRegular tree (containerFilesDir container ++ v) then .bind (containerFilesDir container ++ v)
  else .volume (volumeName container v)

/-- `volumes_string`. -/
def volumesString (container : Text) (tree : Tree) : List Mount :=
  VOLUMES.map fun v => ⟨volumeSource container tree v, v⟩

/-- `volume_path`. -/
def volumePath (D : Docker) (A : Answers) (container v : Text) : Script Text := do
  texec A (.volumeInspect (volumeName container v))
  let host ← get
  if (host.volumes (volumeName container v)).isSome then
    return D.mountpoint (volumeName container v)
  else
    throw (.commandFailed (Command.volumeInspect (volumeName container v)).text)

/-- The directory for a link is made, and the place of the link is left empty. -/
def makeParent (A : Answers) (target : Text) : Script PUnit := do
  let host ← get
  unless isDirectory host.tree target do
    onTree A (.mkdir target) (mkdirP target)
    onTree A (.rmdir target) (rmdir target)

/-- A round of `link_volumes`. -/
def linkVolume (D : Docker) (A : Answers) (container v : Text) : Script PUnit := do
  let host ← get
  let target := containerFilesDir container ++ v
  unless isRegular host.tree target do
    makeParent A target
    let path ← volumePath D A container v
    onTree A (.ln path target) (lnS path target)

/-- `link_volumes`. -/
def linkVolumes (D : Docker) (A : Answers) (container : Text) (volumes : List Text) : Script PUnit :=
  volumes.forM (linkVolume D A container)

/-- A round of `erase_volumes`: errors are ignored. -/
def eraseVolume (A : Answers) (container v : Text) : Script PUnit := do
  modify fun host => { host with
    tree := (unlink (containerFilesDir container ++ v) host.tree).getD host.tree }
  modify fun host =>
    if A.succeeds (.volumeRm (volumeName container v)) &&
        !host.containers.any fun k => k.uses (volumeName container v) then
      { host with volumes := Function.update host.volumes (volumeName container v) none }
    else host

/-- `erase_volumes`. -/
def eraseVolumes (A : Answers) (container : Text) (volumes : List Text) : Script PUnit :=
  volumes.forM (eraseVolume A container)

/-! ## Creating a container -/

/-- `unless recreate`. -/
def unlessRecreate (recreate : Bool) (m : Script PUnit) : Script PUnit := if recreate then return else m

/-- `init_container_dir`. -/
def initContainerDir (A : Answers) (container : Text) (recreate : Bool) : Script PUnit :=
  unlessRecreate recreate (removeAndCreateDir A (containerFilesDir container))

/-- `assert_ip`. -/
def assertIp (ip : Text) : Script PUnit := ensure (decide ('.' ∈ ip)) (.exception (' ' :: ip))

/-- `assert_hostname`. -/
def assertHostname (hostname : Text) : Script PUnit :=
  ensure (decide ('.' ∉ hostname)) (.exception (' ' :: hostname))

/-- `create_file_with_lines`, of a file beside the directory of the container's files. -/
def createFileWithLines (A : Answers) (container file : Text) : Script PUnit := do
  let path := "/disk2/containers/".toList ++ (container ++ '/' :: file)
  lift (Avahi.assertPath path)
  ensure (A.succeeds (.createFile path)) (.noSuchFile path)

/-- `init_container_hosts`, with the addresses of the host entries. -/
def initContainerHosts (A : Answers) (container : Text) (hostEntries : List Text) : Script PUnit := do
  hostEntries.forM assertIp
  createFileWithLines A container "hosts".toList

/-- `init_container_resolv`. -/
def initContainerResolv (A : Answers) (container dnsIp : Text) : Script PUnit := do
  assertIp dnsIp
  createFileWithLines A container "resolv.conf".toList

/-- `BOOTSTRAP_FILE_NAME`. -/
def bootstrapFileName : Text := "/etc/bootstrap.sh".toList

/-- `BOOTSTRAP_FILE_APP_NAME`. -/
def bootstrapFileAppName : Text := "/etc/bootstrap".toList

/-- The copying of the file that a container starts with. -/
def copyBootstrap (D : Docker) (A : Answers) (container cmd : Text) : Script PUnit :=
  if cmd = bootstrapFileName then
    dcp D A container bootstrapFileName
  else if cmd = bootstrapFileAppName then do
    let found ← dfileExists A container bootstrapFileAppName
    if found then return else dcp D A container bootstrapFileAppName
  else return

/-- `add_contaner_to_avahi`. -/
def addContanerToAvahi (A : Answers) (container ip : Text) : Script PUnit := do
  let host ← get
  match Avahi.appendFileWithLines host.files Avahi.avahiHosts [ip ++ ' ' :: (container ++ ".local".toList)] with
  | .ok files => modify fun host => { host with files := files }
  | .error e => throw e
  texec A .reloadAvahi

/-- **`dcreate_container`**. Default volumes are added when there are volumes at all; volumes given as
pairs are left out, and so is the file of the address of the network card. -/
def dcreateContainer (D : Docker) (A : Answers) (container imageTag cmd : Text) (volumes : List Text)
    (ip hostName dnsIp : Text) (hostRecords : List Text) (recreate : Bool) : Script PUnit := do
  assertIp dnsIp
  assertIp ip
  assertHostname hostName
  let host ← get
  let mounts := if volumes = [] then [] else volumesString container host.tree
  dockerRm A container
  initContainerDir A container recreate
  initContainerHosts A container hostRecords
  initContainerResolv A container dnsIp
  dockerCreate D A container imageTag mounts
  unlessRecreate recreate (copyBootstrap D A container cmd)
  unlessRecreate recreate (eraseVolumes A container volumes)
  unlessRecreate recreate (linkVolumes D A container volumes)
  unlessRecreate recreate (addContanerToAvahi A container ip)

/-! ## What the parts do when they go through -/

variable {D : Docker} {A : Answers} {host host' : Host} {r : PUnit} {container : Text}

/-- A command that is only called goes through when it succeeds. -/
@[simp] theorem returns_texec_iff {c : Command} :
    Returns (texec A c) host r host' ↔ A.succeeds c = true ∧ host = host' := returns_ensure_iff

/-- A command on the tree goes through when it succeeds and nothing is in its way. -/
theorem returns_onTree_iff {c : Command} {op : Tree → Option Tree} :
    Returns (onTree A c op) host r host' ↔
      A.succeeds c = true ∧ ∃ tree, op host.tree = some tree ∧ host' = { host with tree := tree } := by
  rw [onTree, returns_then_iff]
  simp only [returns_texec_iff, returns_get_bind_iff]
  constructor
  · rintro ⟨_, ⟨hc, rfl⟩, h⟩
    refine ⟨hc, ?_⟩
    split at h
    · exact ⟨_, ‹_›, (returns_modify_iff.mp h).symm⟩
    · exact absurd h not_returns_throw
  · rintro ⟨hc, tree, htree, rfl⟩
    refine ⟨host, ⟨hc, rfl⟩, ?_⟩
    rw [htree]
    exact returns_modify_iff.mpr rfl

/-- Without the flag a part is run. -/
@[simp] theorem unlessRecreate_false (m : Script PUnit) : unlessRecreate false m = m := rfl

/-- With the flag it is not. -/
@[simp] theorem unlessRecreate_true (m : Script PUnit) : unlessRecreate true m = pure ⟨⟩ := rfl

/-- An address has a dot. -/
theorem returns_assertIp_iff {ip : Text} : Returns (assertIp ip) host r host' ↔ '.' ∈ ip ∧ host = host' := by
  rw [assertIp, returns_ensure_iff, decide_eq_true_eq]

/-- A host name has none. -/
theorem returns_assertHostname_iff {hostname : Text} :
    Returns (assertHostname hostname) host r host' ↔ '.' ∉ hostname ∧ host = host' := by
  rw [assertHostname, returns_ensure_iff, decide_eq_true_eq]

/-- A file beside the directory is not part of the state. -/
theorem returns_createFileWithLines_iff {file : Text} : Returns (createFileWithLines A container file) host r host' ↔
    (Avahi.assertPath ("/disk2/containers/".toList ++ (container ++ '/' :: file)) = .ok () ∧
      A.succeeds (.createFile ("/disk2/containers/".toList ++ (container ++ '/' :: file))) = true) ∧
      host = host' := by
  rw [createFileWithLines, returns_bind_iff]
  simp only [returns_lift_iff, returns_ensure_iff]
  constructor
  · rintro ⟨_, _, ⟨hpath, rfl⟩, hc, rfl⟩
    exact ⟨⟨hpath, hc⟩, rfl⟩
  · rintro ⟨⟨hpath, hc⟩, rfl⟩
    exact ⟨_, _, ⟨hpath, rfl⟩, hc, rfl⟩

/-- The file of the hosts is written when the entries have addresses. -/
theorem returns_initContainerHosts_iff {hostEntries : List Text} :
    Returns (initContainerHosts A container hostEntries) host r host' ↔
      ((∀ ip ∈ hostEntries, '.' ∈ ip) ∧ Returns (createFileWithLines A container "hosts".toList) host r host') := by
  rw [initContainerHosts, returns_then_iff]
  unfold assertIp
  simp only [returns_forM_ensure_iff, decide_eq_true_eq]
  constructor
  · rintro ⟨_, ⟨hall, rfl⟩, hfile⟩
    exact ⟨hall, hfile⟩
  · rintro ⟨hall, hfile⟩
    exact ⟨host, ⟨hall, rfl⟩, hfile⟩

/-- The file for the name server is written when its address is one. -/
theorem returns_initContainerResolv_iff {dnsIp : Text} : Returns (initContainerResolv A container dnsIp) host r host' ↔
    '.' ∈ dnsIp ∧ Returns (createFileWithLines A container "resolv.conf".toList) host r host' := by
  rw [initContainerResolv, returns_then_iff]
  simp only [returns_assertIp_iff]
  constructor
  · rintro ⟨_, ⟨hip, rfl⟩, h⟩
    exact ⟨hip, h⟩
  · rintro ⟨hip, h⟩
    exact ⟨host, ⟨hip, rfl⟩, h⟩

/-- Removing a directory and making it again. -/
theorem returns_removeAndCreateDir_iff {dir : Text} : Returns (removeAndCreateDir A dir) host r host' ↔
    (A.succeeds (.removeDir dir) = true ∧ A.succeeds (.mkdir dir) = true ∧ A.succeeds (.chmod dir) = true) ∧
      ∃ tree, mkdirP dir (rmRf dir host.tree) = some tree ∧ host' = { host with tree := tree } := by
  rw [removeAndCreateDir, returns_then_iff]
  simp only [returns_then_iff, returns_onTree_iff, returns_texec_iff]
  constructor
  · rintro ⟨_, ⟨hrm, _, hsome, rfl⟩, _, ⟨hmk, tree, htree, rfl⟩, hch, rfl⟩
    obtain rfl := Option.some.inj hsome
    exact ⟨⟨hrm, hmk, hch⟩, tree, htree, rfl⟩
  · rintro ⟨⟨hrm, hmk, hch⟩, tree, htree, rfl⟩
    exact ⟨_, ⟨hrm, _, rfl, rfl⟩, _, ⟨hmk, tree, htree, rfl⟩, hch, rfl⟩

/-- Removing the container leaves the tree and the volumes. -/
theorem returns_dockerRm_iff : Returns (dockerRm A container) host r host' ↔
    (A.dockerRm = 0 ∧ host' = { host with containers := host.containers.filter fun k => k.name ≠ container }) ∨
      (A.dockerRm = 1 ∧ host' = host) := by
  unfold dockerRm
  split
  · rename_i h
    rw [returns_modify_iff, eq_comm]
    simp [h]
  · rename_i h
    rw [returns_ensure_iff, decide_eq_true_eq, @eq_comm _ host]
    simp [h]

/-- Creating a container. -/
theorem returns_dockerCreate_iff {image : Text} {mounts : List Mount} :
    Returns (dockerCreate D A container image mounts) host r host' ↔
      A.succeeds (.create container image) = true ∧ (∀ k ∈ host.containers, k.name ≠ container) ∧
        host' = { host with volumes := createVolumes D image mounts host.volumes,
                            containers := host.containers ++ [⟨container, mounts⟩] } := by
  rw [dockerCreate, returns_then_iff]
  simp only [returns_texec_iff, returns_get_bind_iff]
  constructor
  · rintro ⟨_, ⟨hc, rfl⟩, h⟩
    refine ⟨hc, ?_⟩
    split at h
    · exact absurd h not_returns_throw
    · rename_i hnone
      exact ⟨by simpa using hnone, (returns_modify_iff.mp h).symm⟩
  · rintro ⟨hc, hnone, rfl⟩
    refine ⟨host, ⟨hc, rfl⟩, ?_⟩
    rw [if_neg (by simpa using hnone)]
    exact returns_modify_iff.mpr rfl

/-- Copying a file into a container. -/
theorem returns_dcp_iff {dst : Text} (hdst : refused dst = false) :
    Returns (dcp D A container dst) host r host' ↔
      A.succeeds (.cp container dst) = true ∧ host' = host.putFile container dst D.bootstrap := by
  rw [dcp, returns_then_iff]
  simp only [returns_ensure_iff, returns_then_iff, returns_texec_iff, returns_modify_iff, hdst]
  constructor
  · rintro ⟨_, ⟨-, rfl⟩, _, ⟨hc, rfl⟩, rfl⟩
    exact ⟨hc, rfl⟩
  · rintro ⟨hc, rfl⟩
    exact ⟨host, ⟨rfl, rfl⟩, host, ⟨hc, rfl⟩, rfl⟩

/-- Looking for a file. -/
theorem returns_dfileExists_bind_iff {file : Text} {f : Bool → Script PUnit} :
    Returns (dfileExists A container file >>= f) host r host' ↔
      Returns (f (host.hasFile A container file)) host r host' := by
  rw [dfileExists, bind_assoc, returns_get_bind_iff, pure_bind]

/-- Copying the file that a container starts with. -/
theorem returns_copyBootstrap_iff {cmd : Text} : Returns (copyBootstrap D A container cmd) host r host' ↔
    if cmd = bootstrapFileName then
      A.succeeds (.cp container bootstrapFileName) = true ∧
        host' = host.putFile container bootstrapFileName D.bootstrap
    else if cmd = bootstrapFileAppName ∧ host.hasFile A container bootstrapFileAppName = false then
      A.succeeds (.cp container bootstrapFileAppName) = true ∧
        host' = host.putFile container bootstrapFileAppName D.bootstrap
    else host' = host := by
  unfold copyBootstrap
  split
  · exact returns_dcp_iff (by decide)
  · split
    · rename_i hcmd
      rw [returns_dfileExists_bind_iff]
      cases hfile : host.hasFile A container bootstrapFileAppName
      · rw [if_neg Bool.false_ne_true, if_pos ⟨hcmd, rfl⟩]
        exact returns_dcp_iff (by decide)
      · rw [if_pos rfl, if_neg fun h => Bool.noConfusion h.2, returns_pure_iff]
        exact ⟨fun h => h.2.symm, fun h => ⟨rfl, h.symm⟩⟩
    · rename_i hcmd
      rw [if_neg fun h => hcmd h.1, returns_pure_iff]
      exact ⟨fun h => h.2.symm, fun h => ⟨rfl, h.symm⟩⟩

/-- The line of the container is added to `/etc/avahi/hosts`. -/
theorem returns_addContanerToAvahi_iff {ip : Text} : Returns (addContanerToAvahi A container ip) host r host' ↔
    A.succeeds .reloadAvahi = true ∧ host' = { host with
      files := Function.update host.files Avahi.avahiHosts (some ((host.files Avahi.avahiHosts).getD [] ++
        ([ip ++ ' ' :: (container ++ ".local".toList)].map fun line => FileEdit.puts (some line)).flatten)) } := by
  have hpath : Avahi.assertPath Avahi.avahiHosts = .ok () := by decide
  rw [addContanerToAvahi, returns_get_bind_iff, Avahi.appendFileWithLines, hpath]
  refine returns_then_iff.trans ?_
  simp only [returns_modify_iff, returns_texec_iff]
  constructor
  · rintro ⟨_, rfl, hc, rfl⟩
    exact ⟨hc, rfl⟩
  · rintro ⟨hc, rfl⟩
    exact ⟨_, rfl, hc, rfl⟩

end GexCloud.Containers
