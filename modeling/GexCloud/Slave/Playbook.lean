import GexCloud.Containers.Create
import GexCloud.Support.Overwrites

/-! # `slaveplaybook.rb`

The playbook that makes a machine a node of a cluster: it saves what it is told about the node, gives the
machine its name, adds the masters to `/etc/hosts` and creates the containers. It can be started again until
it has marked the node as provisioned.

* `Node` — `/etc/hosts`, `/etc/hostname`, and the files below `NODE_INFO_DIR` and `CONTAINER_DIR`.
* `Step`, `perform` — the steps of the playbook that change them.
* `provisioning`, `playbook` — the steps of a run, in their order.
* **`run`** — a run, as far as it gets. -/

namespace GexCloud.Slave

open Texts FileTree

/-! ## The node -/

/-- `FRAMEWORKS`. -/
def FRAMEWORKS : List Text := ["hadoop".toList, "hue".toList]

/-- The characters of a host name. -/
def isHostChar (ch : Char) : Bool := ch.isAlphanum || ch == '-' || ch == '_' || ch == '.'

/-- A place below the directories of the playbook: `NODE_INFO_DIR/name`, `CONTAINER_DIR/f/name`, and the
places below `CONTAINER_DIR/f/files`. -/
inductive Place
  | info (name : Text)
  | container (f name : Text)
  | volume (f v : Text)
  deriving DecidableEq

/-- What is at the places: files and links. Directories are not part of the state. -/
abbrev Store := Place → Option FileTree.Node

/-- The content of `/etc/hostname`, which is a host name. -/
abbrev HostnameFile := { t : Text // ∀ ch ∈ strip t, isHostChar ch = true }

/-- **The state of a machine** that is or becomes a node. -/
@[ext]
structure Node where
  hosts : Text
  hostname : HostnameFile
  files : Store

/-- What a run is given: the arguments and the environment, what `echo "…"` prints, what the array of
addresses says, and what is asked of the machine, of Docker and of Consul. -/
structure Setup where
  argv : Nat → Text
  environment : Text → Text
  echo : Text → Text
  node : Text
  containerIps : Text → Option Text
  aws : Bool
  overlayIp : Text → Text
  hadoopAppId : Bool
  mountpoint : Text → Text
  /-- `assert_node`, and what a host name is made of. -/
  node_ok : ∀ ch ∈ node, isHostChar ch = true ∧ ch ≠ '.'

/-! ## `sed` -/

/-- `s/pattern/replacement/g` on a line, after so many characters that are already replaced. Of a host name only
the dots are special. -/
def substitute (pattern replacement : Text) : Nat → Text → Text
  | _, [] => []
  | k + 1, _ :: cs => substitute pattern replacement k cs
  | 0, ch :: cs =>
    if pattern ≠ [] ∧ Avahi.matchesAt pattern (ch :: cs) = true then
      replacement ++ substitute pattern replacement (pattern.length - 1) cs
    else ch :: substitute pattern replacement 0 cs

/-- `sed -i 's/pattern/replacement/g'`. Without a pattern it fails, and does nothing. -/
def sed (pattern replacement content : Text) : Text :=
  ['\n'].intercalate ((content.splitOn '\n').map (substitute pattern replacement 0))

/-! ## Steps -/

/-- The steps that change the state. -/
inductive Step
  | save (place : Place) (content : Text)
  | initContainerDir (f : Text)
  | readHostname
  | writeHostname
  | replaceLocalhost
  | replaceHostname
  | appendMaster (f : Text)
  | initContainerHosts (f : Text)
  | initContainerResolv (f : Text)
  | unlinkVolume (f v : Text)
  | linkVolume (f v : Text)
  | setProvisioned
  deriving DecidableEq

/-- A run under way: the machine, and the local variable `hostname`. -/
structure Process where
  machine : Node
  hostname : Text

/-- `get_info`, of a file that is there. -/
def getInfo (files : Store) (name : Text) : Text :=
  match files (.info name) with
  | some (.file content) => strip content
  | _ => []

/-- `init_container_hosts`: the lines it writes. -/
def containerHosts (E : Setup) (f clusterId masterIp : Text) : Text :=
  let hostName := (f ++ '-' :: E.node).map fun ch => if ch = '_' then '-' else ch
  let masterName := "hadoop-master-".toList ++ clusterId
  let others := (FRAMEWORKS.filter (· ≠ f)).map fun ff =>
    (E.overlayIp ff, ff ++ '-' :: E.node ++ ".gex".toList, ff ++ '-' :: E.node)
  let records := others ++ [(masterIp, masterName ++ ".gex".toList, masterName)]
  "127.0.0.1 localhost\n".toList ++
    (E.overlayIp f ++ ' ' :: hostName ++ ".gex ".toList ++ hostName ++ " \n".toList) ++
    (records.map fun record => record.1 ++ ' ' :: record.2.1 ++ ' ' :: record.2.2 ++ " \n".toList).flatten

/-- `init_container_resolv`: the lines it writes. -/
def containerResolv (dnsIp : Text) : Text :=
  "nameserver ".toList ++ dnsIp ++ "\nnameserver 8.8.8.8\n".toList

/-- The address of the master of a framework: `ENV["_#{f}_ipv4"]`, of which one is set from the arguments. -/
def ipv4 (E : Setup) (f : Text) : Text :=
  if f = "hadoop".toList then E.argv 0 else E.environment ('_' :: f ++ "_ipv4".toList)

/-- What is appended to `/etc/hosts` for a framework. -/
def masterLine (E : Setup) (f : Text) : Text :=
  E.echo (ipv4 E f ++ ' ' :: f ++ "-master-".toList ++ E.argv 3)

/-- What a step does to the files. -/
def Step.write (E : Setup) (files : Store) : Step → Store
  | .save place content => Function.update files place (some (.file content))
  | .initContainerDir f => fun place =>
    match place with
    | .volume f' _ => if f' = f then none else files place
    | _ => files place
  | .initContainerHosts f =>
    let content := containerHosts E f (getInfo files "CLUSTER_ID".toList) (getInfo files "MASTER_IP".toList)
    Function.update files (.container f "hosts".toList) (some (.file content))
  | .initContainerResolv f =>
    let content := containerResolv (getInfo files "DNS_IP".toList)
    Function.update files (.container f "resolv.conf".toList) (some (.file content))
  | .unlinkVolume f v => Function.update files (.volume f v) none
  -- the place is empty, as the directory has been made again and the link removed
  | .linkVolume f v =>
    Function.update files (.volume f v) (some (.link (E.mountpoint (Containers.volumeName f v))))
  | .setProvisioned =>
    Function.update files (.info "PROVISIONED".toList)
      (some ((files (.info "PROVISIONED".toList)).getD (.file [])))
  | _ => files

/-- The first substitution in `/etc/hosts`. -/
def replaceLocalhost (E : Setup) (hosts : Text) : Text :=
  sed "127.0.0.1 localhost".toList ("127.0.0.1 ".toList ++ E.node) hosts

/-- The second one, of the name that the machine had. -/
def replaceHostname (E : Setup) (hostname hosts : Text) : Text := sed hostname E.node hosts

/-- What a step does to `/etc/hosts`. -/
def Step.rewrite (E : Setup) (hostname hosts : Text) : Step → Text
  | .replaceLocalhost => Slave.replaceLocalhost E hosts
  | .replaceHostname => Slave.replaceHostname E hostname hosts
  | .appendMaster f => hosts ++ masterLine E f
  | _ => hosts

/-- The name of the node as the content of `/etc/hostname`. -/
def Setup.hostnameFile (E : Setup) : HostnameFile :=
  ⟨E.node, fun ch hch => (E.node_ok ch (mem_of_mem_stripBy hch)).1⟩

/-- What a step does. -/
def perform (E : Setup) (p : Process) (c : Step) : Process where
  machine :=
    { hosts := c.rewrite E p.hostname p.machine.hosts
      hostname := if c = .writeHostname then E.hostnameFile else p.machine.hostname
      files := c.write E p.machine.files }
  hostname := if c = .readHostname then strip p.machine.hostname.1 else p.hostname

/-! ## The playbook -/

/-- `save_info`. -/
def saveInfo (E : Setup) (index : Nat) (fileName : Text) : Step := .save (.info fileName) (E.echo (E.argv index))

/-- `save_container_info`. -/
def saveContainerInfo (E : Setup) (info fileName c : Text) : Step := .save (.container c fileName) (E.echo info)

/-- `save_general_info`. -/
def saveGeneralInfo (E : Setup) (s fileName : Text) : Step := .save (.info fileName) (E.echo s)

/-- `init_node_and_container_dirs`. -/
def initNodeAndContainerDirs (E : Setup) : List Step :=
  FRAMEWORKS.map fun f => saveContainerInfo E "cdh".toList "TYPE".toList f

/-- `save_node_info`, with static addresses. -/
def saveStaticIps (E : Setup) : List Step :=
  [.save (.info "CONTAINER_IPS".toList) (E.argv 14), saveInfo E 15 "NETWORK_MASK".toList,
    saveInfo E 16 "GATEWAY_IP".toList] ++
  FRAMEWORKS.filterMap fun f =>
    (E.containerIps f).map fun ip => saveContainerInfo E ip "CONTAINER_IP".toList f

/-- `save_node_info`. -/
def saveNodeInfo (E : Setup) : List Step :=
  initNodeAndContainerDirs E ++
  [saveContainerInfo E (E.argv 0) "HADOOP_IPV4".toList "hadoop".toList,
    saveInfo E 0 "MASTER_IP".toList, saveInfo E 1 "API_IP".toList, saveInfo E 2 "DNS_IP".toList,
    saveInfo E 3 "CLUSTER_ID".toList, saveInfo E 4 "NODE_ID".toList, saveInfo E 5 "NODE_UID".toList,
    saveInfo E 6 "CLUSTER_UID".toList, saveInfo E 7 "OPENVPN_IP".toList, saveInfo E 8 "OPENVPN_PORT".toList,
    saveInfo E 9 "VPN_CLIENT_IP".toList, saveInfo E 10 "VPN_SERVER_IP".toList,
    saveInfo E 11 "VPN_SERVER_PORT".toList, saveInfo E 12 "SOCKS_PROXY_IP".toList,
    saveInfo E 13 "STATIC_IPS".toList,
    saveGeneralInfo E (E.environment "_interface".toList) "HOST_INTERFACE".toList,
    saveGeneralInfo E "true".toList "HADOOP_SLAVE".toList] ++
  if E.argv 13 = "true".toList then saveStaticIps E else []

/-- `aws_check`, at the first `use_container`. -/
def awsCheck (E : Setup) : Step :=
  .save (.info "CLOUD_TYPE".toList) (if E.aws then "AWS\n".toList else "NONE\n".toList)

/-- `setup_environment`. `hostnamectl` finds `/etc/hostname` as it is to be. -/
def setupEnvironment : List Step := [.readHostname, .writeHostname, .replaceLocalhost, .replaceHostname]

/-- `dcreate_container`, for a new container. -/
def createContainer (f : Text) : List Step :=
  [.initContainerDir f, .initContainerHosts f, .initContainerResolv f] ++
  Containers.VOLUMES.map (.unlinkVolume f) ++ Containers.VOLUMES.map (.linkVolume f)

/-- `setup_framework`. -/
def setupFramework (E : Setup) (f : Text) : List Step :=
  saveContainerInfo E (E.overlayIp f) "OVERLAY_IP".toList f :: createContainer f

/-- The steps of `slaveplaybook.rb` between the test whether the node is provisioned and `set_provisioned`.
Without an application no container is created. -/
def provisioning (E : Setup) : List Step :=
  saveNodeInfo E ++ awsCheck E :: FRAMEWORKS.map .initContainerDir ++ setupEnvironment ++
  FRAMEWORKS.map .appendMaster ++ if E.hadoopAppId then FRAMEWORKS.flatMap (setupFramework E) else []

/-- **`slaveplaybook.rb`**. -/
def playbook (E : Setup) : List Step := provisioning E ++ [.setProvisioned]

/-- `provisioned?`. -/
def Node.provisioned (m : Node) : Bool := (m.files (.info "PROVISIONED".toList)).isSome

/-- **A run** of which these steps are done: the whole playbook, or what comes before the run is aborted. -/
def run (E : Setup) (steps : List Step) (m : Node) : Node :=
  if m.provisioned then m else (steps.foldl (perform E) ⟨m, []⟩).machine

/-- Runs that are aborted, one after the other. -/
def runs (E : Setup) (cuts : List (List Step)) (m : Node) : Node := cuts.foldl (fun m steps => run E steps m) m

end GexCloud.Slave
