import GexCloud.Base.ServiceUtils
import GexCloud.Containers.Rerun

/-! # Applications on a node

`run_container.rb` downloads an application of the hub, installs its image, creates its container and sets up two
services of systemd, one for the container and one for its VPN. `install_container.rb` installs an image from a file,
and `remove_container.rb` takes an application off the node.

* `Node`, `Outside` — the node, and what decides which commands succeed.
* `installContainer`, `ddestroy`, `dimport`, `setupContainerServiceAndVpn`, `disableAndStopContainerService` — the
  functions.
* `runContainer`, `installContainerScript`, `removeContainer` — the scripts; the first for applications of the hub only.
* `Op`, `after` — a run of one of the scripts, however it ends.

Of the commands: `gunzip` does not overwrite a file, and a command that fails has done nothing, except for `wget`; so
`gunzip` either unpacks or fails, and the warning with which it does both is left out. A script that waits for ever is
cut short. -/

namespace GexCloud.Applications

open Texts Scripts Services
open Containers (Host Docker Answers)

/-! ## The node -/

/-- A node: the host with its files and containers, the archives that the images were imported from, and the services
that systemd starts. -/
structure Node where
  host : Host
  images : Text → Option Text
  enabled : Text → Bool

/-- What is outside: Docker; which commands succeed, as far as that is not decided by the node; what is downloaded; and
what is in compressed archives. -/
structure Outside where
  docker : Docker
  succeeds : Nat → Bool
  answers : Answers
  download : Text
  unzip : Text → Option Text

/-- A script on the way: the node, and how many commands have been run. -/
structure State where
  node : Node
  commands : Nat

/-- A script on a node. -/
abbrev Script (α : Type) := Scripts.Script RubyError State α

/-- The content of a file is changed, or the file is removed. -/
def Node.setFile (path : Text) (content : Option Text) (node : Node) : Node :=
  { node with host := { node.host with files := Function.update node.host.files path content } }

/-- A service is enabled or disabled. -/
def Node.setEnabled (service : Text) (enabled : Bool) (node : Node) : Node :=
  { node with enabled := Function.update node.enabled service enabled }

/-- An image is imported or removed. -/
def Node.setImage (image : Text) (content : Option Text) (node : Node) : Node :=
  { node with images := Function.update node.images image content }

/-! ## Commands -/

/-- A command, and whether it succeeds. -/
def command (X : Outside) (effect : Node → Option Node) : Script Bool := fun s =>
  match if X.succeeds s.commands then effect s.node else none with
  | some node => (.ok true, ⟨node, s.commands + 1⟩)
  | none => (.ok false, ⟨s.node, s.commands + 1⟩)

/-- `texec`. -/
def texec (X : Outside) (cmd : Text) (effect : Node → Option Node) (checkreturn : Bool) : Script PUnit := do
  let success ← command X effect
  if success || !checkreturn then return else throw (.commandFailed cmd)

/-- A part of a script that works on the host only. -/
def onHost {α : Type} (m : Containers.Script α) : Script α := fun s =>
  ((run m s.node.host).1, { s with node := { s.node with host := (run m s.node.host).2 } })

/-- The unit file of a service. -/
def unitFile (service : Text) : Text := "/etc/systemd/system/".toList ++ service ++ ".service".toList

/-- What `systemctl` does to a node. Services are enabled where they have a unit file. -/
def systemctl (cmd : Text) (node : Node) : Option Node :=
  if "systemctl disable ".toList <+: cmd then some (node.setEnabled (cmd.drop 18) false)
  else if "systemctl enable ".toList <+: cmd then
    if (node.host.files (unitFile (cmd.drop 17))).isSome then some (node.setEnabled (cmd.drop 17) true) else none
  else some node

/-- The machine that services are started on. -/
def machine (X : Outside) : Machine State where
  sh cmd := do
    let success ← command X (systemctl cmd)
    return ⟨some (if success then 0 else 1), []⟩
  files s := s.node.host.files
  sleep _ := id

/-- `rm -f`. -/
def rmF (X : Outside) (path : Text) : Script PUnit :=
  texec X ("rm -f ".toList ++ path) (fun node => some (node.setFile path none)) true

/-! ## Services -/

/-- `FileUtils.rm_f`. -/
def removeFile (path : Text) : Script PUnit := modify fun s => { s with node := s.node.setFile path none }

/-- `disable_and_remove_service`. -/
def disableAndRemoveService (X : Outside) (service : Text) : Script PUnit := do
  texec X ("systemctl disable ".toList ++ service) (systemctl ("systemctl disable ".toList ++ service)) false
  removeFile (unitFile service)
  removeFile ("/etc/systemd/system/".toList ++ service ++ ".disabled".toList)

/-- The service of the VPN of a container. -/
def vpnService (container : Text) : Text := "vpnclient_".toList ++ container

/-- The file for the VPN of a container. -/
def clientConf (container : Text) : Text := "/etc/openvpn/config/client_".toList ++ container ++ ".conf".toList

/-- `drm`, whose result is ignored. -/
def drm (X : Outside) (container : Text) : Script PUnit := do
  let _ ← command X fun node =>
    some { node with host := { node.host with containers := node.host.containers.filter fun k => k.name ≠ container } }

/-! ## Images -/

/-- The archive of an image. -/
def archive (image : Text) : Text := "/tmp/".toList ++ image ++ ".tar".toList

/-- `chomp('.gz')` of a path with this ending. -/
def chompGz (path : Text) : Text := path.take (path.length - 3)

/-- `gunzip`. -/
def gunzip (X : Outside) (path : Text) (node : Node) : Option Node :=
  match node.host.files path, node.host.files (chompGz path) with
  | some compressed, none =>
    (X.unzip compressed).map fun content => (node.setFile path none).setFile (chompGz path) (some content)
  -- without a terminal a file is not overwritten
  | _, _ => none

/-- `mv`. -/
def mv (src dst : Text) (node : Node) : Option Node :=
  (node.host.files src).map fun content => (node.setFile src none).setFile dst (some content)

/-- `ddestroy`. -/
def ddestroy (X : Outside) (container : Text) : Script PUnit := do
  disableAndRemoveService X container
  drm X container
  disableAndRemoveService X (vpnService container)

/-- `docker import`. -/
def dockerImport (file image : Text) (node : Node) : Option Node :=
  (node.host.files file).map fun content => node.setImage image (some content)

/-- `dimport`. -/
def dimport (X : Outside) (file image importOptions : Text) : Script PUnit := do
  texec X ("docker rmi ".toList ++ image) (fun node => some (node.setImage image none)) false
  texec X ("docker import ".toList ++ file ++ ' ' :: (image ++ ' ' :: importOptions)) (dockerImport file image) true

/-- The part of `install_container` on a compressed archive: the path of the archive. -/
def unpack (X : Outside) (container filePath : Text) : Script Text :=
  if ".gz".toList <:+ filePath then do
    texec X ("gunzip ".toList ++ filePath) (gunzip X filePath) true
    unless chompGz filePath = archive container do
      texec X ("mv ".toList ++ chompGz filePath ++ ' ' :: archive container)
        (mv (chompGz filePath) (archive container)) true
    return archive container
  else return filePath

/-- `install_container`. -/
def installContainer (X : Outside) (container filePath imageName importOptions : Text) : Script PUnit := do
  let fullPath ← unpack X container filePath
  ddestroy X container
  dimport X fullPath imageName importOptions
  rmF X (archive imageName)

/-! ## The scripts -/

/-- An application of the hub: its container, where it is downloaded, the addresses of the container, and what the
templates for it come to. -/
structure App where
  name : Text
  downloadLink : Text
  importOptions : Text
  ip : Text
  hostName : Text
  dnsIp : Text
  hostRecords : List Text
  unit : Text
  conf : Text
  vpnUnit : Text

/-- The compressed archive of an application. -/
def compressed (container : Text) : Text := archive container ++ ".gz".toList

/-- `download_container_app_hub`. -/
def downloadContainerAppHub (X : Outside) (app : App) : Script Text := do
  rmF X (compressed app.name)
  -- `-O` makes the file in any case
  modify fun s => { s with node := s.node.setFile (compressed app.name) (some X.download) }
  texec X ("wget -O ".toList ++ compressed app.name ++ ' ' :: app.downloadLink) some true
  return compressed app.name

/-- `process_template_file`. -/
def processTemplateFile (X : Outside) (destination content : Text) : Script PUnit :=
  texec X destination (fun node => some (node.setFile destination (some content))) true

/-- A command in the container, or the copying of a file into it. -/
def inContainer (X : Outside) (container cmd : Text) : Script PUnit :=
  texec X ("docker exec -t ".toList ++ container ++ ' ' :: ' ' :: cmd) some true

/-- The part of `setup_container_service_and_vpn` in the container. Waiting until it runs is one command, and the call
that would make the password readable is no part of the list it stands in. Looking for `openvpn` and installing it is
left out: on the node this makes and removes one file in `/tmp`, and where it ends the script, the commands beside it
can. -/
def setupContainer (X : Outside) (container : Text) : Script PUnit := do
  inContainer X container "mkdir -p /etc/openvpn/config".toList
  inContainer X container "/etc/openvpn/config/secret.key".toList
  inContainer X container "/etc/openvpn/config/password".toList
  inContainer X container "chmod 400 /etc/openvpn/config/secret.key".toList
  inContainer X container "true".toList
  inContainer X container (clientConf container)

/-- `setup_container_service_and_vpn`. -/
def setupContainerServiceAndVpn (X : Outside) (app : App) : Script PUnit := do
  processTemplateFile X (unitFile app.name) app.unit
  enableAndStartService (machine X) (some app.name) app.name
  processTemplateFile X (clientConf app.name) app.conf
  processTemplateFile X (unitFile (vpnService app.name)) app.vpnUnit
  setupContainer X app.name
  enableAndStartService (machine X) (some app.name) (vpnService app.name)
  texec X ("echo successfully started ".toList ++ app.name) some true

/-- **`run_container.rb`** for an application of the hub, which is one whose configuration has `launch_options`, once
the variables are read. The variables that are set before the services are left out, and so is the branch for the other
applications. -/
def runContainer (X : Outside) (app : App) : Script PUnit := do
  onHost (Containers.initContainerDir X.answers app.name false)
  let fullPath ← downloadContainerAppHub X app
  installContainer X app.name fullPath app.name app.importOptions
  onHost (Containers.dcreateContainer X.docker X.answers app.name app.name [] [] app.ip app.hostName app.dnsIp
    app.hostRecords false)
  texec X ("docker start ".toList ++ app.name) some true
  setupContainerServiceAndVpn X app

/-- `File.join(BARE_METAL_VAGRANT, file_path)`. -/
def joinBareMetal (filePath : Text) : Text :=
  "/home/vagrant/.gex/node".toList ++ (if ['/'] <+: filePath then filePath else '/' :: filePath)

/-- **`install_container.rb`**, on bare metal or not. -/
def installContainerScript (X : Outside) (container : Text) (bareMetal : Bool) (filePath : Text) : Script PUnit := do
  let filePath := if bareMetal then joinBareMetal filePath else filePath
  ensure (decide (['/'] <+: filePath)) (.exception ("Invalid container file name ".toList ++ filePath))
  installContainer X container filePath ("gex/".toList ++ container) []

/-- `disable_and_stop_container_service`. -/
def disableAndStopContainerService (X : Outside) (container : Text) : Script PUnit :=
  rescue (do
    disableAndRemoveService X container
    disableAndRemoveService X (vpnService container)
    rmF X (clientConf container)
    texec X "systemctl daemon-reload".toList some true
    texec X ("echo successfully removed ".toList ++ container ++ " service".toList) some true : Script PUnit)
    fun _ => return

/-- **`remove_container.rb`**. -/
def removeContainer (X : Outside) (container : Text) : Script PUnit := do
  disableAndStopContainerService X container
  drm X container

/-- A run of one of the scripts. -/
inductive Op
  | run (app : App)
  | install (container : Text) (bareMetal : Bool) (filePath : Text)
  | remove (container : Text)

/-- The container that a script is run for. -/
def Op.container : Op → Text
  | .run app => app.name
  | .install container _ _ => container
  | .remove container => container

/-- The script of an operation. -/
def Op.script (X : Outside) : Op → Script PUnit
  | .run app => runContainer X app
  | .install container bareMetal filePath => installContainerScript X container bareMetal filePath
  | .remove container => removeContainer X container

/-- What an operation comes to. -/
def Op.outcome (X : Outside) (op : Op) (node : Node) : Except RubyError PUnit :=
  (Scripts.run (op.script X) ⟨node, 0⟩).1

/-- **The node after an operation**, whether it went through or was cut short. -/
def Op.after (X : Outside) (op : Op) (node : Node) : Node := (Scripts.run (op.script X) ⟨node, 0⟩).2.node

end GexCloud.Applications
