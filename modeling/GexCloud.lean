import GexCloud.Support.Runs
import GexCloud.Base.EditUtils
import GexCloud.Base.DockerUtils
import GexCloud.Base.TemplateEditors
import GexCloud.Base.TemplateTree
import GexCloud.Ssh.Auth2
import GexCloud.Login.GexLogin
import GexCloud.Support.Cookies
import GexCloud.WebProxy.NginxJwt
import GexCloud.WebProxy.SetCookie
import GexCloud.Registry.Stores
import GexCloud.Registry.Agreement
import GexCloud.Ami.Builders
import GexCloud.Ami.Publication
import GexCloud.Network.AvahiHosts
import GexCloud.Network.AvahiRegistry
import GexCloud.Registry.Ports
import GexCloud.Ami.GetIp
import GexCloud.Base.TemplatePasses
import GexCloud.Base.TemplateRemoval
import GexCloud.Base.InitProtocol
import GexCloud.Master.Idle
import GexCloud.Deploy.VersionFile
import GexCloud.Containers.Create
import GexCloud.Containers.Volumes
import GexCloud.Containers.Rerun
import GexCloud.Slave.Playbook
import GexCloud.Slave.Restarts
import GexCloud.Containers.Waiting
import GexCloud.Slave.NetworkGate
import GexCloud.Base.ExceptionUtils
import GexCloud.Base.EditorOperations
import GexCloud.Ssh.KeyboardInteractive
import GexCloud.Support.Queries
import GexCloud.Login.Credentials
import GexCloud.Support.Html
import GexCloud.Support.JavaScript
import GexCloud.WebProxy.Redirect
import GexCloud.Support.Hosts
import GexCloud.Slave.HostsEntry
import GexCloud.Network.GexResolve
import GexCloud.Containers.VolumeNames
import GexCloud.Network.FrameworkIp
import GexCloud.Containers.ServiceState
import GexCloud.Registry.Removal
import GexCloud.Support.Spans
import GexCloud.Base.Permissions
import GexCloud.Base.Iteration
import GexCloud.Sensu.MailAdminHandler
import GexCloud.Deploy.Boxes
import GexCloud.Network.Pipework
import GexCloud.Containers.CreateOptions
import GexCloud.Support.WordMaps
import GexCloud.Slave.LocalhostAlias
import GexCloud.Slave.Rename
import GexCloud.Base.ServiceUtils
import GexCloud.Ssh.PamExchange
import GexCloud.Ssh.PamOrder
import GexCloud.Support.BitCodes
import GexCloud.WebProxy.Basexx
import GexCloud.WebProxy.Jwt
import GexCloud.Ssh.Auth1
import GexCloud.Ssh.Protocols
import GexCloud.Containers.Applications
import GexCloud.Containers.ApplicationFrames
import GexCloud.Containers.ApplicationSteps
import GexCloud.Containers.ApplicationRuns
import GexCloud.Support.Ledgers
import GexCloud.Support.Triples
import GexCloud.Ssh.PamTransaction
import GexCloud.Ssh.PamSessions
import GexCloud.Ssh.PamAccount
