import GexCloud.Base.Ruby
import GexCloud.Registry.Stores
import GexCloud.Support.Scripts
import Mathlib.Logic.Function.Basic

/-! # `exception_utils.rb`: a script that must give its lock back

The scripts run inside `safe_exec`. When the block ends in an exception, the exception is reported to Slack,
the lock of the server is deleted in Consul and the exception is raised again. The report comes first and
nothing guards it.

* `Thrown`, `Session`, `Outside` — what the block may end in, the state, and what the calls come to.
* `sendExceptionToSlack`, `safeExec` — the functions.
* `Released` — the lock is gone and the exception of the block comes out.
* `Clears` — nothing goes wrong in the handler.
* **`released_iff`** — the lock is given back exactly when nothing goes wrong in the handler. -/

namespace GexCloud.Exceptions

open Texts Scripts

/-! ## Sessions -/

/-- What a block can end in; `text` is how the exception prints, and its backtrace. -/
inductive Thrown
  /-- `SystemExit`. -/
  | systemExit (status : Int) (text : Text)
  | exception (text : Text)
  deriving DecidableEq

/-- `"#{e}  #{e.backtrace}"`. -/
def Thrown.text : Thrown → Text
  | .systemExit _ text | .exception text => text

/-- The block did not leave by `exit 0`. -/
def Thrown.failing : Thrown → Prop
  | .systemExit status _ => status ≠ 0
  | .exception _ => True

instance (e : Thrown) : Decidable e.failing := by
  cases e <;> unfold Thrown.failing <;> infer_instance

/-- What goes wrong in the handler itself. -/
inductive Fault
  | ruby (e : RubyError)
  /-- Consul does not answer. -/
  | unreachable
  /-- `Diplomat::KeyNotFound`. -/
  | keyNotFound (key : Text)
  /-- `JSON::ParserError`, or a document that is no hash. -/
  | noHash (document : Text)
  /-- `notifier.post` raises. -/
  | slack
  deriving DecidableEq

/-- The ways `safe_exec` is cut short. -/
inductive Raised
  /-- The exception of the block. -/
  | own (e : Thrown)
  /-- Another exception. -/
  | other (fault : Fault)
  deriving DecidableEq

/-- An attachment of a message. -/
structure Attachment where
  fallback : Text
  text : Text
  color : Text

/-- A message to Slack. -/
structure Post where
  channel : Text
  username : Text
  text : Text
  attachments : List Attachment

/-- A hash of texts. -/
abbrev Hash := Text → Option Text

/-- The state a block and its handler work on: `$vars`, the keys of the cluster's Consul, and the messages
that have been posted. -/
structure Session where
  vars : Option Hash
  kv : Text → Option Text
  posts : List Post

/-- What the calls of the handler come to. -/
structure Outside where
  /-- `Socket.gethostname`, `none` when it raises. -/
  gethostname : Option Text
  /-- `get_vars.inspect`. -/
  inspect : Hash → Text
  /-- `Time.now`. -/
  now : Text
  /-- Consul answers when the cluster data is read. -/
  answersGet : Bool
  /-- Consul answers when the lock is deleted. -/
  answersDelete : Bool
  /-- `JSON.parse`, of a document that is a hash. -/
  parse : Text → Option Hash
  /-- Slack takes the message. -/
  slackTakes : Bool

/-! ## The handler -/

/-- `cluster_id.to_i`, for a value of `$vars`. -/
def toInt (value : Option Text) : Int := value.elim 0 Registry.toI

/-- `consul_connect`, which only asserts that the id is proper: the connection is made by the calls. -/
def consulConnect (cluster_id : Option Text) : Script Fault Session PUnit :=
  ensure (decide (0 < toInt cluster_id))
    (.ruby (.exception ("Invalid clustert id, ".toList ++ cluster_id.getD [])))

/-- The key of the cluster data. -/
def clusterDataKey : Text := "/info/cluster_data.json".toList

/-- The key of the lock of a server. -/
def lockKey (server_name : Text) : Text := "/lock/".toList ++ server_name

/-- `consul_get_cluster_data`. -/
def consulGetClusterData (O : Outside) : Script Fault Session Hash := do
  ensure O.answersGet .unreachable
  let s ← get
  let document ← orThrow (.keyNotFound clusterDataKey) (s.kv clusterDataKey)
  orThrow (.noHash document) (O.parse document)

/-- `consul_delete_lock`. -/
def consulDeleteLock (O : Outside) (server_name : Text) : Script Fault Session PUnit := do
  ensure O.answersDelete .unreachable
  modify fun s => { s with kv := Function.update s.kv (lockKey server_name) none }

/-- The text of the first attachment. -/
def varsText (O : Outside) (vars : Option Hash) : Text :=
  vars.elim "No String Vars".toList O.inspect ++ O.gethostname.elim [] fun h => "Hostname: ".toList ++ h ++ " ".toList

/-- The message about an exception. -/
def slackMessage (O : Outside) (e : Thrown) (vars : Option Hash) (gex_env : Text) : Post where
  channel := '#' :: gex_env ++ "_errors".toList
  username := "safe_exec".toList
  text := "Exception ".toList ++ O.now
  attachments := [⟨"args".toList, varsText O vars, "#00ff00".toList⟩,
    ⟨"Exception_message".toList, e.text, "#ffff00".toList⟩]

/-- `notifier.post`. -/
def post (O : Outside) (message : Post) : Script Fault Session PUnit := do
  ensure O.slackTakes .slack
  modify fun s => { s with posts := s.posts ++ [message] }

/-- `send_exception_to_slack`. -/
def sendExceptionToSlack (O : Outside) (e : Thrown) : Script Fault Session PUnit := do
  let s ← get
  let vars ← orThrow (.ruby .noMethodError) s.vars
  consulConnect (vars "_cluster_id".toList)
  let data ← consulGetClusterData O
  post O (slackMessage O e s.vars ((data "_gex_env".toList).getD "prod".toList))

/-- `if $vars['_server_name']`, with the deletion of the lock. -/
def releaseLock (O : Outside) : Script Fault Session PUnit := do
  let s ← get
  let vars ← orThrow (.ruby .noMethodError) s.vars
  (vars "_server_name".toList).elim (pure ⟨⟩) (consulDeleteLock O)

/-- The handler of both branches of `safe_exec`. What goes wrong in it comes out instead of the exception. -/
def handle (O : Outside) (e : Thrown) : Script Raised Session PUnit := do
  rescue (do sendExceptionToSlack O e; releaseLock O) fun fault => throw (.other fault)
  throw (.own e)

/-- **`safe_exec`**. -/
def safeExec (O : Outside) (block : Script Thrown Session PUnit) : Script Raised Session PUnit :=
  rescue block fun
    | .systemExit status text => if status ≠ 0 then handle O (.systemExit status text) else pure ⟨⟩
    | .exception text => handle O (.exception text)

/-- The server whose lock is held, by the variables. -/
def Session.serverName (s : Session) : Option Text := s.vars.bind fun vars => vars "_server_name".toList

/-- Where the block ends in a failing exception, `safe_exec` raises that exception, and the lock of the server
that the variables name is gone. -/
def Released (O : Outside) (block : Script Thrown Session PUnit) (s : Session) : Prop :=
  ∀ e t, run block s = (.error e, t) → e.failing →
    (run (safeExec O block) s).1 = .error (.own e) ∧
      ∀ server_name, t.serverName = some server_name → (run (safeExec O block) s).2.kv (lockKey server_name) = none

/-- Nothing goes wrong in the handler, when it starts from this state. -/
structure Clears (O : Outside) (s : Session) : Prop where
  /-- There are variables, with a proper id of the cluster. -/
  cluster : ∃ vars, s.vars = some vars ∧ 0 < toInt (vars "_cluster_id".toList)
  /-- Consul answers. -/
  answers : O.answersGet = true
  /-- The cluster data is there, and a hash. -/
  data : ∃ document data, s.kv clusterDataKey = some document ∧ O.parse document = some data
  /-- Slack takes the report. -/
  slack : O.slackTakes = true
  /-- Consul still answers when there is a lock to delete. -/
  delete : s.serverName.isSome → O.answersDelete = true

variable {O : Outside} {block : Script Thrown Session PUnit} {s t u : Session} {e : Thrown}

/-! ## When the handler goes through -/

/-- The id of the cluster is checked, and nothing is changed. -/
theorem returns_consulConnect_iff {cluster_id : Option Text} :
    Returns (consulConnect cluster_id) t ⟨⟩ u ↔ 0 < toInt cluster_id ∧ t = u := by
  rw [consulConnect, returns_ensure_iff, decide_eq_true_eq]

/-- The cluster data is read and parsed, and nothing is changed. -/
theorem returns_consulGetClusterData_iff {data : Hash} :
    Returns (consulGetClusterData O) t data u ↔ O.answersGet = true ∧
      (∃ document, t.kv clusterDataKey = some document ∧ O.parse document = some data) ∧ t = u := by
  simp only [consulGetClusterData, returns_bind_iff, returns_get_iff, returns_orThrow_iff, returns_ensure_iff]
  constructor
  · rintro ⟨_, _, ⟨hget, rfl⟩, _, _, ⟨rfl, rfl⟩, document, _, ⟨hdoc, rfl⟩, hdata, rfl⟩
    exact ⟨hget, ⟨document, hdoc, hdata⟩, rfl⟩
  · rintro ⟨hget, ⟨document, hdoc, hdata⟩, rfl⟩
    exact ⟨⟨⟩, t, ⟨hget, rfl⟩, t, t, ⟨rfl, rfl⟩, document, t, ⟨hdoc, rfl⟩, hdata, rfl⟩

/-- The message is added. -/
theorem returns_post_iff {message : Post} :
    Returns (post O message) t ⟨⟩ u ↔ O.slackTakes = true ∧ u = { t with posts := t.posts ++ [message] } := by
  simp only [post, returns_then_iff, returns_ensure_iff, returns_modify_iff]
  constructor
  · rintro ⟨_, ⟨hslack, rfl⟩, rfl⟩
    exact ⟨hslack, rfl⟩
  · rintro ⟨hslack, rfl⟩
    exact ⟨t, ⟨hslack, rfl⟩, rfl⟩

/-- The lock is deleted. -/
theorem returns_consulDeleteLock_iff {server_name : Text} :
    Returns (consulDeleteLock O server_name) t ⟨⟩ u ↔ O.answersDelete = true ∧
      u = { t with kv := Function.update t.kv (lockKey server_name) none } := by
  simp only [consulDeleteLock, returns_then_iff, returns_ensure_iff, returns_modify_iff]
  constructor
  · rintro ⟨_, ⟨hdelete, rfl⟩, rfl⟩
    exact ⟨hdelete, rfl⟩
  · rintro ⟨hdelete, rfl⟩
    exact ⟨t, ⟨hdelete, rfl⟩, rfl⟩

/-- A report that goes through, and what it changes: the messages. -/
theorem returns_sendExceptionToSlack_iff :
    Returns (sendExceptionToSlack O e) t ⟨⟩ u ↔
      ∃ vars document data, t.vars = some vars ∧ 0 < toInt (vars "_cluster_id".toList) ∧ O.answersGet = true ∧
        t.kv clusterDataKey = some document ∧ O.parse document = some data ∧ O.slackTakes = true ∧
        u = { t with posts := t.posts ++
          [slackMessage O e t.vars ((data "_gex_env".toList).getD "prod".toList)] } := by
  rw [sendExceptionToSlack, returns_get_bind_iff, returns_bind_iff]
  simp only [returns_orThrow_iff, returns_then_iff, returns_consulConnect_iff]
  constructor
  · rintro ⟨vars, _, ⟨hvars, rfl⟩, _, ⟨hid, rfl⟩, h⟩
    obtain ⟨data, _, hget, hpost⟩ := returns_bind_iff.mp h
    obtain ⟨hanswers, ⟨document, hdoc, hdata⟩, rfl⟩ := returns_consulGetClusterData_iff.mp hget
    obtain ⟨hslack, rfl⟩ := returns_post_iff.mp hpost
    exact ⟨vars, document, data, hvars, hid, hanswers, hdoc, hdata, hslack, rfl⟩
  · rintro ⟨vars, document, data, hvars, hid, hget, hdoc, hdata, hslack, hu⟩
    refine ⟨vars, t, ⟨hvars, rfl⟩, t, ⟨hid, rfl⟩, returns_bind_iff.mpr ⟨data, t, ?_, ?_⟩⟩
    · exact returns_consulGetClusterData_iff.mpr ⟨hget, ⟨document, hdoc, hdata⟩, rfl⟩
    · exact returns_post_iff.mpr ⟨hslack, hu⟩

/-- The deletion of the lock, where the variables name a server. -/
theorem returns_releaseLock_iff :
    Returns (releaseLock O) t ⟨⟩ u ↔ t.vars.isSome ∧
      ((t.serverName = none ∧ u = t) ∨ ∃ server_name, t.serverName = some server_name ∧ O.answersDelete = true ∧
        u = { t with kv := Function.update t.kv (lockKey server_name) none }) := by
  rw [releaseLock, returns_get_bind_iff, returns_bind_iff]
  simp only [returns_orThrow_iff]
  constructor
  · rintro ⟨vars, _, ⟨hvars, rfl⟩, h⟩
    have hserver : t.serverName = vars "_server_name".toList := by rw [Session.serverName, hvars, Option.bind_some]
    refine ⟨by rw [hvars]; rfl, ?_⟩
    rw [hserver]
    cases hname : vars "_server_name".toList with
    | none =>
      rw [hname, Option.elim_none, returns_pure_iff] at h
      exact .inl ⟨rfl, h.2.symm⟩
    | some server_name =>
      rw [hname, Option.elim_some, returns_consulDeleteLock_iff] at h
      exact .inr ⟨server_name, rfl, h⟩
  · rintro ⟨hsome, h⟩
    obtain ⟨vars, hvars⟩ := Option.isSome_iff_exists.mp hsome
    have hserver : t.serverName = vars "_server_name".toList := by rw [Session.serverName, hvars, Option.bind_some]
    rw [hserver] at h
    refine ⟨vars, t, ⟨hvars, rfl⟩, ?_⟩
    rcases h with ⟨hname, rfl⟩ | ⟨server_name, hname, hdelete⟩
    · rw [hname, Option.elim_none]
      exact returns_pure_iff.mpr ⟨rfl, rfl⟩
    · rw [hname, Option.elim_some]
      exact returns_consulDeleteLock_iff.mpr hdelete

/-- The report and the deletion of the lock go through exactly when nothing goes wrong. -/
theorem exists_returns_iff :
    (∃ v, Returns (do sendExceptionToSlack O e; releaseLock O) t ⟨⟩ v) ↔ Clears O t := by
  simp only [returns_then_iff]
  constructor
  · rintro ⟨v, u, hreport, hrelease⟩
    obtain ⟨vars, document, data, hvars, hid, hget, hdoc, hdata, hslack, rfl⟩ :=
      returns_sendExceptionToSlack_iff.mp hreport
    refine ⟨⟨vars, hvars, hid⟩, hget, ⟨document, data, hdoc, hdata⟩, hslack, fun hsome => ?_⟩
    obtain ⟨-, ⟨hnone, -⟩ | ⟨_, -, hdelete, -⟩⟩ := returns_releaseLock_iff.mp hrelease
    · change t.serverName = none at hnone
      rw [hnone] at hsome
      cases hsome
    · exact hdelete
  · rintro ⟨⟨vars, hvars, hid⟩, hget, ⟨document, data, hdoc, hdata⟩, hslack, hdelete⟩
    have hreport := (@returns_sendExceptionToSlack_iff O t _ e).mpr
      ⟨vars, document, data, hvars, hid, hget, hdoc, hdata, hslack, rfl⟩
    have hsome : t.vars.isSome := by rw [hvars]; rfl
    cases hname : t.serverName with
    | none => exact ⟨_, _, hreport, returns_releaseLock_iff.mpr ⟨hsome, .inl ⟨hname, rfl⟩⟩⟩
    | some server_name =>
      refine ⟨_, _, hreport, returns_releaseLock_iff.mpr ⟨hsome, .inr ⟨server_name, hname, ?_, rfl⟩⟩⟩
      exact hdelete (by rw [hname]; rfl)

/-- The lock is gone when the two parts of the handler have gone through. -/
theorem lock_deleted {v : Session} (h : Returns (do sendExceptionToSlack O e; releaseLock O) t ⟨⟩ v)
    {server_name : Text} (hname : t.serverName = some server_name) : v.kv (lockKey server_name) = none := by
  obtain ⟨u, hreport, hrelease⟩ := returns_then_iff.mp h
  obtain ⟨_, _, _, _, _, _, _, _, _, rfl⟩ := returns_sendExceptionToSlack_iff.mp hreport
  obtain ⟨-, ⟨hnone, -⟩ | ⟨name, hsome, -, rfl⟩⟩ := returns_releaseLock_iff.mp hrelease
  · cases hname.symm.trans hnone
  · obtain rfl : server_name = name := Option.some.inj (hname.symm.trans hsome)
    exact Function.update_self _ _ _

/-! ## What comes out -/

/-- The handler raises the exception of the block when its two parts go through. -/
theorem run_handle_of_returns {v : Session} (h : Returns (do sendExceptionToSlack O e; releaseLock O) t ⟨⟩ v) :
    run (handle O e) t = (.error (.own e), v) := by
  rw [handle, run_bind_of_returns (run_rescue_of_returns h)]
  rfl

/-- The handler raises what goes wrong in its two parts. -/
theorem run_handle_of_error {v : Session} {fault : Fault}
    (h : run (do sendExceptionToSlack O e; releaseLock O) t = (.error fault, v)) :
    run (handle O e) t = (.error (.other fault), v) := by
  rw [handle]
  exact run_bind_of_error (run_rescue_of_error h)

/-- A failing exception of the block is handled. -/
theorem run_safeExec (h : run block s = (.error e, t)) (he : e.failing) :
    run (safeExec O block) s = run (handle O e) t := by
  rw [safeExec, run_rescue_of_error h]
  cases e with
  | systemExit status text => exact congrArg (fun m => run m t) (if_pos he)
  | exception text => rfl

/-- **The lock is given back exactly when nothing goes wrong in the handler.** -/
theorem released_iff : Released O block s ↔ ∀ e t, run block s = (.error e, t) → e.failing → Clears O t := by
  constructor
  · intro h e t hrun he
    obtain ⟨hown, -⟩ := h e t hrun he
    rw [run_safeExec hrun he] at hown
    -- a fault of the handler would have come out instead
    generalize hm : run (do sendExceptionToSlack O e; releaseLock O) t = r at *
    obtain ⟨_ | _, v⟩ := r
    · rw [run_handle_of_error hm] at hown
      cases hown
    · exact exists_returns_iff.mp ⟨v, hm⟩
  · intro h e t hrun he
    obtain ⟨v, hv⟩ := exists_returns_iff.mpr (h e t hrun he)
    rw [run_safeExec hrun he, run_handle_of_returns hv]
    exact ⟨rfl, fun server_name hname => lock_deleted hv hname⟩

/-- The variables of a node script that holds the lock of its server. -/
def lockedVars : Hash
  | key => if key = "_server_name".toList then some "s1".toList
    else if key = "_cluster_id".toList then some "7".toList else none

/-- The lock is held, and the cluster data is missing in Consul. -/
def lockedSession : Session where
  vars := some lockedVars
  kv key := if key = lockKey "s1".toList then some "held".toList else none
  posts := []

/-- Consul and Slack answer, on a host of their own. -/
def answering : Outside where
  gethostname := some "node".toList
  inspect _ := "{}".toList
  now := "2017-01-01".toList
  answersGet := true
  answersDelete := true
  parse _ := some fun _ => none
  slackTakes := true

/-- The report does not find the cluster data: its exception comes out, and the lock is still held. -/
theorem lockedSession_not_released :
    (run (safeExec answering (throw (.exception "disk full".toList))) lockedSession).1 =
        .error (.other (.keyNotFound clusterDataKey)) ∧
      (run (safeExec answering (throw (.exception "disk full".toList))) lockedSession).2.kv
        (lockKey "s1".toList) = some "held".toList ∧
      ¬ Released answering (throw (.exception "disk full".toList)) lockedSession := by
  have hrun : run (safeExec answering (throw (.exception "disk full".toList))) lockedSession =
      (.error (.other (.keyNotFound clusterDataKey)), lockedSession) := by
    rw [run_safeExec (run_throw (Thrown.exception "disk full".toList) lockedSession) trivial]
    exact run_handle_of_error rfl
  rw [hrun]
  refine ⟨rfl, by decide, fun h => ?_⟩
  have hown := (h _ _ rfl trivial).1
  rw [hrun] at hown
  cases hown

end GexCloud.Exceptions
