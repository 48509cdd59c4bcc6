import GexCloud.Ssh.PamExchange
import GexCloud.Support.Ledgers
import GexCloud.Support.Triples

/-! # `auth-pam.c`: the life of a PAM transaction

The server starts a transaction of the PAM library, checks the account, establishes credentials, opens a session, and
ends it all in `sshpam_cleanup`. It can be called for one user after another, and the process for keyboard-interactive
authentication comes and goes beside it. What was started is remembered in a handle and in flags.

* `PamLibrary`, `PamEvent` — the library, and what has been done so far.
* `sshpamInit`, `sshpamCleanup`, `doPamAccount`, `doPamSetcred`, `doPamSession`, `sshpamAuthPasswd`, … — the functions.
* `Op`, `script` — the calls from the rest of the server.
* **`transactions_tracked`** — whatever is called, the library is called only on a transaction that was started and has
  not been ended, and there is one at most. -/

namespace GexCloud.Ssh.AuthPam

open Texts Scripts Ledgers

/-! ## The library -/

/-- What `pam_get_item` and `pam_set_item` are for. -/
inductive Item
  | user
  | conv
  | rhost
  | tty
  deriving DecidableEq

/-- The flag of `pam_setcred`. -/
inductive CredFlag
  | establish
  /-- `PAM_REINITIALIZE_CRED`. -/
  | reinit
  | delete
  deriving DecidableEq

/-- A call of the library. -/
inductive PamCall
  | start (user : Text)
  | getItem (item : Item)
  | setItem (item : Item)
  | acctMgmt
  | authenticate
  | chauthtok
  | setcred (flag : CredFlag)
  | openSession
  | closeSession
  | putenv (compound : Text)
  /-- `pam_getenvlist`. -/
  | getenvlist
  | end_
  deriving DecidableEq

/-- What is done: a call on a handle, with what it comes to, and the process that is started and waited for. Handles and
processes have numbers. -/
inductive PamEvent
  | call (c : PamCall) (handle : Option Nat) (err : PamErr)
  | forked (thread : Nat)
  | joined (thread : Nat)
  deriving DecidableEq

/-- The library and the system, by what has been done so far. -/
structure PamLibrary where
  err : List PamEvent → PamCall → PamErr
  /-- `PAM_USER`, which the modules can change. -/
  user : List PamEvent → Text
  /-- Whether the sockets and the process can be made. -/
  fork : List PamEvent → Bool
  strerror : PamErr → Text

/-- How the server is set up: its options, and whether this process is the monitor. -/
structure Config where
  usePam : Bool
  usePrivsep : Bool
  isMonitor : Bool
  /-- `PAM_TTY_KLUDGE`. -/
  ttyKludge : Bool

/-- The state of `auth-pam.c`. -/
structure State where
  /-- `sshpam_handle`. -/
  handle : Option Nat
  /-- `sshpam_err`. -/
  err : PamErr
  authenticated : Bool
  sessionOpen : Bool
  credEstablished : Bool
  account : Account
  /-- `sshpam_authctxt`, of which the user is used. -/
  authctxt : Option Text
  sshpamEnv : List Text
  /-- `cleanup_ctxt`. -/
  cleanupCtxt : Option Nat
  /-- What has been done. -/
  trace : List PamEvent

/-- A function of `auth-pam.c`; an error is the text of `fatal`, which ends the process. -/
abbrev Script (α : Type) := Scripts.Script Text State α

/-- The state when the server starts. -/
def State.start : State where
  handle := none
  err := .success
  authenticated := false
  sessionOpen := false
  credEstablished := false
  account := ⟨-1, 0, 0, 0, 0⟩
  authctxt := none
  sshpamEnv := []
  cleanupCtxt := none
  trace := []

/-- `PAM_SYSTEM_ERR`, which the library returns when there is no handle. -/
def systemErr : PamErr := .other 4

/-- What a call on the handle comes to. -/
def answer (L : PamLibrary) (s : State) (c : PamCall) : PamErr :=
  if s.handle.isNone then systemErr else L.err s.trace c

/-- A call of the library on the handle. -/
def pamCall (L : PamLibrary) (c : PamCall) : Script PamErr := do
  let s ← get
  modify fun s => { s with trace := s.trace ++ [.call c s.handle (answer L s c)] }
  return answer L s c

/-- `sshpam_err` is set. -/
def setErr (err : PamErr) : Script PUnit := modify fun s => { s with err := err }

/-- `pam_start`. A new transaction has a number that none before it has. -/
def pamStart (L : PamLibrary) (user : Text) : Script PamErr := do
  let s ← get
  let err := L.err s.trace (.start user)
  let handle := if err = .success then some s.trace.length else none
  modify fun s => { s with trace := s.trace ++ [.call (.start user) handle err], handle := handle }
  return err

/-- `pam_end`, after which there is no handle. -/
def pamEnd (L : PamLibrary) : Script PUnit := do
  let _ ← pamCall L .end_
  modify fun s => { s with handle := none }

/-! ## The functions -/

/-- `sshpam_password_change_required`. -/
def passwordChangeRequired (reqd : Int) : Script PUnit := do
  let s ← get
  ensure s.authctxt.isSome "sshpam_password_change_required: PAM authctxt not initialized".toList
  modify fun s => { s with account := s.account.passwordChangeRequired reqd }

/-- The part of `sshpam_cleanup` for the session. -/
def closeSession (L : PamLibrary) : Script PUnit := do
  let s ← get
  if s.sessionOpen then do
    let _ ← pamCall L .closeSession
    modify fun s => { s with sessionOpen := false }
  else return

/-- The part of `sshpam_cleanup` for the credentials. -/
def deleteCred (L : PamLibrary) : Script PUnit := do
  let s ← get
  if s.credEstablished then do
    let _ ← pamCall L (.setcred .delete)
    modify fun s => { s with credEstablished := false }
  else return

/-- `sshpam_cleanup`, which is `finish_pam`. -/
def sshpamCleanup (L : PamLibrary) (C : Config) : Script PUnit := do
  let s ← get
  if s.handle.isNone || (C.usePrivsep && !C.isMonitor) then return
  else do
    let _ ← pamCall L (.setItem .conv)
    closeSession L
    deleteCred L
    modify fun s => { s with authenticated := false }
    pamEnd L

/-- The part of `sshpam_init` for a transaction that there is: whether it is for the user. It is ended otherwise. -/
def matchContext (L : PamLibrary) (user : Text) : Script Bool := do
  let s ← get
  if s.handle.isNone then return false
  else do
    let err ← pamCall L (.getItem .user)
    setErr err
    if err = .success ∧ L.user s.trace = user then return true
    else do
      pamEnd L
      return false

/-- An item is set, and the transaction is ended when it cannot be. -/
def setItemOrEnd (L : PamLibrary) (item : Item) : Script Int := do
  let err ← pamCall L (.setItem item)
  setErr err
  if err = .success then return 0
  else do
    pamEnd L
    return -1

/-- The part of `sshpam_init` for a new transaction. -/
def startContext (L : PamLibrary) (C : Config) (user : Text) : Script Int := do
  let err ← pamStart L user
  setErr err
  modify fun s => { s with authctxt := some user }
  if err ≠ .success then do
    pamEnd L
    return -1
  else do
    let r ← setItemOrEnd L .rhost
    if r = 0 ∧ C.ttyKludge then setItemOrEnd L .tty else return r

/-- `sshpam_init`. -/
def sshpamInit (L : PamLibrary) (C : Config) (user : Text) : Script Int := do
  let matched ← matchContext L user
  if matched then return 0 else startContext L C user

/-- `start_pam`. -/
def startPam (L : PamLibrary) (C : Config) (user : Text) : Script PUnit := do
  ensure C.usePam "PAM: initialisation requested when UsePAM=no".toList
  let r ← sshpamInit L C user
  ensure (decide (r ≠ -1)) "PAM: initialisation failed".toList

/-- `sshpam_init_ctx`: the number of the process, which is `ctxt->pam_thread`. -/
def sshpamInitCtx (L : PamLibrary) (C : Config) (user : Text) : Script (Option Nat) := do
  let s ← get
  if !C.usePam || s.account.accountStatus = 0 then return none
  else do
    let r ← sshpamInit L C user
    if r = -1 then return none
    else do
      let s ← get
      if L.fork s.trace then do
        modify fun s => { s with trace := s.trace ++ [.forked s.trace.length], cleanupCtxt := some s.trace.length }
        return some s.trace.length
      else return none

/-- `sshpam_thread_cleanup`, which is what `sshpam_free_ctx` does to the process. -/
def sshpamThreadCleanup : Script PUnit := do
  let s ← get
  match s.cleanupCtxt with
  | some thread => modify fun s => { s with trace := s.trace ++ [.joined thread], cleanupCtxt := none }
  | none => return

/-- `import_environments`. -/
def importEnvironments (L : PamLibrary) (e : Export) : Script PUnit := do
  modify fun s => { s with account := { s.account with accountStatus := e.accountStatus } }
  passwordChangeRequired e.forcePwchange
  ensure (decide (e.environ.length ≤ 1024)) "import_environments: received more than 1024 variables".toList
  modify fun s => { s with sshpamEnv := e.environ }
  e.pamEnv.forM fun env => do
    -- errors are not fatal here
    let _ ← pamCall L (.putenv env)

/-- `do_pam_account`. -/
def doPamAccount (L : PamLibrary) : Script Int := do
  let s ← get
  if s.account.accountStatus ≠ -1 then return s.account.accountStatus
  else do
    let err ← pamCall L .acctMgmt
    setErr err
    if err ≠ .success ∧ err ≠ .newAuthtokReqd then do
      modify fun s => { s with account := { s.account with accountStatus := 0 } }
      return 0
    else do
      (if err = .newAuthtokReqd then passwordChangeRequired 1 else pure ⟨⟩ : Script PUnit)
      modify fun s => { s with account := { s.account with accountStatus := 1 } }
      return 1

/-- An item that must be set. -/
def setItemOrFatal (L : PamLibrary) (item : Item) (text : Text) : Script PUnit := do
  let err ← pamCall L (.setItem item)
  setErr err
  ensure (decide (err = .success)) (text ++ L.strerror err)

/-- `do_pam_set_tty`. -/
def doPamSetTty (L : PamLibrary) (tty : Option Text) : Script PUnit :=
  if tty.isSome then setItemOrFatal L .tty "PAM: failed to set PAM_TTY: ".toList else return

/-- `do_pam_setcred`. -/
def doPamSetcred (L : PamLibrary) (init : Bool) : Script PUnit := do
  setItemOrFatal L .conv "PAM: failed to set PAM_CONV: ".toList
  let err ← pamCall L (.setcred (if init then .establish else .reinit))
  setErr err
  if err = .success then modify fun s => { s with credEstablished := true }
  else do
    let s ← get
    ensure (!s.authenticated) ("PAM: pam_setcred(): ".toList ++ L.strerror err)

/-- `do_pam_chauthtok`. -/
def doPamChauthtok (L : PamLibrary) (C : Config) : Script PUnit := do
  ensure (!C.usePrivsep) "Password expired (unable to change with privsep)".toList
  setItemOrFatal L .conv "PAM: failed to set PAM_CONV: ".toList
  let err ← pamCall L .chauthtok
  setErr err
  ensure (decide (err = .success)) ("PAM: pam_chauthtok(): ".toList ++ L.strerror err)

/-- `do_pam_session`. -/
def doPamSession (L : PamLibrary) : Script PUnit := do
  setItemOrFatal L .conv "PAM: failed to set PAM_CONV: ".toList
  let err ← pamCall L .openSession
  setErr err
  modify fun s => { s with sessionOpen := decide (err = .success) }

/-- `do_pam_putenv`. -/
def doPamPutenv (L : PamLibrary) (name value : Text) : Script PUnit := do
  let _ ← pamCall L (.putenv (name ++ '=' :: value))

/-- `fetch_pam_environment`, whose result goes to the session of the user. -/
def fetchPamEnvironment (L : PamLibrary) : Script PUnit := do
  let _ ← pamCall L .getenvlist

/-- `sshpam_auth_passwd`. -/
def sshpamAuthPasswd (L : PamLibrary) (C : Config) (user : Text) : Script Int := do
  let s ← get
  ensure (C.usePam && s.handle.isSome)
    "PAM: sshpam_auth_passwd called when PAM disabled or failed to initialise.".toList
  modify fun s => { s with authctxt := some user }
  setItemOrFatal L .conv "PAM: sshpam_auth_passwd: failed to set PAM_CONV: ".toList
  let err ← pamCall L .authenticate
  setErr err
  return if err = .success then 1 else 0

/-! ## The server -/

/-- A call from the rest of the server. -/
inductive Op
  | startPam (user : Text)
  | finishPam
  | account
  | setTty (tty : Option Text)
  | setcred (init : Bool)
  | chauthtok
  | session
  | putenv (name value : Text)
  | fetchEnvironment
  | authPasswd (user : Text)
  | initCtx (user : Text)
  | freeCtx
  /-- `sshpam_query` has received `PAM_SUCCESS`. -/
  | imported (e : Export)
  /-- `sshpam_query` has received `PAM_ACCT_EXPIRED`. -/
  | expired
  /-- `sshpam_respond` has accepted. -/
  | accepted

/-- A result that is not looked at here. -/
def discard {α : Type} (m : Script α) : Script PUnit := do
  let _ ← m

/-- What is run for a call. -/
def Op.script (L : PamLibrary) (C : Config) : Op → Script PUnit
  | .startPam user => AuthPam.startPam L C user
  | .finishPam => sshpamCleanup L C
  | .account => discard (doPamAccount L)
  | .setTty tty => doPamSetTty L tty
  | .setcred init => doPamSetcred L init
  | .chauthtok => doPamChauthtok L C
  | .session => doPamSession L
  | .putenv name value => doPamPutenv L name value
  | .fetchEnvironment => fetchPamEnvironment L
  | .authPasswd user => discard (sshpamAuthPasswd L C user)
  | .initCtx user => discard (sshpamInitCtx L C user)
  | .freeCtx => sshpamThreadCleanup
  | .imported e => importEnvironments L e
  | .expired => modify fun s => { s with account := { s.account with accountStatus := 0 } }
  | .accepted => modify fun s => { s with authenticated := true }

/-- The calls one after the other, up to one that ends the process. -/
def script (L : PamLibrary) (C : Config) (ops : List Op) : Script PUnit := ops.forM (Op.script L C)

/-! ## What the plain functions keep -/

/-- The calls that only use a transaction. -/
def PamCall.isPlain : PamCall → Bool
  | .getItem _ | .setItem _ | .acctMgmt | .authenticate | .chauthtok | .putenv _ | .getenvlist => true
  | .start _ | .setcred _ | .openSession | .closeSession | .end_ => false

/-- **A condition that is not about plain calls**, nor about what they come to. -/
structure Stable (P : State → Prop) : Prop where
  plain : ∀ (s : State) c err, c.isPlain = true → P s →
    P { s with trace := s.trace ++ [.call c s.handle err] }
  fields : ∀ s t : State, P s → t.handle = s.handle → t.sessionOpen = s.sessionOpen →
    t.credEstablished = s.credEstablished → t.cleanupCtxt = s.cleanupCtxt → t.trace = s.trace → P t

variable {L : PamLibrary} {C : Config} {P : State → Prop} {c : PamCall} {user : Text}

/-- A call is remembered, with what it comes to. -/
theorem pamCall_triple {Q : PamErr → State → Prop} {E : State → Prop} (h : ∀ s, P s →
      Q (answer L s c) { s with trace := s.trace ++ [.call c s.handle (answer L s c)] }) :
    Triple P (pamCall L c) Q E := by
  refine Triple.get fun s hs => ?_
  refine Triple.bind (R := fun _ t => t = { s with trace := s.trace ++ [.call c s.handle (answer L s c)] })
    (Triple.modify ?_) fun _ => Triple.pure ?_
  · rintro t rfl
    rfl
  · rintro t rfl
    exact h s hs

/-- What is left does not depend on a result that is not looked at. -/
theorem discard_triple {α : Type} {m : Script α} {Q E : State → Prop} (hm : Triple P m (fun _ => Q) E) :
    Triple P (discard m) (fun _ => Q) E := Triple.bind hm fun _ => Triple.pure fun _ hs => hs

section Plain

variable (hP : Stable P)

include hP

/-- A plain call keeps it. -/
theorem Stable.pamCall {E : State → Prop} (hc : c.isPlain = true) : Triple P (pamCall L c) (fun _ => P) E :=
  pamCall_triple fun s hs => hP.plain s c _ hc hs

/-- So does setting `sshpam_err`. -/
theorem Stable.setErr {E : State → Prop} (err : PamErr) : Triple P (setErr err) (fun _ => P) E :=
  Triple.modify fun s hs => hP.fields s _ hs rfl rfl rfl rfl rfl

/-- The flags about the password are no matter. -/
theorem Stable.passwordChangeRequired (reqd : Int) : Triple P (passwordChangeRequired reqd) (fun _ => P) P := by
  refine Triple.get_keep fun s _ => ?_
  refine Triple.bind (R := fun _ => P) (Triple.ensure (fun _ hs _ => hs) fun _ hs => hs) fun _ => ?_
  exact Triple.modify fun s hs => hP.fields s _ hs rfl rfl rfl rfl rfl

/-- Setting an item keeps it, also where it ends the process. -/
theorem Stable.setItemOrFatal (item : Item) (text : Text) :
    Triple P (setItemOrFatal L item text) (fun _ => P) P :=
  Triple.bind (hP.pamCall rfl) fun err => Triple.bind (hP.setErr err) fun _ =>
    Triple.ensure (fun _ hs _ => hs) fun _ hs => hs

/-- Checking the account keeps it. -/
theorem Stable.doPamAccount : Triple P (doPamAccount L) (fun _ => P) P := by
  refine Triple.get_keep fun s _ => Triple.ite (fun _ => Triple.pure fun _ hs => hs) fun _ => ?_
  refine Triple.bind (hP.pamCall rfl) fun err => Triple.bind (hP.setErr err) fun _ => ?_
  have hstatus : ∀ status : Int, Triple P (modify fun s : State =>
      { s with account := { s.account with accountStatus := status } } : Script PUnit) (fun _ => P) P := fun status =>
    Triple.modify fun s hs => hP.fields s _ hs rfl rfl rfl rfl rfl
  refine Triple.ite (fun _ => Triple.bind (hstatus 0) fun _ => Triple.pure fun _ hs => hs) fun _ => ?_
  refine Triple.bind (Triple.ite (fun _ => hP.passwordChangeRequired 1) fun _ => Triple.pure fun _ hs => hs) fun _ => ?_
  exact Triple.bind (hstatus 1) fun _ => Triple.pure fun _ hs => hs

/-- Setting the terminal keeps it. -/
theorem Stable.doPamSetTty (tty : Option Text) : Triple P (doPamSetTty L tty) (fun _ => P) P :=
  Triple.ite (fun _ => hP.setItemOrFatal _ _) fun _ => Triple.pure fun _ hs => hs

/-- Changing the password keeps it. -/
theorem Stable.doPamChauthtok : Triple P (doPamChauthtok L C) (fun _ => P) P :=
  Triple.bind (Triple.ensure (fun _ hs _ => hs) fun _ hs => hs) fun _ =>
    Triple.bind (hP.setItemOrFatal _ _) fun _ => Triple.bind (hP.pamCall rfl) fun err =>
    Triple.bind (hP.setErr err) fun _ => Triple.ensure (fun _ hs _ => hs) fun _ hs => hs

/-- Setting a variable keeps it. -/
theorem Stable.doPamPutenv (name value : Text) : Triple P (doPamPutenv L name value) (fun _ => P) P :=
  Triple.bind (hP.pamCall rfl) fun _ => Triple.pure fun _ hs => hs

/-- Reading the environment keeps it. -/
theorem Stable.fetchPamEnvironment : Triple P (fetchPamEnvironment L) (fun _ => P) P :=
  Triple.bind (hP.pamCall rfl) fun _ => Triple.pure fun _ hs => hs

/-- Checking a password keeps it. -/
theorem Stable.sshpamAuthPasswd : Triple P (sshpamAuthPasswd L C user) (fun _ => P) P := by
  refine Triple.get_keep fun s _ => ?_
  refine Triple.bind (R := fun _ => P) (Triple.ensure (fun _ hs _ => hs) fun _ hs => hs) fun _ => ?_
  refine Triple.bind (R := fun _ => P) (Triple.modify fun s hs => hP.fields s _ hs rfl rfl rfl rfl rfl) fun _ => ?_
  exact Triple.bind (hP.setItemOrFatal _ _) fun _ => Triple.bind (hP.pamCall rfl) fun err =>
    Triple.bind (hP.setErr err) fun _ => Triple.pure fun _ hs => hs

/-- Taking over the environment of the PAM process keeps it. -/
theorem Stable.importEnvironments (e : Export) : Triple P (importEnvironments L e) (fun _ => P) P := by
  refine Triple.bind (R := fun _ => P) (Triple.modify fun s hs => hP.fields s _ hs rfl rfl rfl rfl rfl) fun _ => ?_
  refine Triple.bind (hP.passwordChangeRequired _) fun _ => ?_
  refine Triple.bind (R := fun _ => P) (Triple.ensure (fun _ hs _ => hs) fun _ hs => hs) fun _ => ?_
  refine Triple.bind (R := fun _ => P) (Triple.modify fun s hs => hP.fields s _ hs rfl rfl rfl rfl rfl) fun _ => ?_
  exact Triple.forM _ fun env _ => Triple.bind (hP.pamCall rfl) fun _ => Triple.pure fun _ hs => hs

end Plain

/-! ## Transactions -/

/-- The entry of an event in the ledger of transactions. -/
def transactionEntry : PamEvent → Option (Entry Nat)
  | .call (.start _) handle _ => handle.map .acquire
  | .call .end_ handle _ => handle.map .release
  | .call _ handle _ => handle.map .use
  | _ => none

/-- **The handle is that of the transaction that has been started and not ended**, and nothing was done out of order. -/
def Transactions (s : State) : Prop := Tracks s.handle (s.trace.filterMap transactionEntry)

/-- A call that is made on the transaction. -/
def PamCall.isUse : PamCall → Bool
  | .start _ | .end_ => false
  | _ => true

/-- A plain call is made on the transaction. -/
theorem PamCall.isUse_of_isPlain (hc : c.isPlain = true) : c.isUse = true := by
  cases c <;> first | rfl | cases hc

/-- Such a call enters the ledger as a use of the handle it is made on. -/
theorem transactionEntry_use (hc : c.isUse = true) (handle : Option Nat) (err : PamErr) :
    transactionEntry (.call c handle err) = handle.map .use := by
  cases c <;> first | rfl | cases hc

/-- Calls on the transaction are in order. -/
theorem transactions_use {s : State} {err : PamErr} (hc : c.isUse = true) (h : Transactions s) :
    Tracks s.handle ((s.trace ++ [PamEvent.call c s.handle err]).filterMap transactionEntry) := by
  have hentry := transactionEntry_use hc s.handle err
  cases hhandle : s.handle with
  | none =>
    rw [Transactions, hhandle] at h
    rw [hhandle] at hentry
    exact h.event_none hentry
  | some handle =>
    rw [Transactions, hhandle] at h
    rw [hhandle] at hentry
    exact h.event_some hentry (if_pos rfl)

/-- A call on the transaction keeps the ledger in order. -/
theorem pamCall_transactions (hc : c.isUse = true) :
    Triple Transactions (pamCall L c) (fun _ => Transactions) Transactions :=
  pamCall_triple fun _ hs => transactions_use hc hs

/-- The ledger of transactions does not depend on what plain calls come to. -/
theorem stable_transactions : Stable Transactions where
  plain _ _ _ hc hs := transactions_use (PamCall.isUse_of_isPlain hc) hs
  fields s t hs hhandle _ _ _ htrace := by
    rw [Transactions, hhandle, htrace]
    exact hs

/-- After the end of a transaction there is none. -/
theorem pamEnd_transactions :
    Triple Transactions (pamEnd L) (fun _ s => Transactions s ∧ s.handle = none) Transactions := by
  refine Triple.bind (R := fun _ (s : State) => Tracks none (s.trace.filterMap transactionEntry)) ?_ fun _ =>
    Triple.modify fun s hs => ⟨hs, rfl⟩
  refine pamCall_triple fun s hs => ?_
  change Tracks none ((s.trace ++ [PamEvent.call .end_ s.handle _]).filterMap transactionEntry)
  cases hhandle : s.handle with
  | none =>
    rw [Transactions, hhandle] at hs
    exact hs.event_none rfl
  | some handle =>
    rw [Transactions, hhandle] at hs
    exact hs.event_some rfl (if_pos rfl)

/-- Before a transaction is started there is none. -/
theorem pamStart_transactions : Triple (fun s => Transactions s ∧ s.handle = none) (pamStart L user)
    (fun _ => Transactions) Transactions := by
  refine Triple.get fun s hs => ?_
  have htracks : Tracks none (s.trace.filterMap transactionEntry) := hs.2 ▸ hs.1
  refine Triple.bind (R := fun _ => Transactions) (Triple.modify ?_) fun _ => Triple.pure fun _ hs => hs
  rintro t rfl
  change Tracks (if L.err t.trace (.start user) = .success then some t.trace.length else none)
    ((t.trace ++ [PamEvent.call (.start user) _ _]).filterMap transactionEntry)
  split
  · exact htracks.event_some rfl rfl
  · exact htracks.event_none rfl

/-- Where the transaction is not for the user, there is none any more. -/
theorem matchContext_transactions : Triple Transactions (matchContext L user)
    (fun matched s => Transactions s ∧ (matched = false → s.handle = none)) Transactions := by
  refine Triple.get fun s hs => ?_
  refine Triple.ite (fun hnone => Triple.pure ?_) fun hsome => Triple.pre (R := Transactions) ?_ ?_
  · rintro t rfl
    exact ⟨hs, fun _ => Option.isNone_iff_eq_none.mp hnone⟩
  · refine Triple.bind (stable_transactions.pamCall rfl) fun err =>
      Triple.bind (stable_transactions.setErr err) fun _ => Triple.ite (fun _ => Triple.pure fun s hs => ⟨hs, nofun⟩)
      fun _ => Triple.bind pamEnd_transactions fun _ => Triple.pure fun s hs => ⟨hs.1, fun _ => hs.2⟩
  · rintro t rfl
    exact hs

/-- An item that cannot be set ends the transaction, in order. -/
theorem setItemOrEnd_transactions (item : Item) :
    Triple Transactions (setItemOrEnd L item) (fun _ => Transactions) Transactions :=
  Triple.bind (stable_transactions.pamCall rfl) fun err => Triple.bind (stable_transactions.setErr err) fun _ =>
    Triple.ite (fun _ => Triple.pure fun _ hs => hs) fun _ => Triple.bind pamEnd_transactions fun _ =>
    Triple.pure fun _ hs => hs.1

/-- `sshpam_init` starts a transaction only when there is none. -/
theorem sshpamInit_transactions : Triple Transactions (sshpamInit L C user) (fun _ => Transactions) Transactions := by
  refine Triple.bind matchContext_transactions fun matched => ?_
  refine Triple.ite (fun _ => Triple.pure fun _ hs => hs.1) fun hmatched =>
    Triple.pre (R := fun s => Transactions s ∧ s.handle = none) ?_ fun s hs => ⟨hs.1, hs.2 (by simpa using hmatched)⟩
  refine Triple.bind pamStart_transactions fun err => Triple.bind (stable_transactions.setErr err) fun _ => ?_
  refine Triple.bind (R := fun _ => Transactions) (Triple.modify fun s hs => hs) fun _ => ?_
  refine Triple.ite (fun _ => Triple.bind pamEnd_transactions fun _ => Triple.pure fun _ hs => hs.1) fun _ => ?_
  exact Triple.bind (setItemOrEnd_transactions .rhost) fun r =>
    Triple.ite (fun _ => setItemOrEnd_transactions .tty) fun _ => Triple.pure fun _ hs => hs

/-- `sshpam_cleanup` ends the transaction, in order. -/
theorem sshpamCleanup_transactions : Triple Transactions (sshpamCleanup L C) (fun _ => Transactions) Transactions := by
  refine Triple.get_keep fun s _ => Triple.ite (fun _ => Triple.pure fun _ hs => hs) fun _ => ?_
  refine Triple.bind (stable_transactions.pamCall rfl) fun _ => Triple.bind (R := fun _ => Transactions) ?_ fun _ =>
    Triple.bind (R := fun _ => Transactions) ?_ fun _ =>
    Triple.bind (R := fun _ => Transactions) (Triple.modify fun _ hs => hs) fun _ => ?_
  · exact Triple.get_keep fun s _ => Triple.ite (fun _ => Triple.bind (pamCall_transactions rfl) fun _ =>
      Triple.modify fun _ hs => hs) fun _ => Triple.pure fun _ hs => hs
  · exact Triple.get_keep fun s _ => Triple.ite (fun _ => Triple.bind (pamCall_transactions rfl) fun _ =>
      Triple.modify fun _ hs => hs) fun _ => Triple.pure fun _ hs => hs
  · exact pamEnd_transactions.mono (fun _ _ hs => hs.1) fun _ hs => hs

/-- Whatever is called, the ledger stays in order. -/
theorem Op.transactions (op : Op) : Triple Transactions (op.script L C) (fun _ => Transactions) Transactions := by
  have hS := stable_transactions
  cases op with
  | startPam user =>
    exact Triple.bind (R := fun _ => Transactions) (Triple.ensure (fun _ hs _ => hs) fun _ hs => hs) fun _ =>
      Triple.bind sshpamInit_transactions fun r => Triple.ensure (fun _ hs _ => hs) fun _ hs => hs
  | finishPam => exact sshpamCleanup_transactions
  | account => exact discard_triple hS.doPamAccount
  | setTty tty => exact hS.doPamSetTty tty
  | setcred init =>
    refine Triple.bind (hS.setItemOrFatal _ _) fun _ => Triple.bind (pamCall_transactions rfl) fun err =>
      Triple.bind (hS.setErr err) fun _ => Triple.ite (fun _ => Triple.modify fun _ hs => hs) fun _ => ?_
    exact Triple.get_keep fun s _ => Triple.ensure (fun _ hs _ => hs) fun _ hs => hs
  | chauthtok => exact hS.doPamChauthtok
  | session =>
    exact Triple.bind (hS.setItemOrFatal _ _) fun _ => Triple.bind (pamCall_transactions rfl) fun err =>
      Triple.bind (hS.setErr err) fun _ => Triple.modify fun _ hs => hs
  | putenv name value => exact hS.doPamPutenv name value
  | fetchEnvironment => exact hS.fetchPamEnvironment
  | authPasswd user => exact discard_triple hS.sshpamAuthPasswd
  | initCtx user =>
    refine discard_triple (Triple.get_keep fun s _ => Triple.ite (fun _ => Triple.pure fun _ hs => hs) fun _ => ?_)
    refine Triple.bind sshpamInit_transactions fun r => Triple.ite (fun _ => Triple.pure fun _ hs => hs) fun _ => ?_
    refine Triple.get_keep fun s _ => Triple.ite (fun _ => ?_) fun _ => Triple.pure fun _ hs => hs
    exact Triple.bind (R := fun _ => Transactions) (Triple.modify fun _ hs => Tracks.event_none hs rfl) fun _ =>
      Triple.pure fun _ hs => hs
  | freeCtx =>
    refine Triple.get_keep fun s _ => ?_
    split
    · exact Triple.modify fun _ hs => Tracks.event_none hs rfl
    · exact Triple.pure fun _ hs => hs
  | imported e => exact hS.importEnvironments e
  | expired => exact Triple.modify fun _ hs => hs
  | accepted => exact Triple.modify fun _ hs => hs

/-- Calls one after the other keep the ledger in order. -/
theorem script_transactions (L : PamLibrary) (C : Config) (ops : List Op) {s : State} (hs : Transactions s) :
    Transactions (run (script L C ops) s).2 :=
  (Triple.forM ops fun op _ => op.transactions).of_run (fun _ _ hs => hs) (fun _ hs => hs) hs

/-- **The library is called only on the transaction that there is**: whatever the rest of the server calls, in whatever
order, the handle is that of the transaction that has been started and not been ended, and every call on a handle was
made while this was so. -/
theorem transactions_tracked (L : PamLibrary) (C : Config) (ops : List Op) :
    Transactions (run (script L C ops) .start).2 ∧
    ∀ before c handle err later, (run (script L C ops) .start).2.trace = before ++ .call c (some handle) err :: later →
      c.isUse = true → Tracks (some handle) (before.filterMap transactionEntry) := by
  have hkept : Transactions (run (script L C ops) .start).2 := script_transactions L C ops tracks_nil
  refine ⟨hkept, fun before c handle err later htrace hc => ?_⟩
  rw [Transactions, htrace, List.filterMap_append, List.filterMap_cons_some (transactionEntry_use hc _ _)] at hkept
  exact hkept.of_use

end GexCloud.Ssh.AuthPam
