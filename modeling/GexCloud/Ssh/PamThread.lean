import GexCloud.Ssh.KeyboardInteractive
import GexCloud.Support.Machines

/-! # `auth-pam.c`: the server and the PAM process

For keyboard-interactive authentication the server forks a process in which the PAM modules run
(`sshpam_thread`). The two are joined by a pair of sockets: the conversation function of the process
(`sshpam_thread_conv`) sends what the modules say and ask, the server (`sshpam_query`, `sshpam_respond`) hands it to
the client and sends back the answers. In the end the process sends what it has come to, with the account status and
the environment.

* `Dialogue`, `PamStack` — a function of the PAM library as a program that calls the conversation function; the
  modules. What they do lies outside.
* `sshpamThreadConv`, `doPamAccount`, `sshpamThread` — the process.
* `queryBody`, `importEnvironments`, `sshd` — the server.
* `start`, `pamStep` — the two with their sockets, and the steps of either. -/

namespace GexCloud.Ssh

open Texts Machines

/-! ## The PAM library -/

/-- `msg_style` of a message. -/
inductive MsgStyle
  /-- `PAM_PROMPT_ECHO_ON` and `PAM_PROMPT_ECHO_OFF`. -/
  | prompt (echo : Bool)
  /-- `PAM_ERROR_MSG` and `PAM_TEXT_INFO`. -/
  | note (isError : Bool)
  /-- Any other style. -/
  | other
  deriving DecidableEq

/-- `struct pam_message`. -/
structure Message where
  msgStyle : MsgStyle
  msg : Text
  deriving DecidableEq

/-- What a conversation function returns: the responses, of which those to notes are null, or `PAM_CONV_ERR`. -/
abbrev Reply := Option (List (Option Text))

/-- A program that calls the conversation function. -/
inductive Dialogue (α : Type)
  | returns (a : α)
  | conv (messages : List Message) (k : Reply → Dialogue α)

namespace Dialogue

variable {α β : Type}

/-- One program after another. -/
def bind : Dialogue α → (α → Dialogue β) → Dialogue β
  | .returns a, f => f a
  | .conv messages k, f => .conv messages fun reply => (k reply).bind f

/-- The program with a conversation function that is itself a process. -/
def through {M N : Type} (conv : List Message → Process M N Reply) : Dialogue α → Process M N α
  | .returns a => .done a
  | .conv messages k => (conv messages).bind fun reply => (k reply).through conv

end Dialogue

/-- The return codes that are told apart. -/
inductive PamErr
  | success
  | acctExpired
  | newAuthtokReqd
  | other (code : Nat)
  deriving DecidableEq

/-- The PAM library with the modules of a service. `H` is what is behind a handle. -/
structure PamStack (H : Type) where
  /-- `PAM_MAX_NUM_MSG`. -/
  maxNumMsg : Nat
  /-- `pam_get_item` of `PAM_USER`. -/
  getUser : H → PamErr
  /-- `pam_set_item` of `PAM_CONV`. -/
  setConv : H → PamErr
  /-- `pam_authenticate`, with the flag `PAM_DISALLOW_NULL_AUTHTOK` or without. -/
  authenticate : Bool → H → Dialogue (PamErr × H)
  acctMgmt : H → Dialogue (PamErr × H)
  /-- `pam_chauthtok`, with the flag `PAM_CHANGE_EXPIRED_AUTHTOK`. -/
  chauthtok : H → Dialogue (PamErr × H)
  /-- The environment of the process in the end, by that in the beginning. -/
  environ : List Text → H → List Text
  getenvlist : H → List Text
  strerror : PamErr → Text

/-! ## The account -/

/-- The account status, the flag `force_pwchange` and the flags that go with it. -/
structure Account where
  /-- `sshpam_account_status`, -1 until it is known. -/
  accountStatus : Int
  forcePwchange : Int
  noPortForwardingFlag : BitVec 32
  noAgentForwardingFlag : BitVec 32
  noX11ForwardingFlag : BitVec 32
  deriving DecidableEq

/-- A flag with its second bit set or cleared. -/
def withBit (reqd : Int) (flag : BitVec 32) : BitVec 32 := if reqd ≠ 0 then flag ||| 2 else flag &&& ~~~2

/-- `sshpam_password_change_required`. -/
def Account.passwordChangeRequired (a : Account) (reqd : Int) : Account where
  accountStatus := a.accountStatus
  forcePwchange := reqd
  noPortForwardingFlag := withBit reqd a.noPortForwardingFlag
  noAgentForwardingFlag := withBit reqd a.noAgentForwardingFlag
  noX11ForwardingFlag := withBit reqd a.noX11ForwardingFlag

variable {H : Type}

/-- `do_pam_account`: what it returns is the account status that it leaves. -/
def doPamAccount (stack : PamStack H) (a : Account) (h : H) : Dialogue (Account × H) :=
  if a.accountStatus ≠ -1 then .returns (a, h)
  else (stack.acctMgmt h).bind fun (err, h) =>
    match err with
    | .success => .returns ({ a with accountStatus := 1 }, h)
    | .newAuthtokReqd => .returns ({ a.passwordChangeRequired 1 with accountStatus := 1 }, h)
    | _ => .returns ({ a with accountStatus := 0 }, h)

/-! ## The PAM process -/

/-- What `sshpam_thread` exports when it has succeeded. -/
structure Export where
  accountStatus : Int
  forcePwchange : Int
  environ : List Text
  pamEnv : List Text
  deriving DecidableEq

/-- A message of the PAM process. -/
inductive ThreadMessage
  | prompt (echo : Bool) (msg : Text)
  | note (isError : Bool) (msg : Text)
  | acctExpired (msg : Text)
  | authErr (msg : Text)
  | success (e : Export)
  deriving DecidableEq

/-- The loop of `sshpam_thread_conv`, with the responses so far. -/
def threadConvLoop : List Message → List (Option Text) → Process ThreadMessage Text Reply
  | [], replies => .done (some replies)
  | m :: messages, replies =>
    match m.msgStyle with
    | .prompt echo => .send (.prompt echo m.msg) (.receive fun resp =>
        match resp with
        | some resp => threadConvLoop messages (replies ++ [some resp])
        | none => .done none)
    | .note isError => .send (.note isError m.msg) (threadConvLoop messages (replies ++ [none]))
    | .other => .done none

/-- `sshpam_thread_conv`. -/
def sshpamThreadConv (maxNumMsg : Nat) (messages : List Message) : Process ThreadMessage Text Reply :=
  if messages.length = 0 ∨ maxNumMsg < messages.length then .done none else threadConvLoop messages []

/-- The settings of the server, and the environment it runs in. -/
structure PamOptions where
  permitEmptyPasswd : Bool
  compat20 : Bool
  /-- `getenv("TZ")`. -/
  tz : Option Text

/-- The environment with which the modules start. -/
def PamOptions.initialEnviron (o : PamOptions) : List Text :=
  match o.tz with
  | some tz => ["TZ=".toList ++ tz]
  | none => []

/-- What `sshpam_thread` comes to. -/
inductive Judgement
  | ok (e : Export)
  | authFail (err : PamErr)
  deriving DecidableEq

/-- What is exported. -/
def PamStack.export (stack : PamStack H) (o : PamOptions) (a : Account) (h : H) : Judgement :=
  .ok ⟨a.accountStatus, a.forcePwchange, stack.environ o.initialEnviron h, stack.getenvlist h⟩

/-- The part of `sshpam_thread` for protocol 2, after `pam_authenticate`. -/
def PamStack.judgeAccount (stack : PamStack H) (o : PamOptions) (a : Account) (h : H) : Dialogue Judgement :=
  (doPamAccount stack a h).bind fun (a, h) =>
    if a.accountStatus = 0 then .returns (.authFail .acctExpired)
    else if a.forcePwchange ≠ 0 then
      (stack.chauthtok h).bind fun (err, h) =>
        if err ≠ .success then .returns (.authFail err)
        else .returns (stack.export o (a.passwordChangeRequired 0) h)
    else .returns (stack.export o a h)

/-- `sshpam_thread` up to where it sends what it has come to. -/
def PamStack.judge (stack : PamStack H) (o : PamOptions) (a : Account) (h : H) : Dialogue Judgement :=
  -- here the text of the error is put into a buffer that is initialised only after this check
  if stack.getUser h ≠ .success then .returns (.authFail (stack.getUser h))
  else if stack.setConv h ≠ .success then .returns (.authFail (stack.setConv h))
  else (stack.authenticate (!o.permitEmptyPasswd) h).bind fun (err, h) =>
    if err ≠ .success then .returns (.authFail err)
    else if o.compat20 then stack.judgeAccount o a h
    else .returns (stack.export o a h)

/-- The last message. -/
def PamStack.lastMessage (stack : PamStack H) : Judgement → ThreadMessage
  -- `sshpam_err` is `PAM_SUCCESS` on every way that leads here
  | .ok e => .success e
  | .authFail .acctExpired => .acctExpired (stack.strerror .acctExpired)
  | .authFail err => .authErr (stack.strerror err)

/-- `sshpam_thread`, in a process forked from a server with this account and this handle. -/
def sshpamThread (stack : PamStack H) (o : PamOptions) (a : Account) (h : H) :
    Process ThreadMessage Text Judgement :=
  ((stack.judge o a h).through (sshpamThreadConv stack.maxNumMsg)).bind fun j =>
    .send (stack.lastMessage j) (.done j)

/-! ## The server -/

/-- The state of `auth-pam.c` in the server. -/
structure Sshd where
  pam : Pam
  account : Account
  /-- `sshpam_env`. -/
  sshpamEnv : List Text
  /-- The strings given to `pam_putenv`. -/
  putenv : List Text
  deriving DecidableEq

/-- `import_environments`; `none` when the process ends, since there are too many strings. -/
def importEnvironments (e : Export) (d : Sshd) : Option Sshd :=
  if 1024 < e.environ.length then none
  else some { d with
    account := { d.account with accountStatus := e.accountStatus }.passwordChangeRequired e.forcePwchange
    sshpamEnv := e.environ
    putenv := d.putenv ++ e.pamEnv }

/-- The cases `PAM_ACCT_EXPIRED` and `PAM_AUTH_ERR`. -/
def queryError (prompts : Option Text) (d : Sshd) : Query × Sshd :=
  let result := authError prompts d.pam
  (result.1, { d with pam := result.2 })

/-- The body of the loop in `sshpam_query`: the messages accumulated from now on, or how the function comes back. -/
def queryBody (rootDenied : Bool) (prompts : Option Text) (d : Sshd) : ThreadMessage → Text ⊕ Query × Sshd
  | .prompt echo msg => .inr (.asks ⟨[], [(prompts.getD [] ++ msg, echo)]⟩, d)
  | .note _ msg => .inl (prompts.getD [] ++ msg ++ ['\n'])
  | .acctExpired _ => .inr (queryError prompts { d with
      pam := { d.pam with accountExpired := true }
      account := { d.account with accountStatus := 0 } })
  | .authErr _ => .inr (queryError prompts d)
  | .success e =>
    let d := { d with pam := { d.pam with loginmsg := d.pam.loginmsg ++ prompts.getD [] } }
    if rootDenied then .inr (.fatal, d)
    else
      match importEnvironments e d with
      | none => .inr (.fatal, d)
      | some d => .inr (.asks ⟨[], []⟩, { d with pam := { d.pam with pamDone := 1 } })

/-- What `do_pam_account` returns in the server; `S.pamAccount` is what `pam_acct_mgmt` would come to. -/
def Sshd.pamAccount (d : Sshd) (S : Setting) : Bool :=
  if d.account.accountStatus ≠ -1 then decide (d.account.accountStatus ≠ 0) else S.pamAccount

/-- `userauth_finish`, as the client sees it. -/
def Sshd.finish (d : Sshd) (S : Setting) (authenticated : Int) : Visible :=
  Ssh.finish { S with pamAccount := d.pamAccount S } authenticated keyboardInteractive

/-- Where the server is. -/
inductive Phase
  /-- In `sshpam_query`, with the messages accumulated so far. -/
  | query (prompts : Option Text)
  /-- In `sshpam_respond`, with the response of the client. -/
  | respond (resp : Text)
  | finished
  deriving DecidableEq

/-- The server in an exchange. -/
structure Exchange where
  phase : Phase
  sshd : Sshd
  /-- The responses sent to the PAM process. -/
  given : List Text
  /-- What the client has seen. -/
  seen : List Visible

/-- The end of an exchange. -/
def Exchange.leave (x : Exchange) (d : Sshd) (seen : List Visible) : Exchange :=
  { x with phase := .finished, sshd := d, seen := x.seen ++ seen }

/-- The server with a request for the client, who answers its `i`-th prompt with `answer i`. -/
def Exchange.ask (x : Exchange) (S : Setting) (answer : Nat → Text) (r : Request) (d : Sshd) : Exchange :=
  match sshpamRespond d.pam (r.prompts.map fun _ => answer x.given.length) with
  | (.accepted, pam) => x.leave { d with pam := pam } [.request r, { d with pam := pam }.finish S 1]
  | (.refused, pam) => x.leave { d with pam := pam } [.request r, { d with pam := pam }.finish S 0]
  | (.sent resp, pam) =>
    { x with phase := .respond resp, sshd := { d with pam := pam }, seen := x.seen ++ [.request r] }

/-- The server with what it has received in `sshpam_query`. -/
def Exchange.received (x : Exchange) (S : Setting) (answer : Nat → Text) (prompts : Option Text) :
    Option ThreadMessage → Exchange
  | none => x.leave x.sshd [x.sshd.finish S 0]
  | some m =>
    match queryBody S.rootDenied prompts x.sshd m with
    | .inl prompts => { x with phase := .query (some prompts) }
    | .inr (.asks r, d) => x.ask S answer r d
    | .inr (.fails, d) => x.leave d [d.finish S 0]
    | .inr (.fatal, d) => x.leave d [.fatal]

/-- The server, which queries and responds until the exchange is over. -/
def sshd (S : Setting) (answer : Nat → Text) (x : Exchange) : Action Text ThreadMessage Exchange :=
  match x.phase with
  | .query prompts => .receive (x.received S answer prompts)
  | .respond resp => .send resp { x with phase := .query none, given := x.given ++ [resp] }
  | .finished => .halt

/-! ## The two together -/

/-- The PAM process and the server, with what is under way between them. -/
abbrev PamLink := Link ThreadMessage Text (Process ThreadMessage Text Judgement) Exchange

/-- The server when it enters its first query. -/
def Exchange.start (d : Sshd) : Exchange := ⟨.query none, d, [], []⟩

/-- `sshpam_init_ctx`: the process is started. -/
def PamLink.start (stack : PamStack H) (o : PamOptions) (h : H) (d : Sshd) : PamLink :=
  ⟨sshpamThread stack o d.account h, .start d, [], []⟩

/-- The steps of either. -/
def pamStep (S : Setting) (answer : Nat → Text) : PamLink → Side → PamLink → Prop :=
  step Process.next (sshd S answer)

end GexCloud.Ssh
