import GexCloud.Ssh.Auth2

/-! # `auth-pam.c`: passwords for a root that may not log in

Root may be kept from logging in by `PermitRootLogin`. Then a password is still handed to PAM, by
keyboard-interactive (`sshpam_query`, `sshpam_respond`) or by the password method (`sshpam_auth_passwd`). The
server is modified: the password of a root that may not log in goes to PAM as it is, where it was replaced by one
that is always wrong. What is left is the check behind it, which ends the process when PAM accepts.

* `PamMessage`, `sshpamQuery`, `sshpamRespond` — what the PAM process sends, and the two functions.
* `exchange` — the exchange with the client: what it is asked and how it ends.
* `Conversation` — a conversation whose messages are fixed and whose verdict depends on the answers.
* `NoOracle` — the client sees the same whatever it answers.
* **`exchange_eq`** — the exchange, by the verdict.
* **`noOracle_iff`** — the client learns nothing exactly when all answers are accepted or none is. -/

namespace GexCloud.Ssh

open Texts

/-! ## The PAM side -/

/-- A message of the authentication process, which `sshpam_query` receives. -/
inductive PamMessage
  | promptEchoOn (msg : Text)
  | promptEchoOff (msg : Text)
  | errorMsg (msg : Text)
  | textInfo (msg : Text)
  | acctExpired (msg : Text)
  | authErr (msg : Text)
  | success
  deriving DecidableEq

/-- The state of `auth-pam.c`. -/
structure Pam where
  /-- `ctxt->pam_done`. -/
  pamDone : Int
  /-- `sshpam_account_status`, of which only 0 is set here. -/
  accountExpired : Bool
  /-- `loginmsg`, which is shown after the login. -/
  loginmsg : Text
  /-- `sshpam_authenticated`. -/
  authenticated : Bool
  deriving DecidableEq

/-- The state when the exchange starts. -/
def Pam.start : Pam := ⟨0, false, [], false⟩

/-- What `sshpam_query` hands back for the client. -/
structure Request where
  info : Text
  /-- The prompts, each with whether the answer is shown. -/
  prompts : List (Text × Bool)
  deriving DecidableEq

/-- The ways `sshpam_query` comes back. -/
inductive Query
  /-- It returns 0. -/
  | asks (r : Request)
  /-- It returns -1. -/
  | fails
  /-- `Internal error: PAM auth succeeded when it should have failed`. -/
  | fatal

/-- The cases `PAM_ACCT_EXPIRED` and `PAM_AUTH_ERR`: messages that have been accumulated are shown first. -/
def authError (prompts : Option Text) (s : Pam) : Query × Pam :=
  match prompts with
  | some (c :: cs) => (.asks ⟨c :: cs, []⟩, { s with pamDone := -1 })
  | _ => (.fails, { s with pamDone := -1 })

/-- `sshpam_query`, on the messages it receives. `rootDenied` says that the user is root and `PermitRootLogin` is
not `yes`; `prompts` are the messages accumulated so far. -/
def sshpamQuery (rootDenied : Bool) (prompts : Option Text) (s : Pam) : List PamMessage → Query × Pam
  | [] => (.fails, s)
  | .promptEchoOn msg :: _ => (.asks ⟨[], [(prompts.getD [] ++ msg, true)]⟩, s)
  | .promptEchoOff msg :: _ => (.asks ⟨[], [(prompts.getD [] ++ msg, false)]⟩, s)
  | .errorMsg msg :: rest | .textInfo msg :: rest =>
    sshpamQuery rootDenied (some (prompts.getD [] ++ msg ++ ['\n'])) s rest
  | .acctExpired _ :: _ => authError prompts { s with accountExpired := true }
  | .authErr _ :: _ => authError prompts s
  | .success :: _ =>
    if rootDenied then (.fatal, { s with loginmsg := s.loginmsg ++ prompts.getD [] })
    else (.asks ⟨[], []⟩, { s with loginmsg := s.loginmsg ++ prompts.getD [], pamDone := 1 })

/-- What `sshpam_respond` does with the responses of the client. -/
inductive Respond
  /-- It returns 0: the user is authenticated. -/
  | accepted
  /-- It returns 1: the answer has been sent to the PAM process. -/
  | sent (resp : Text)
  /-- It returns -1. -/
  | refused

/-- `sshpam_respond`. -/
def sshpamRespond (s : Pam) (resp : List Text) : Respond × Pam :=
  if s.pamDone = 1 then (.accepted, { s with authenticated := true })
  else if s.pamDone = 0 then
    match resp with
    | [r] => (.sent r, s)
    | _ => (.refused, s)
  else (.refused, s)

/-! ## The exchange -/

/-- `options.permit_root_login`. -/
inductive PermitRootLogin
  | yes
  | no
  | noPasswd
  | forcedOnly
  deriving DecidableEq

/-- The server and the context of a connection, and what `do_pam_account` would return. -/
structure Setting where
  server : Server
  permitRootLogin : PermitRootLogin
  authctxt : Authctxt
  pamAccount : Bool

/-- `pw->pw_uid == 0 && options.permit_root_login != PERMIT_YES`. -/
def Setting.rootDenied (S : Setting) : Bool :=
  decide (S.authctxt.pw.map Passwd.pwUid = some 0) && decide (S.permitRootLogin ≠ .yes)

/-- What the client sees. -/
inductive Visible
  | request (r : Request)
  /-- `SSH2_MSG_USERAUTH_SUCCESS`. -/
  | success
  /-- `SSH2_MSG_USERAUTH_FAILURE`. -/
  | failure
  /-- The connection is ended by `userauth_finish`. -/
  | disconnect (d : Disconnect)
  /-- The process ends in `sshpam_query`. -/
  | fatal
  deriving DecidableEq

/-- `userauth_finish` for a method that is not postponed, as the client sees it. -/
def finish (S : Setting) (authenticated : Int) (method : Text) : Visible :=
  match userauthFinish S.server (S.authctxt.leave false false) authenticated method S.pamAccount with
  | .ok authctxt => if authctxt.success then .success else .failure
  | .error d => .disconnect d

/-- The name of the method. -/
def keyboardInteractive : Text := "keyboard-interactive".toList

/-- A keyboard-interactive exchange, as far as so many queries go. After the answers `given`, the PAM process sends
the messages `thread given`; the client answers its `i`-th prompt with `answer i`, and a request without prompts
with no response. -/
def exchange (S : Setting) (thread : List Text → List PamMessage) (answer : Nat → Text) :
    Nat → List Text → Pam → Option (List Visible)
  | 0, _, _ => none
  | queries + 1, given, s =>
    match sshpamQuery S.rootDenied none s (thread given) with
    | (.fatal, _) => some [.fatal]
    | (.fails, _) => some [finish S 0 keyboardInteractive]
    | (.asks r, s) =>
      match sshpamRespond s (r.prompts.map fun _ => answer given.length) with
      | (.accepted, _) => some [.request r, finish S 1 keyboardInteractive]
      | (.refused, _) => some [.request r, finish S 0 keyboardInteractive]
      | (.sent resp, s) => (exchange S thread answer queries (given ++ [resp]) s).map (.request r :: ·)

/-! ## Conversations -/

/-- A message that only informs. -/
structure Note where
  isError : Bool
  msg : Text

/-- The message to `sshpam_query`. -/
def Note.message (n : Note) : PamMessage := if n.isError then .errorMsg n.msg else .textInfo n.msg

/-- A prompt, with what is said before it. -/
structure Round where
  notes : List Note
  msg : Text
  echo : Bool

/-- The messages of a round. -/
def Round.messages (r : Round) : List PamMessage :=
  r.notes.map Note.message ++ [if r.echo then .promptEchoOn r.msg else .promptEchoOff r.msg]

/-- What PAM comes to. -/
inductive Verdict
  | success
  | authErr
  | acctExpired
  deriving DecidableEq

/-- The message with the verdict; its text is that of `pam_strerror`. -/
def Verdict.message (strerror : Verdict → Text) : Verdict → PamMessage
  | .success => .success
  | .authErr => .authErr (strerror .authErr)
  | .acctExpired => .acctExpired (strerror .acctExpired)

/-- A conversation with PAM: its messages are fixed, and the verdict depends on the answers only. -/
structure Conversation where
  rounds : List Round
  /-- What is said after the last answer. -/
  closing : List Note
  verdict : List Text → Verdict
  strerror : Verdict → Text

/-- What the PAM process sends after so many answers. -/
def Conversation.thread (c : Conversation) (given : List Text) : List PamMessage :=
  match c.rounds[given.length]? with
  | some r => r.messages
  | none => c.closing.map Note.message ++ [(c.verdict given).message c.strerror]

/-- The answers of the client to all the prompts. -/
def Conversation.answers (c : Conversation) (answer : Nat → Text) : List Text :=
  (List.range c.rounds.length).map answer

/-! ## The password method -/

/-- `sshpam_auth_passwd`, given what `pam_authenticate` says of a password; `none` when the conversation function
cannot be set, which ends the process. -/
def sshpamAuthPasswd (setConv : Bool) (authenticate : Text → Bool) (password : Text) : Option Int :=
  if setConv then some (if authenticate password then 1 else 0) else none

/-- The password method: `sshpam_auth_passwd` and `userauth_finish`. -/
def passwordAttempt (S : Setting) (setConv : Bool) (authenticate : Text → Bool) (password : Text) : Visible :=
  match sshpamAuthPasswd setConv authenticate password with
  | some authenticated => finish S authenticated "password".toList
  | none => .fatal

/-! ## What is wanted -/

/-- A connection for root, who may not log in with a password; PAM is used. -/
structure Forbidden (S : Setting) : Prop where
  valid : S.authctxt.valid = true
  root : S.authctxt.pw.map Passwd.pwUid = some 0
  permit : S.permitRootLogin ≠ .yes
  usePam : S.server.usePam = true
  /-- `auth_root_allowed` refuses the password method to root unless `PermitRootLogin` is `yes`. -/
  refuses : S.permitRootLogin ≠ .yes → S.server.authRootAllowed "password".toList = false

/-- The client sees the same whatever it answers, in the exchange and with the password method. -/
def NoOracle (S : Setting) (c : Conversation) (setConv : Bool) (authenticate : Text → Bool) : Prop :=
  (∃ trace, ∀ answer, ∃ queries, exchange S c.thread answer queries [] .start = some trace) ∧
    ∀ p q, passwordAttempt S setConv authenticate p = passwordAttempt S setConv authenticate q

variable {S : Setting} {c : Conversation} {answer : Nat → Text} {setConv : Bool} {authenticate : Text → Bool}

/-! ## The messages of a conversation -/

/-- The messages accumulated by notes. -/
def accumulate (prompts : Option Text) (notes : List Note) : Option Text :=
  notes.foldl (fun prompts n => some (prompts.getD [] ++ n.msg ++ ['\n'])) prompts

/-- What the client is asked in a round. -/
def Round.request (r : Round) : Request := ⟨[], [((accumulate none r.notes).getD [] ++ r.msg, r.echo)]⟩

/-- Notes are accumulated, and the query goes on. -/
theorem sshpamQuery_notes (rootDenied : Bool) (prompts : Option Text) (s : Pam) (notes : List Note)
    (rest : List PamMessage) :
    sshpamQuery rootDenied prompts s (notes.map Note.message ++ rest) =
      sshpamQuery rootDenied (accumulate prompts notes) s rest := by
  induction notes generalizing prompts with
  | nil => rfl
  | cons n notes ih =>
    rw [List.map_cons, List.cons_append, accumulate, List.foldl_cons, ← accumulate, ← ih, Note.message]
    cases n.isError <;> rfl

/-- A round asks its prompt and leaves the state as it is. -/
theorem sshpamQuery_round (rootDenied : Bool) (s : Pam) (r : Round) :
    sshpamQuery rootDenied none s r.messages = (.asks r.request, s) := by
  rw [Round.messages, sshpamQuery_notes, Round.request]
  cases r.echo <;> rfl

/-- What the client sees when PAM refuses: the closing words, if any, and the reply. -/
def Conversation.refusal (c : Conversation) (S : Setting) : List Visible :=
  match accumulate none c.closing with
  | some (ch :: cs) => [.request ⟨ch :: cs, []⟩, finish S 0 keyboardInteractive]
  | _ => [finish S 0 keyboardInteractive]

/-- What the client sees at the end. -/
def Conversation.ending (c : Conversation) (S : Setting) : Verdict → List Visible
  | .success => [.fatal]
  | .authErr | .acctExpired => c.refusal S

/-- The last query of a conversation with a root that may not log in. -/
theorem exchange_last (h : S.rootDenied = true) {given : List Text} (hgiven : c.rounds.length ≤ given.length)
    (queries : Nat) :
    exchange S c.thread answer (queries + 1) given .start = some (c.ending S (c.verdict given)) := by
  have hthread : c.thread given = c.closing.map Note.message ++ [(c.verdict given).message c.strerror] := by
    rw [Conversation.thread, List.getElem?_eq_none hgiven]
  rw [exchange, hthread, sshpamQuery_notes, h]
  cases c.verdict given with
  | success => rfl
  | authErr =>
    rw [Conversation.ending, Conversation.refusal]
    rcases accumulate none c.closing with _ | _ | ⟨ch, cs⟩ <;> rfl
  | acctExpired =>
    rw [Conversation.ending, Conversation.refusal]
    rcases accumulate none c.closing with _ | _ | ⟨ch, cs⟩ <;> rfl

/-- The exchange from a round on. -/
theorem exchange_from (h : S.rootDenied = true) {left : Nat} {given : List Text}
    (hleft : given.length + left = c.rounds.length) :
    exchange S c.thread answer (left + 1) given .start =
      some (((c.rounds.drop given.length).map fun r => Visible.request r.request) ++
        c.ending S (c.verdict (given ++ (List.range' given.length left).map answer))) := by
  -- induction on the rounds that are left
  induction left generalizing given with
  | zero =>
    rw [exchange_last h (by omega), List.drop_eq_nil_of_le (by omega)]
    simp
  | succ left ih =>
    have hlt : given.length < c.rounds.length := by omega
    have hthread : c.thread given = (c.rounds[given.length]).messages := by
      rw [Conversation.thread, List.getElem?_eq_getElem hlt]
    rw [exchange, hthread, sshpamQuery_round]
    have hnext := @ih (given ++ [answer given.length]) (by rw [List.length_append, List.length_singleton]; omega)
    rw [List.length_append, List.length_singleton] at hnext
    change (exchange S c.thread answer (left + 1) (given ++ [answer given.length]) .start).map _ = _
    rw [hnext, Option.map_some, List.drop_eq_getElem_cons hlt, List.map_cons, List.cons_append, List.range'_succ,
      List.map_cons, List.append_assoc]
    rfl

/-- **The exchange with a root that may not log in**: the requests of the rounds, and what the verdict makes of it. -/
theorem exchange_eq (h : S.rootDenied = true) :
    exchange S c.thread answer (c.rounds.length + 1) [] .start =
      some ((c.rounds.map fun r => Visible.request r.request) ++ c.ending S (c.verdict (c.answers answer))) := by
  have hfrom := @exchange_from S c answer h c.rounds.length [] (Nat.zero_add _)
  rw [hfrom, Conversation.answers, List.range_eq_range']
  rfl

/-- An exchange has one trace only. -/
theorem exchange_unique {thread : List Text → List PamMessage} {n m : Nat} {given : List Text} {s : Pam}
    {t t' : List Visible} (h : exchange S thread answer n given s = some t)
    (h' : exchange S thread answer m given s = some t') : t = t' := by
  induction n generalizing m given s t t' with
  | zero => cases h
  | succ n ih =>
    cases m with
    | zero => cases h'
    | succ m =>
      rw [exchange] at h h'
      generalize sshpamQuery S.rootDenied none s (thread given) = q at h h'
      obtain ⟨r | _ | _, s'⟩ := q
      · dsimp only at h h'
        generalize sshpamRespond s' (r.prompts.map fun _ => answer given.length) = w at h h'
        obtain ⟨_ | resp | _, s''⟩ := w
        · exact Option.some.inj (h.symm.trans h')
        · obtain ⟨u, hu, rfl⟩ := Option.map_eq_some_iff.mp h
          obtain ⟨u', hu', rfl⟩ := Option.map_eq_some_iff.mp h'
          rw [ih hu hu']
        · exact Option.some.inj (h.symm.trans h')
      · exact Option.some.inj (h.symm.trans h')
      · exact Option.some.inj (h.symm.trans h')

/-- No way `userauth_finish` ends is the end of the process in `sshpam_query`. -/
theorem finish_ne_fatal (S : Setting) (authenticated : Int) (method : Text) :
    finish S authenticated method ≠ .fatal := by
  unfold finish
  split
  · split
    · exact Visible.noConfusion
    · exact Visible.noConfusion
  · exact Visible.noConfusion

/-- The end of the process is no refusal. -/
theorem refusal_ne_fatal (c : Conversation) (S : Setting) : c.refusal S ≠ [.fatal] := by
  unfold Conversation.refusal
  split
  · intro h
    cases h
  · intro h
    exact finish_ne_fatal S 0 keyboardInteractive (List.singleton_inj.mp h)

/-- A verdict that is no success ends in the refusal. -/
theorem ending_of_ne_success {v : Verdict} (h : v ≠ .success) : c.ending S v = c.refusal S := by
  cases v with
  | success => exact absurd rfl h
  | authErr => rfl
  | acctExpired => rfl

/-- Any list of answers can be given. -/
theorem exists_answers {given : List Text} (h : given.length = c.rounds.length) :
    ∃ answer, c.answers answer = given := by
  refine ⟨fun i => given.getD i [], ?_⟩
  rw [Conversation.answers, ← h]
  apply List.ext_getElem
  · simp
  · intro i h₁ h₂
    simp [h₂]

/-! ## The password method -/

/-- Root's success with a method that is refused to it is no success for `userauth_finish`. -/
theorem finish_eq_of_refused {method : Text} (hvalid : S.authctxt.valid = true)
    (hroot : S.authctxt.pw.map Passwd.pwUid = some 0) (hrefused : S.server.authRootAllowed method = false) :
    finish S 1 method = finish S 0 method := by
  have hsame : userauthFinish S.server (S.authctxt.leave false false) 1 method S.pamAccount =
      userauthFinish S.server (S.authctxt.leave false false) 0 method S.pamAccount := by
    unfold userauthFinish
    simp [Authctxt.leave, hvalid, hroot, hrefused]
  rw [finish, finish, hsame]

/-- **The password method tells nothing**, whatever PAM says of the passwords. -/
theorem passwordAttempt_eq (h : Forbidden S) (p q : Text) :
    passwordAttempt S setConv authenticate p = passwordAttempt S setConv authenticate q := by
  have hfinish := finish_eq_of_refused h.valid h.root (h.refuses h.permit)
  unfold passwordAttempt sshpamAuthPasswd
  cases setConv with
  | false => rfl
  | true =>
    cases authenticate p <;> cases authenticate q
    · rfl
    · exact hfinish.symm
    · exact hfinish
    · rfl

/-- **The client learns nothing exactly when all answers are accepted or none is.** -/
theorem noOracle_iff (h : Forbidden S) : NoOracle S c setConv authenticate ↔
    (∀ given, given.length = c.rounds.length → c.verdict given = .success) ∨
      ∀ given, given.length = c.rounds.length → c.verdict given ≠ .success := by
  have hdenied : S.rootDenied = true := by
    rw [Setting.rootDenied, decide_eq_true h.root, decide_eq_true h.permit]
    rfl
  constructor
  · rintro ⟨⟨trace, htrace⟩, -⟩
    -- the trace shows the ending of every list of answers
    have hending : ∀ given, given.length = c.rounds.length →
        trace = (c.rounds.map fun r => Visible.request r.request) ++ c.ending S (c.verdict given) := by
      intro given hgiven
      obtain ⟨answer, rfl⟩ := exists_answers hgiven
      obtain ⟨queries, hrun⟩ := htrace answer
      exact exchange_unique hrun (exchange_eq hdenied)
    by_cases hsome : ∃ given, given.length = c.rounds.length ∧ c.verdict given = .success
    · obtain ⟨given, hgiven, hsuccess⟩ := hsome
      left
      intro other hother
      by_contra hne
      have hsame := (hending given hgiven).symm.trans (hending other hother)
      rw [hsuccess, ending_of_ne_success hne] at hsame
      exact refusal_ne_fatal c S (List.append_cancel_left hsame).symm
    · exact .inr fun given hgiven hsuccess => hsome ⟨given, hgiven, hsuccess⟩
  · intro hall
    refine ⟨?_, passwordAttempt_eq h⟩
    have hlen : ∀ answer, (c.answers answer).length = c.rounds.length := fun answer => by
      rw [Conversation.answers, List.length_map, List.length_range]
    rcases hall with hall | hall
    · refine ⟨(c.rounds.map fun r => Visible.request r.request) ++ [.fatal], fun answer =>
        ⟨c.rounds.length + 1, (exchange_eq hdenied).trans ?_⟩⟩
      rw [hall _ (hlen answer)]
      rfl
    · refine ⟨(c.rounds.map fun r => Visible.request r.request) ++ c.refusal S, fun answer =>
        ⟨c.rounds.length + 1, (exchange_eq hdenied).trans ?_⟩⟩
      rw [ending_of_ne_success (hall _ (hlen answer))]

/-- Root's connection to a server with `PermitRootLogin no`. -/
def rootConnection : Setting where
  server := {
    getpwnamallow := fun _ => some ⟨0⟩
    fakepw := ⟨65534⟩
    authRootAllowed := fun _ => false
    usePam := true
    maxAuthtries := 6 }
  permitRootLogin := .no
  authctxt := ⟨false, true, true, 1, 0, false, some "root".toList, some sshConnection, some ⟨0⟩, none, none⟩
  pamAccount := true

/-- PAM asks for the password and accepts one. -/
def unixConversation : Conversation where
  rounds := [⟨[], "Password: ".toList, false⟩]
  closing := []
  verdict given := if given = ["toor".toList] then .success else .authErr
  strerror _ := "Authentication failure".toList

/-- The connection ends with the right password, and a failure is replied to a wrong one. -/
theorem rightPassword_disconnects :
    exchange rootConnection unixConversation.thread (fun _ => "toor".toList) 2 [] .start =
        some [.request ⟨[], [("Password: ".toList, false)]⟩, .fatal] ∧
      exchange rootConnection unixConversation.thread (fun _ => "guess".toList) 2 [] .start =
        some [.request ⟨[], [("Password: ".toList, false)]⟩, .failure] ∧
      ¬ NoOracle rootConnection unixConversation true fun p => decide (p = "toor".toList) := by
  have hright : exchange rootConnection unixConversation.thread (fun _ => "toor".toList) 2 [] .start =
      some [.request ⟨[], [("Password: ".toList, false)]⟩, .fatal] := by decide
  have hwrong : exchange rootConnection unixConversation.thread (fun _ => "guess".toList) 2 [] .start =
      some [.request ⟨[], [("Password: ".toList, false)]⟩, .failure] := by decide
  refine ⟨hright, hwrong, ?_⟩
  rintro ⟨⟨trace, htrace⟩, -⟩
  obtain ⟨n, hn⟩ := htrace fun _ => "toor".toList
  obtain ⟨m, hm⟩ := htrace fun _ => "guess".toList
  have hsame := (exchange_unique hright hn).trans (exchange_unique hwrong hm).symm
  cases hsame

/-- Where PAM accepts no password of root, the client learns nothing. -/
theorem noOracle_iff_locked :
    NoOracle rootConnection { unixConversation with verdict := fun _ => .authErr } true fun _ => false :=
  (noOracle_iff ⟨rfl, rfl, by decide, rfl, fun _ => rfl⟩).mpr (.inr fun _ _ => Verdict.noConfusion)

end GexCloud.Ssh
