import GexCloud.Support.Runs
import GexCloud.Support.Texts

/-! # `auth2.c`: user authentication of the modified SSH server

The dispatcher of the SSH 2 user authentication. The first request fixes the user, the service and
the account for the whole connection; every request then tries one method, and `userauth_finish`
decides what its outcome means. The server is modified in one place: a user without an account is
marked valid like any other and stands for the placeholder of `fakepw`, since the account is made
when the login is granted.

* **`dispatch`** — one message: a request, or the answer that finishes a postponed method.
* `Inv` — what the context holds after any number of messages.
* **`success_admission`** — what `success` becoming 1 says about the connection.
* **`dispatch_ne_internalError`** — the guard against invalid users is never reached.

The passwd database, PAM and the methods lie outside: what they answer comes with each message. -/

namespace GexCloud.Ssh

open Texts Runs

/-- What the dispatcher reads of a `struct passwd`. -/
structure Passwd where
  pwUid : Nat
  deriving DecidableEq

/-- An entry of `authmethods`. -/
structure Authmethod where
  name : Text
  enabled : Bool
  deriving DecidableEq

/-- The server: its options and what it calls outside. -/
structure Server where
  getpwnamallow : Text → Option Passwd
  fakepw : Passwd
  authRootAllowed : Text → Bool
  usePam : Bool
  maxAuthtries : Int

/-- What the outside answers while one message is handled. -/
structure Attempt where
  /-- The table of methods as it stands. -/
  authmethods : List Authmethod
  /-- What the method returns. -/
  authenticated : Int
  /-- What the method leaves in `authctxt->postponed`. -/
  postponed : Bool
  /-- What the method leaves in `authctxt->server_caused_failure`. -/
  serverCausedFailure : Bool
  /-- What `do_pam_account` returns. -/
  pamAccount : Bool

/-- `struct Authctxt`. -/
structure Authctxt where
  success : Bool
  postponed : Bool
  valid : Bool
  attempt : Nat
  failures : Int
  serverCausedFailure : Bool
  user : Option Text
  service : Option Text
  pw : Option Passwd
  style : Option Text
  role : Option Text
  deriving DecidableEq

/-- The context of a new connection. -/
def Authctxt.new : Authctxt :=
  ⟨false, false, false, 0, 0, false, none, none, none, none, none⟩

/-- The ways the server ends a connection. -/
inductive Disconnect
  /-- `INTERNAL ERROR: authenticated invalid user`. -/
  | internalError
  /-- `Access denied for user … by PAM account configuration`. -/
  | pamAccount
  /-- `Change of username or service not allowed`. -/
  | changeOfUser
  /-- `AUTH_FAIL_MSG`. -/
  | tooManyFailures
  deriving DecidableEq

/-- The user, the style and the role in the user name of a request, `user:style/role`. -/
def splitUser (user : Text) : Text × Option Text × Option Text :=
  let (user, role) := cut '/' user
  match cut ':' user with
  | (user, some style) => (user, some style, role)
  | (_, none) =>
    match role with
    | none => (user, none, none)
    | some role => (user, (cut ':' role).2, some (cut ':' role).1)

/-- The only service there is to log in for. -/
def sshConnection : Text := "ssh-connection".toList

/-- `authmethod_lookup`. -/
def authmethodLookup (authmethods : List Authmethod) (name : Text) : Option Authmethod :=
  authmethods.find? fun m => m.enabled && m.name == name

/-- The part of `input_userauth_request` that sets up the context in the first attempt and refuses
another user or service later. -/
def setupAuth (sv : Server) (authctxt : Authctxt) (user service : Text)
    (style role : Option Text) : Except Disconnect Authctxt :=
  if authctxt.attempt = 0 then
    let authctxt := { authctxt with
      attempt := 1, user := some user, service := some service, style := style, role := role }
    match sv.getpwnamallow user with
    | some pw =>
      if service = sshConnection then .ok { authctxt with valid := true, pw := some pw }
      else .ok { authctxt with valid := true, pw := some sv.fakepw }
    -- the modification: a user without an account is valid
    | none => .ok { authctxt with valid := true, pw := some sv.fakepw }
  else if some user ≠ authctxt.user ∨ some service ≠ authctxt.service then .error .changeOfUser
  else .ok { authctxt with attempt := authctxt.attempt + 1 }

/-- `userauth_finish`. -/
def userauthFinish (sv : Server) (authctxt : Authctxt) (authenticated : Int) (method : Text)
    (pamAccount : Bool) : Except Disconnect Authctxt :=
  if !authctxt.valid && authenticated != 0 then .error .internalError
  else
    let authenticated :=
      if authenticated ≠ 0 ∧ authctxt.pw.map Passwd.pwUid = some 0 ∧ sv.authRootAllowed method = false
      then 0 else authenticated
    if sv.usePam && authenticated != 0 && !pamAccount then .error .pamAccount
    else if authctxt.postponed then .ok authctxt
    else if authenticated = 1 then .ok { authctxt with success := true }
    else
      let failures :=
        if !authctxt.serverCausedFailure && (decide (1 < authctxt.attempt) || method != "none".toList)
        then authctxt.failures + 1 else authctxt.failures
      if sv.maxAuthtries ≤ failures then .error .tooManyFailures
      else .ok { authctxt with failures := failures }

/-- The context with the two flags a method can leave. -/
def Authctxt.leave (authctxt : Authctxt) (postponed serverCausedFailure : Bool) : Authctxt :=
  { authctxt with postponed := postponed, serverCausedFailure := serverCausedFailure }

/-- `input_userauth_request`. -/
def inputUserauthRequest (sv : Server) (authctxt : Authctxt) (user service method : Text)
    (a : Attempt) : Except Disconnect Authctxt := do
  let (user, style, role) := splitUser user
  let authctxt ← setupAuth sv authctxt user service style role
  if (authmethodLookup a.authmethods method).isSome ∧ authctxt.failures < sv.maxAuthtries then
    userauthFinish sv (authctxt.leave a.postponed a.serverCausedFailure) a.authenticated method
      a.pamAccount
  else userauthFinish sv (authctxt.leave false false) 0 method a.pamAccount

/-- A message of the client, with what the outside answers meanwhile. -/
inductive Event
  /-- `SSH2_MSG_USERAUTH_REQUEST`. -/
  | request (user service method : Text) (a : Attempt)
  /-- The last answer to a postponed method, which calls `userauth_finish` from its own handler. -/
  | answer (method : Text) (a : Attempt)

/-- The method that a message is about. -/
def Event.method : Event → Text
  | .request _ _ method _ => method
  | .answer method _ => method

/-- What the outside answers to a message. -/
def Event.attempt : Event → Attempt
  | .request _ _ _ a => a
  | .answer _ a => a

/-- **One message.** After the success further messages are ignored, and an answer is only accepted
while a method is postponed. -/
def dispatch (sv : Server) (authctxt : Authctxt) : Event → Except Disconnect Authctxt
  | .request user service method a =>
    if authctxt.success then .ok authctxt
    else inputUserauthRequest sv authctxt user service method a
  | .answer method a =>
    if authctxt.success || !authctxt.postponed then .ok authctxt
    else userauthFinish sv (authctxt.leave a.postponed a.serverCausedFailure) a.authenticated method
      a.pamAccount

/-- The messages that do not end the connection. -/
def Handles (sv : Server) : Authctxt → Event → Authctxt → Prop :=
  fun s e t => dispatch sv s e = .ok t

/-! ## What one message does -/

/-- The account a connection stands for, by the user and the service of its first request. -/
def account (sv : Server) (user service : Text) : Passwd :=
  if service = sshConnection then (sv.getpwnamallow user).getD sv.fakepw else sv.fakepw

/-- The user and the service of the first request. -/
def firstRequest (events : List Event) : Option (Text × Text) :=
  events.findSome? fun
    | .request user service _ _ => some ((splitUser user).1, service)
    | .answer _ _ => none

/-- Once there is a first request, it remains the first. -/
theorem firstRequest_append {events : List Event} {e : Event} {first : Text × Text}
    (h : firstRequest events = some first) : firstRequest (events ++ [e]) = some first := by
  unfold firstRequest at *
  rw [List.findSome?_append, h]
  rfl

/-- Setting up either fixes the account or finds the one fixed before. -/
theorem setupAuth_eq_ok {sv : Server} {s t : Authctxt} {user service : Text}
    {style role : Option Text} (h : setupAuth sv s user service style role = .ok t) :
    (s.attempt = 0 ∧ t = { s with
      attempt := 1, user := some user, service := some service, style := style, role := role,
      valid := true, pw := some (account sv user service) }) ∨
    (s.attempt ≠ 0 ∧ s.user = some user ∧ s.service = some service ∧
      t = { s with attempt := s.attempt + 1 }) := by
  unfold setupAuth at h
  split at h
  · rename_i hattempt
    refine .inl ⟨hattempt, ?_⟩
    cases hpw : sv.getpwnamallow user with
    | none =>
      have haccount : account sv user service = sv.fakepw := by simp [account, hpw]
      rw [haccount]
      simpa [hpw] using h.symm
    | some pw =>
      by_cases hservice : service = sshConnection
      · have haccount : account sv user service = pw := by rw [account, if_pos hservice, hpw]; rfl
        rw [haccount]
        simp only [hpw, if_pos hservice] at h
        exact (Except.ok.inj h).symm
      · have haccount : account sv user service = sv.fakepw := by rw [account, if_neg hservice]
        rw [haccount]
        simp only [hpw, if_neg hservice] at h
        exact (Except.ok.inj h).symm
  · rename_i hattempt
    split at h
    · cases h
    · rename_i hsame
      obtain ⟨huser, hservice⟩ := not_or.1 hsame
      exact .inr ⟨hattempt, (not_not.1 huser).symm, (not_not.1 hservice).symm,
        (Except.ok.inj h).symm⟩

/-- A finished attempt leaves everything but the success and the failures. It succeeds only with a
method that returned 1 and was not postponed, under a valid user, with PAM and for root the option
consenting. -/
theorem userauthFinish_eq_ok {sv : Server} {s t : Authctxt} {authenticated : Int} {method : Text}
    {pamAccount : Bool} (h : userauthFinish sv s authenticated method pamAccount = .ok t) :
    (∃ failures, t = { s with failures := failures }) ∨
    (t = { s with success := true } ∧ authenticated = 1 ∧ s.valid = true ∧ s.postponed = false ∧
      (sv.usePam = true → pamAccount = true) ∧
      (s.pw.map Passwd.pwUid = some 0 → sv.authRootAllowed method = true)) := by
  unfold userauthFinish at h
  split at h
  · cases h
  rename_i hvalid
  extract_lets authenticated' failures at h
  split at h
  · cases h
  rename_i hpam
  split at h
  · exact .inl ⟨s.failures, (Except.ok.inj h).symm⟩
  rename_i hpostponed
  split at h
  · rename_i hone
    right
    -- had root been refused, the attempt would not count as 1
    have hroot : ¬(authenticated ≠ 0 ∧ s.pw.map Passwd.pwUid = some 0 ∧
        sv.authRootAllowed method = false) := by
      intro hroot
      simp only [authenticated', if_pos hroot] at hone
      omega
    have heq : authenticated' = authenticated := if_neg hroot
    rw [heq] at hone hpam
    subst hone
    refine ⟨(Except.ok.inj h).symm, rfl, by simpa using hvalid, by simpa using hpostponed, ?_, ?_⟩
    · intro husepam
      simpa [husepam] using hpam
    · intro huid
      by_contra hallowed
      exact hroot ⟨by omega, huid, by simpa using hallowed⟩
  · split at h
    · cases h
    · exact .inl ⟨failures, (Except.ok.inj h).symm⟩

/-- Only an invalid user reaches the guard against them. -/
theorem userauthFinish_ne_internalError {sv : Server} {s : Authctxt} {authenticated : Int}
    {method : Text} {pamAccount : Bool} (h : s.valid = true) :
    userauthFinish sv s authenticated method pamAccount ≠ .error .internalError := by
  have hguard : (!s.valid && authenticated != 0) = false := by simp [h]
  intro hfinish
  unfold userauthFinish at hfinish
  rw [hguard, if_neg Bool.false_ne_true] at hfinish
  extract_lets at hfinish
  split at hfinish
  · cases hfinish
  split at hfinish
  · cases hfinish
  split at hfinish
  · cases hfinish
  split at hfinish <;> cases hfinish

/-! ## The invariant -/

/-- A context bound to a user, a service and their account. -/
structure Bound (sv : Server) (user service : Text) (s : Authctxt) : Prop where
  attempt : s.attempt ≠ 0
  valid : s.valid = true
  user_eq : s.user = some user
  service_eq : s.service = some service
  pw_eq : s.pw = some (account sv user service)

/-- **The context after some messages**: untouched before the first request, and afterwards bound to
what that request named. -/
structure Inv (sv : Server) (events : List Event) (s : Authctxt) : Prop where
  fresh : s.attempt = 0 → s.success = false ∧ s.postponed = false ∧ firstRequest events = none
  bound : s.attempt ≠ 0 → ∃ user service, firstRequest events = some (user, service) ∧
    Bound sv user service s

/-- **Admission**: what a message must be for `success` to become 1 on a connection whose first
request was for `user` and `service`. -/
structure Admission (sv : Server) (user service : Text) (e : Event) : Prop where
  /-- The method returned 1. -/
  authenticated : e.attempt.authenticated = 1
  /-- PAM, where it is used, accepted the account. -/
  pam : sv.usePam = true → e.attempt.pamAccount = true
  /-- The account of root is only admitted by a method allowed for root. -/
  root : service = sshConnection → ∀ pw, sv.getpwnamallow user = some pw → pw.pwUid = 0 →
    sv.authRootAllowed e.method = true
  /-- A request is for the same user and service, by a method that is enabled. -/
  request : ∀ name service' method a, e = .request name service' method a →
    (splitUser name).1 = user ∧ service' = service ∧
      (authmethodLookup a.authmethods method).isSome = true

variable {sv : Server} {events : List Event} {s t : Authctxt} {e : Event} {user service : Text}

/-- A new context before any message. -/
theorem Inv.start : Inv sv [] Authctxt.new :=
  ⟨fun _ => ⟨rfl, rfl, rfl⟩, fun h => absurd rfl h⟩

/-- A message without a request in it leaves the first request. -/
theorem firstRequest_answer {method : Text} {a : Attempt} :
    firstRequest (events ++ [.answer method a]) = firstRequest events := by
  unfold firstRequest
  rw [List.findSome?_append]
  cases events.findSome? _ <;> rfl

/-- The first request is the first request. -/
theorem firstRequest_request {name method : Text} {a : Attempt} (h : firstRequest events = none) :
    firstRequest (events ++ [.request name service method a]) =
      some ((splitUser name).1, service) := by
  unfold firstRequest at *
  rw [List.findSome?_append, h]
  rfl

/-- Root's account, for the service there is, is the one the connection stands for. -/
theorem Bound.root (h : Bound sv user service s) {method : Text}
    (hfinish : s.pw.map Passwd.pwUid = some 0 → sv.authRootAllowed method = true)
    (hservice : service = sshConnection) (pw : Passwd) (hpw : sv.getpwnamallow user = some pw)
    (huid : pw.pwUid = 0) : sv.authRootAllowed method = true := by
  refine hfinish ?_
  have haccount : account sv user service = pw := by
    rw [account, if_pos hservice, hpw]
    rfl
  rw [h.pw_eq, haccount, Option.map_some, huid]

/-- Finishing an attempt keeps what the context is bound to. -/
theorem Bound.finish (h : Bound sv user service s) {authenticated : Int} {method : Text}
    {pamAccount : Bool} (hfinish : userauthFinish sv s authenticated method pamAccount = .ok t) :
    Bound sv user service t := by
  obtain ⟨failures, rfl⟩ | ⟨rfl, -⟩ := userauthFinish_eq_ok hfinish
  · exact ⟨h.attempt, h.valid, h.user_eq, h.service_eq, h.pw_eq⟩
  · exact ⟨h.attempt, h.valid, h.user_eq, h.service_eq, h.pw_eq⟩

/-- The flags a method leaves do not touch what the context is bound to. -/
theorem Bound.leave (h : Bound sv user service s) (postponed serverCausedFailure : Bool) :
    Bound sv user service (s.leave postponed serverCausedFailure) :=
  ⟨h.attempt, h.valid, h.user_eq, h.service_eq, h.pw_eq⟩

/-- Setting up binds the context to the first request and finds it so later. -/
theorem Inv.setup (h : Inv sv events s) {name : Text} (method : Text) (a : Attempt)
    {style role : Option Text}
    (hsetup : setupAuth sv s (splitUser name).1 service style role = .ok t) :
    firstRequest (events ++ [.request name service method a]) =
        some ((splitUser name).1, service) ∧
      Bound sv (splitUser name).1 service t ∧ t.success = s.success := by
  obtain ⟨hattempt, rfl⟩ | ⟨hattempt, huser, hservice, rfl⟩ := setupAuth_eq_ok hsetup
  · exact ⟨firstRequest_request (h.fresh hattempt).2.2, ⟨by simp, rfl, rfl, rfl, rfl⟩, rfl⟩
  · obtain ⟨user', service', hfirst, hbound⟩ := h.bound hattempt
    obtain rfl : user' = (splitUser name).1 :=
      Option.some.inj (hbound.user_eq.symm.trans huser)
    obtain rfl : service' = service := Option.some.inj (hbound.service_eq.symm.trans hservice)
    exact ⟨firstRequest_append hfirst,
      ⟨by simp, hbound.valid, hbound.user_eq, hbound.service_eq, hbound.pw_eq⟩, rfl⟩

/-- A bound context meets the invariant. -/
theorem Bound.inv (h : Bound sv user service s) (hfirst : firstRequest events = some (user, service)) :
    Inv sv events s :=
  ⟨fun hattempt => absurd hattempt h.attempt, fun _ => ⟨user, service, hfirst, h⟩⟩

/-- A message that is ignored keeps the invariant once there has been a request. -/
theorem Inv.ignore (h : Inv sv events s) (hattempt : s.attempt ≠ 0) : Inv sv (events ++ [e]) s := by
  obtain ⟨user, service, hfirst, hbound⟩ := h.bound hattempt
  exact hbound.inv (firstRequest_append hfirst)

/-- What finishing the attempt of a message gives on a bound context. -/
theorem Bound.admission (h : Bound sv user service s)
    (hfinish : userauthFinish sv s e.attempt.authenticated e.method e.attempt.pamAccount = .ok t)
    (hsuccess : s.success = false) (hbecomes : t.success = true)
    (hrequest : ∀ name service' method a, e = .request name service' method a →
      (splitUser name).1 = user ∧ service' = service ∧
        (authmethodLookup a.authmethods method).isSome = true) : Admission sv user service e := by
  obtain ⟨failures, rfl⟩ | ⟨-, hone, -, -, hpam, hroot⟩ := userauthFinish_eq_ok hfinish
  · exact absurd (hsuccess.symm.trans hbecomes) Bool.false_ne_true
  · exact ⟨hone, hpam, h.root hroot, hrequest⟩

/-- An attempt that did not authenticate leaves the success as it was. -/
theorem userauthFinish_zero {method : Text} {pamAccount : Bool}
    (h : userauthFinish sv s 0 method pamAccount = .ok t) : t.success = s.success := by
  obtain ⟨failures, rfl⟩ | ⟨-, hone, -⟩ := userauthFinish_eq_ok h
  · rfl
  · omega

/-- An answer is only handled while a method is postponed, after some request. -/
theorem Inv.attempt_ne_zero (h : Inv sv events s) (hstarted : s.success = true ∨ s.postponed = true) :
    s.attempt ≠ 0 := by
  intro hzero
  obtain ⟨hsuccess, hpostponed, -⟩ := h.fresh hzero
  rw [hsuccess, hpostponed] at hstarted
  simp at hstarted

/-- **One message** keeps the invariant, and `success` becomes 1 only by an admission. -/
theorem Inv.dispatch (h : Inv sv events s) (hstep : dispatch sv s e = .ok t) :
    Inv sv (events ++ [e]) t ∧ (s.success = false → t.success = true → ∃ user service,
      firstRequest (events ++ [e]) = some (user, service) ∧ Admission sv user service e) := by
  cases e with
  | request name service method a =>
    by_cases hsuccess : s.success = true
    · rw [Ssh.dispatch, if_pos hsuccess] at hstep
      obtain rfl := Except.ok.inj hstep
      exact ⟨h.ignore (h.attempt_ne_zero (.inl hsuccess)), fun hfalse => by simp [hsuccess] at hfalse⟩
    rw [Ssh.dispatch, if_neg hsuccess, inputUserauthRequest, bind_eq_ok_iff] at hstep
    obtain ⟨r, hsetup, hfinish⟩ := hstep
    obtain ⟨hfirst, hbound, hsame⟩ := h.setup method a hsetup
    split at hfinish
    · rename_i htry
      have hleft := hbound.leave a.postponed a.serverCausedFailure
      refine ⟨(hleft.finish hfinish).inv hfirst, fun hfalse hbecomes => ⟨_, _, hfirst, ?_⟩⟩
      refine hleft.admission (e := .request name service method a) hfinish (hsame.trans hfalse) hbecomes ?_
      rintro _ _ _ _ ⟨⟩
      exact ⟨rfl, rfl, htry.1⟩
    · refine ⟨((hbound.leave false false).finish hfinish).inv hfirst, fun hfalse hbecomes => ?_⟩
      have hunchanged := userauthFinish_zero hfinish
      rw [hbecomes] at hunchanged
      exact absurd (hunchanged.trans (hsame.trans hfalse)).symm Bool.false_ne_true
  | answer method a =>
    by_cases hignored : (s.success || !s.postponed) = true
    · rw [Ssh.dispatch, if_pos hignored] at hstep
      obtain rfl := Except.ok.inj hstep
      refine ⟨⟨fun hzero => ?_, fun hattempt => ?_⟩, fun hfalse hbecomes => ?_⟩
      · rw [firstRequest_answer]
        exact h.fresh hzero
      · rw [firstRequest_answer]
        exact h.bound hattempt
      · exact absurd (hfalse.symm.trans hbecomes) Bool.false_ne_true
    · rw [Ssh.dispatch, if_neg hignored] at hstep
      have hpostponed : s.postponed = true := by
        by_contra hnot
        simp [hnot] at hignored
      obtain ⟨user, service, hfirst, hbound⟩ := h.bound (h.attempt_ne_zero (.inr hpostponed))
      have hleft := hbound.leave a.postponed a.serverCausedFailure
      have hfirst' : firstRequest (events ++ [.answer method a]) = some (user, service) :=
        firstRequest_append hfirst
      refine ⟨(hleft.finish hstep).inv hfirst', fun hfalse hbecomes => ⟨user, service, hfirst', ?_⟩⟩
      refine hleft.admission (e := .answer method a) hstep hfalse hbecomes ?_
      rintro _ _ _ _ ⟨⟩

/-- Every run of messages from a new connection keeps the invariant. -/
theorem Inv.of_run (h : Run (Handles sv) Authctxt.new events s) : Inv sv events s := by
  have := h.invariant_trace (fun past s => Inv sv past s)
    (fun past s e t hinv hstep => (hinv.dispatch hstep).1) Inv.start
  simpa using this

/-- **`success` becomes 1 only by an admission**: after every sequence of messages, whatever the
passwd database, the methods and PAM answer. -/
theorem success_admission (sv : Server) (events : List Event) (s t : Authctxt) (e : Event)
    (hrun : Run (Handles sv) Authctxt.new events s) (hstep : dispatch sv s e = .ok t)
    (hbefore : s.success = false) (hbecomes : t.success = true) :
    ∃ user service, firstRequest (events ++ [e]) = some (user, service) ∧
      Admission sv user service e :=
  ((Inv.of_run hrun).dispatch hstep).2 hbefore hbecomes

/-- Setting up only ever refuses a change of the user or the service. -/
theorem setupAuth_eq_error {style role : Option Text} {d : Disconnect}
    (h : setupAuth sv s user service style role = .error d) : d = .changeOfUser := by
  unfold setupAuth at h
  split at h
  · cases hpw : sv.getpwnamallow user with
    | none => simp [hpw] at h
    | some pw =>
      simp only [hpw] at h
      split at h <;> cases h
  · split at h <;> cases h
    rfl

/-- **No user is invalid**: the guard of `userauth_finish` against an authenticated invalid user is
never reached. -/
theorem dispatch_ne_internalError (hrun : Run (Handles sv) Authctxt.new events s) (e : Event) :
    dispatch sv s e ≠ .error .internalError := by
  have hinv := Inv.of_run hrun
  intro hstep
  cases e with
  | request name service method a =>
    by_cases hsuccess : s.success = true
    · rw [dispatch, if_pos hsuccess] at hstep
      cases hstep
    rw [dispatch, if_neg hsuccess, inputUserauthRequest] at hstep
    cases hsetup : setupAuth sv s (splitUser name).1 service (splitUser name).2.1
        (splitUser name).2.2 with
    | error d =>
      obtain rfl := setupAuth_eq_error hsetup
      simp [hsetup, bind, Except.bind] at hstep
    | ok r =>
      obtain ⟨-, hbound, -⟩ := hinv.setup method a hsetup
      simp only [hsetup, bind, Except.bind] at hstep
      split at hstep
      · exact userauthFinish_ne_internalError (hbound.leave _ _).valid hstep
      · exact userauthFinish_ne_internalError (hbound.leave _ _).valid hstep
  | answer method a =>
    by_cases hignored : (s.success || !s.postponed) = true
    · rw [dispatch, if_pos hignored] at hstep
      cases hstep
    rw [dispatch, if_neg hignored] at hstep
    have hpostponed : s.postponed = true := by
      by_contra hnot
      simp [hnot] at hignored
    obtain ⟨user, service, -, hbound⟩ := hinv.bound (hinv.attempt_ne_zero (.inr hpostponed))
    exact userauthFinish_ne_internalError (hbound.leave _ _).valid hstep

/-- A server without accounts, whose password method accepts everyone. -/
def openServer : Server :=
  ⟨fun _ => none, ⟨65534⟩, fun _ => false, false, 6⟩

/-- A request of `guest` for the service there is, which the password method accepts. -/
def guestRequest : Event :=
  .request "guest".toList sshConnection "password".toList
    ⟨[⟨"password".toList, true⟩], 1, false, false, true⟩

/-- The request with which a client asks for the methods there are. -/
def noneRequest : Event :=
  .request "guest".toList sshConnection "none".toList ⟨[⟨"password".toList, true⟩], 0, false, false, true⟩

/-- The context after that request, which is no failure. -/
def guestContext : Authctxt :=
  { Authctxt.new with
    valid := true, attempt := 1, user := some "guest".toList, service := some sshConnection, pw := some ⟨65534⟩ }

/-- The second request of `guest` is an admission. -/
theorem success_admission_guest :
    ∃ user service, firstRequest [noneRequest, guestRequest] = some (user, service) ∧
      Admission openServer user service guestRequest :=
  success_admission openServer [noneRequest] guestContext { guestContext with success := true, attempt := 2 }
    guestRequest (.cons rfl (.nil _)) rfl rfl rfl

/-- **A user without an account is let in**: `guest` has no entry in the passwd database, and
`success` becomes 1. -/
theorem success_without_entry :
    ¬∀ (sv : Server) (events : List Event) (s t : Authctxt) (e : Event), sv.fakepw.pwUid ≠ 0 →
      Run (Handles sv) Authctxt.new events s → dispatch sv s e = .ok t → s.success = false →
      t.success = true → ∃ user, firstRequest (events ++ [e]) = some (user, sshConnection) ∧
        ∃ pw, sv.getpwnamallow user = some pw ∧
          (pw.pwUid = 0 → sv.authRootAllowed e.method = true) := by
  intro h
  obtain ⟨user, -, pw, hpw, -⟩ := h openServer [] Authctxt.new
    { Authctxt.new with
      success := true, valid := true, attempt := 1, user := some "guest".toList,
      service := some sshConnection, pw := some ⟨65534⟩ }
    guestRequest (by decide) (.nil _) (by decide) rfl rfl
  cases hpw

end GexCloud.Ssh
