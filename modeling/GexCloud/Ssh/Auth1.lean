import GexCloud.Ssh.Auth2
import GexCloud.Support.Decimal

/-! # `auth1.c`: user authentication of the older protocol

The user is named once, and then the server reads packets in a loop until one of them authenticates the user. A packet
of the type `SSH_CMSG_AUTH_TIS` asks for a challenge, for which resources are allocated, and is answered by another
packet. The server is modified as in `auth2.c`: a user without an account is valid.

* `doAuthentication`, `doAuthloop`, `readPacket` — the functions, on the packets that are read.
* **`returned_iff`** — after which packets the user is in.
* **`challenges_released`** — a challenge is released before there is another one, and before the loop ends.
* **`protocols_agree`** — the loop and the dispatcher of `auth2.c` let in and refuse the same users.

Packets are well formed. What PAM and the methods answer comes with each packet. -/

namespace GexCloud.Ssh

open Texts Runs

/-! ## The table of the methods -/

/-- The type of a packet. -/
inductive PacketType
  /-- `SSH_CMSG_AUTH_PASSWORD`. -/
  | password
  /-- `SSH_CMSG_AUTH_RSA`. -/
  | rsa
  /-- `SSH_CMSG_AUTH_RHOSTS_RSA`. -/
  | rhostsRsa
  /-- `SSH_CMSG_AUTH_TIS`. -/
  | tis
  /-- `SSH_CMSG_AUTH_TIS_RESPONSE`. -/
  | tisResponse
  /-- Another number. -/
  | other (type : Nat)
  deriving DecidableEq

/-- The options of the server for this protocol. -/
structure Options where
  permitEmptyPasswd : Bool
  passwordAuthentication : Bool
  rsaAuthentication : Bool
  rhostsRsaAuthentication : Bool
  challengeResponseAuthentication : Bool

/-- `struct AuthMethod1`. -/
structure AuthMethod1 where
  type : PacketType
  name : Text
  enabled : Options → Bool

/-- `auth1_methods`. -/
def auth1Methods : List AuthMethod1 :=
  [⟨.password, "password".toList, Options.passwordAuthentication⟩,
    ⟨.rsa, "rsa".toList, Options.rsaAuthentication⟩,
    ⟨.rhostsRsa, "rhosts-rsa".toList, Options.rhostsRsaAuthentication⟩,
    ⟨.tis, "challenge-response".toList, Options.challengeResponseAuthentication⟩,
    ⟨.tisResponse, "challenge-response".toList, Options.challengeResponseAuthentication⟩]

/-- `lookup_authmethod1`. -/
def lookupAuthmethod1 (type : PacketType) : Option AuthMethod1 := auth1Methods.find? fun a => a.type = type

/-- `get_authname`. -/
def getAuthname (type : PacketType) : Text :=
  match lookupAuthmethod1 type with
  | some a => a.name
  | none =>
    match type with
    | .other n => "bad-auth-msg-".toList ++ decimal n
    | _ => []  -- the other types have entries

/-! ## The loop -/

/-- A packet, with what is answered while it is handled. -/
structure Packet where
  type : PacketType
  /-- What `auth_password`, `auth_rsa`, `auth_rhosts_rsa` or `verify_response` returns. -/
  result : Int
  /-- Whether `get_challenge` returns a challenge. -/
  challenge : Bool
  /-- What `do_pam_account` returns. -/
  pamAccount : Bool

/-- What the loop calls, as far as it has to do with challenges and the log. -/
inductive Call
  | getChallenge (challenge : Bool)
  | verifyResponse
  | abandonChallengeResponse
  | authLog (authenticated : Bool) (method : Text)
  deriving DecidableEq

/-- Where the loop is. -/
inductive LoopPhase
  | reading
  | returned
  | disconnected (d : Disconnect)
  deriving DecidableEq

/-- The loop: the context, `type`, and what has been called. -/
structure Authloop where
  authctxt : Authctxt
  type : Option PacketType
  calls : List Call
  phase : LoopPhase

/-- The `method` of an entry: what it calls and what it returns. -/
def AuthMethod1.method (a : AuthMethod1) (p : Packet) : List Call × Int :=
  match a.type with
  | .tis => ([.getChallenge p.challenge], if p.challenge then -1 else 0)
  | .tisResponse => ([.verifyResponse], p.result)
  | _ => ([], p.result)

/-- The part of the loop up to the return of the method; it is skipped with 0. -/
def tryMethod (sv : Server) (o : Options) (authctxt : Authctxt) (p : Packet) : List Call × Int :=
  if sv.maxAuthtries ≤ authctxt.failures then ([], 0)
  else
    match lookupAuthmethod1 p.type with
    | none => ([], 0)
    | some meth => if meth.enabled o then meth.method p else ([], 0)

/-- The checks behind a method. -/
def checkMethod (sv : Server) (authctxt : Authctxt) (authenticated : Int) (p : Packet) : Except Disconnect Bool :=
  if !authctxt.valid && authenticated != 0 then .error .internalError
  else
    let authenticated :=
      if authenticated ≠ 0 ∧ authctxt.pw.map Passwd.pwUid = some 0 ∧ sv.authRootAllowed (getAuthname p.type) = false
      then 0 else authenticated
    if sv.usePam && authenticated != 0 && !p.pamAccount then .error .pamAccount
    else .ok (authenticated != 0)

/-- The end of a round, from the log entry on. -/
def Authloop.reply (sv : Server) (s : Authloop) (authenticated : Bool) (p : Packet) : Authloop :=
  let s : Authloop := { s with calls := s.calls ++ [.authLog authenticated (getAuthname p.type)] }
  if authenticated then { s with phase := .returned }
  else
    let failures := s.authctxt.failures + 1
    { s with
      authctxt := { s.authctxt with failures := failures }
      phase := if sv.maxAuthtries ≤ failures then .disconnected .tooManyFailures else .reading }

/-- The call by which a challenge is abandoned, where one may have been sent. -/
def abandoned (prev : Option PacketType) (type : PacketType) : List Call :=
  if prev = some .tis ∧ type ≠ .tisResponse then [.abandonChallengeResponse] else []

/-- **A round of the loop.** Nothing is read after its end. -/
def readPacket (sv : Server) (o : Options) (s : Authloop) (p : Packet) : Authloop :=
  if s.phase = .reading then
    let tried := tryMethod sv o s.authctxt p
    let s : Authloop := { s with type := some p.type, calls := s.calls ++ abandoned s.type p.type ++ tried.1 }
    if tried.2 = -1 then s
    else
      match checkMethod sv s.authctxt tried.2 p with
      | .error d => { s with phase := .disconnected d }
      | .ok authenticated => s.reply sv authenticated p
  else s

/-- The packets of `do_authloop`. -/
def readPackets (sv : Server) (o : Options) (s : Authloop) (packets : List Packet) : Authloop :=
  packets.foldl (readPacket sv o) s

/-- What is answered before the first packet: `auth_password` for the empty password, and `do_pam_account`. -/
structure EmptyPassword where
  authenticated : Int
  pamAccount : Bool

/-- The user is accepted without a packet. -/
def acceptsEmpty (sv : Server) (o : Options) (e : EmptyPassword) : Bool :=
  o.permitEmptyPasswd && o.passwordAuthentication && e.authenticated != 0 && sv.usePam && e.pamAccount

/-- `do_authloop`. -/
def doAuthloop (sv : Server) (o : Options) (e : EmptyPassword) (authctxt : Authctxt) (packets : List Packet) :
    Authloop :=
  if acceptsEmpty sv o e then ⟨authctxt, none, [.authLog true "without authentication".toList], .returned⟩
  else readPackets sv o ⟨authctxt, none, [], .reading⟩ packets

/-- The part of `do_authentication` that sets up the context. -/
def userContext (sv : Server) (name : Text) : Authctxt :=
  let (user, style, role) := splitUser name
  { Authctxt.new with
    user := some user, style := style, role := role
    -- the modification: a user without an account is valid
    valid := true, pw := some ((sv.getpwnamallow user).getD sv.fakepw) }

/-- **`do_authentication`**, for the user of a name, with privilege separation or as root. -/
def doAuthentication (sv : Server) (o : Options) (e : EmptyPassword) (name : Text) (packets : List Packet) : Authloop :=
  doAuthloop sv o e (userContext sv name) packets

/-! ## The packets that let a user in -/

/-- What the method for a packet returns, and 0 where there is none that is enabled. -/
def methodResult (o : Options) (p : Packet) : Int :=
  match lookupAuthmethod1 p.type with
  | none => 0
  | some meth => if meth.enabled o then (meth.method p).2 else 0

/-- The packet is answered by a challenge. -/
def postponed (o : Options) (p : Packet) : Bool := methodResult o p == -1

/-- **The packet authenticates** the user of an account: its method says so, and it is allowed for root if this is
root. -/
def authenticates (sv : Server) (o : Options) (pw : Passwd) (p : Packet) : Bool :=
  !postponed o p && methodResult o p != 0 && (pw.pwUid != 0 || sv.authRootAllowed (getAuthname p.type))

/-- PAM has nothing against the account. -/
def pamAdmits (sv : Server) (p : Packet) : Bool := !sv.usePam || p.pamAccount

/-- The packet counts as a failure. -/
def fails (sv : Server) (o : Options) (pw : Passwd) (p : Packet) : Bool := !postponed o p && !authenticates sv o pw p

variable {sv : Server} {o : Options} {pw : Passwd} {s : Authloop} {p : Packet} {packets : List Packet}

/-- A context for the user of an account. -/
structure Authloop.For (s : Authloop) (pw : Passwd) : Prop where
  phase : s.phase = .reading
  valid : s.authctxt.valid = true
  pw_eq : s.authctxt.pw = some pw

/-- The method is only asked when there are not too many failures. -/
theorem tryMethod_snd (h : s.authctxt.failures < sv.maxAuthtries) :
    (tryMethod sv o s.authctxt p).2 = methodResult o p := by
  rw [tryMethod, if_neg (by omega), methodResult]
  cases lookupAuthmethod1 p.type with
  | none => rfl
  | some meth =>
    dsimp only
    split <;> rfl

/-- The checks let a user through whom the packet authenticates, and PAM can only end the connection. -/
theorem checkMethod_eq {authctxt : Authctxt} {authenticated : Int} (hvalid : authctxt.valid = true)
    (hpw : authctxt.pw = some pw) : checkMethod sv authctxt authenticated p =
      if (authenticated != 0 && (pw.pwUid != 0 || sv.authRootAllowed (getAuthname p.type))) = true then
        if pamAdmits sv p then .ok true else .error .pamAccount
      else .ok false := by
  unfold checkMethod pamAdmits
  rw [hvalid, hpw, Option.map_some]
  by_cases hzero : authenticated = 0
  · simp [hzero]
  · by_cases huid : pw.pwUid = 0
    · cases hroot : sv.authRootAllowed (getAuthname p.type) <;> cases sv.usePam <;> cases p.pamAccount <;>
        simp [hzero, huid]
    · cases sv.usePam <;> cases p.pamAccount <;> simp [hzero, huid]

/-- **A round**, by what the packet is. -/
theorem readPacket_cases (hfor : s.For pw) (h : s.authctxt.failures < sv.maxAuthtries) :
    (postponed o p = true ∧ (readPacket sv o s p).For pw ∧
        (readPacket sv o s p).authctxt.failures = s.authctxt.failures) ∨
      (authenticates sv o pw p = true ∧ pamAdmits sv p = true ∧ (readPacket sv o s p).phase = .returned) ∨
      (authenticates sv o pw p = true ∧ pamAdmits sv p = false ∧
        (readPacket sv o s p).phase = .disconnected .pamAccount) ∨
      (fails sv o pw p = true ∧ (readPacket sv o s p).authctxt.failures = s.authctxt.failures + 1 ∧
        if s.authctxt.failures + 1 < sv.maxAuthtries then (readPacket sv o s p).For pw
        else (readPacket sv o s p).phase = .disconnected .tooManyFailures) := by
  have htried := tryMethod_snd (o := o) (p := p) h
  unfold readPacket
  rw [if_pos hfor.phase]
  dsimp only
  rw [htried]
  by_cases hpostponed : methodResult o p = -1
  · rw [if_pos hpostponed]
    exact .inl ⟨beq_iff_eq.mpr hpostponed, ⟨hfor.phase, hfor.valid, hfor.pw_eq⟩, rfl⟩
  · have hnot : postponed o p = false := beq_eq_false_iff_ne.mpr hpostponed
    have hauth : authenticates sv o pw p =
        (methodResult o p != 0 && (pw.pwUid != 0 || sv.authRootAllowed (getAuthname p.type))) := by
      rw [authenticates, hnot, Bool.not_false, Bool.true_and]
    rw [if_neg hpostponed, checkMethod_eq hfor.valid hfor.pw_eq, ← hauth]
    right
    cases hauth' : authenticates sv o pw p with
    | true =>
      cases hpam : pamAdmits sv p with
      | true => exact .inl ⟨rfl, rfl, rfl⟩
      | false => exact .inr (.inl ⟨rfl, rfl, rfl⟩)
    | false =>
      refine .inr (.inr ⟨by rw [fails, hnot, hauth']; rfl, rfl, ?_⟩)
      split
      · rename_i hlt
        exact ⟨if_neg (by simpa using hlt), hfor.valid, hfor.pw_eq⟩
      · rename_i hge
        exact if_pos (Int.not_lt.mp hge)

/-- Nothing is read after the end of the loop. -/
theorem readPackets_of_ended (h : s.phase ≠ .reading) : readPackets sv o s packets = s := by
  induction packets with
  | nil => rfl
  | cons p packets ih =>
    rw [readPackets, List.foldl_cons, readPacket, if_neg h]
    exact ih

/-- With too many failures the next packet is the last one. -/
theorem readPacket_of_exceeded (hfor : s.For pw) (h : sv.maxAuthtries ≤ s.authctxt.failures) :
    (readPacket sv o s p).phase = .disconnected .tooManyFailures := by
  unfold readPacket tryMethod
  rw [if_pos hfor.phase, if_pos h]
  dsimp only
  rw [if_neg (by decide), checkMethod_eq hfor.valid hfor.pw_eq]
  exact if_pos (by dsimp only; omega)

/-- A packet is only one of these. -/
theorem not_fails_of_authenticates (h : authenticates sv o pw p = true) :
    postponed o p = false ∧ fails sv o pw p = false := by
  have hnot : postponed o p = false := by
    rw [authenticates, Bool.and_eq_true, Bool.and_eq_true] at h
    simpa using h.1.1
  exact ⟨hnot, by rw [fails, hnot, h]; rfl⟩

/-- The packet that lets a user in after some others, when there are so many failures. -/
def LetIn (sv : Server) (o : Options) (pw : Passwd) (failures : Int) (packets : List Packet) : Prop :=
  ∃ before p after, packets = before ++ p :: after ∧
    (∀ q ∈ before, postponed o q = true ∨ fails sv o pw q = true) ∧
    failures + before.countP (fails sv o pw) < sv.maxAuthtries ∧
    authenticates sv o pw p = true ∧ pamAdmits sv p = true

/-- Only a packet that is postponed or fails can stand before the one that lets in. -/
theorem letIn_cons_iff {failures : Int} {q : Packet} : LetIn sv o pw failures (q :: packets) ↔
    (failures < sv.maxAuthtries ∧ authenticates sv o pw q = true ∧ pamAdmits sv q = true) ∨
      (postponed o q = true ∧ LetIn sv o pw failures packets) ∨
      (fails sv o pw q = true ∧ LetIn sv o pw (failures + 1) packets) := by
  constructor
  · rintro ⟨before, p, after, heq, hbefore, hcount, hauth, hpam⟩
    cases before with
    | nil =>
      obtain ⟨rfl, rfl⟩ := List.cons.inj heq
      exact .inl ⟨by simpa using hcount, hauth, hpam⟩
    | cons q' before =>
      obtain ⟨rfl, rfl⟩ := List.cons.inj heq
      have hrest : ∀ r ∈ before, postponed o r = true ∨ fails sv o pw r = true := fun r hr =>
        hbefore r (List.mem_cons_of_mem q hr)
      rw [List.countP_cons] at hcount
      obtain hpostponed | hfails := hbefore q List.mem_cons_self
      · have hnot : fails sv o pw q = false := by rw [fails, hpostponed]; rfl
        rw [hnot] at hcount
        exact .inr (.inl ⟨hpostponed, before, p, after, rfl, hrest, by simpa using hcount, hauth, hpam⟩)
      · rw [if_pos hfails] at hcount
        exact .inr (.inr ⟨hfails, before, p, after, rfl, hrest, by push_cast at hcount; omega, hauth, hpam⟩)
  · rintro (⟨hlt, hauth, hpam⟩ | ⟨hpostponed, before, p, after, rfl, hbefore, hcount, hauth, hpam⟩ |
      ⟨hfails, before, p, after, rfl, hbefore, hcount, hauth, hpam⟩)
    · exact ⟨[], q, packets, rfl, fun _ h => absurd h List.not_mem_nil, by simpa using hlt, hauth, hpam⟩
    · have hnot : fails sv o pw q = false := by rw [fails, hpostponed]; rfl
      refine ⟨q :: before, p, after, rfl, List.forall_mem_cons.mpr ⟨.inl hpostponed, hbefore⟩, ?_, hauth, hpam⟩
      rw [List.countP_cons, hnot]
      simpa using hcount
    · refine ⟨q :: before, p, after, rfl, List.forall_mem_cons.mpr ⟨.inr hfails, hbefore⟩, ?_, hauth, hpam⟩
      rw [List.countP_cons, if_pos hfails]
      push_cast
      omega

/-- With too many failures no packet lets a user in. -/
theorem not_letIn {failures : Int} (h : sv.maxAuthtries ≤ failures) : ¬ LetIn sv o pw failures packets := by
  rintro ⟨before, _, _, -, -, hcount, -⟩
  omega

/-- **The loop returns** where a packet lets the user in. -/
theorem readPackets_returned_iff (hfor : s.For pw) : (readPackets sv o s packets).phase = .returned ↔
    LetIn sv o pw s.authctxt.failures packets := by
  induction packets generalizing s with
  | nil =>
    rw [readPackets, List.foldl_nil, hfor.phase]
    constructor
    · exact LoopPhase.noConfusion
    · rintro ⟨before, p, after, heq, -⟩
      exact absurd heq.symm (List.append_ne_nil_of_right_ne_nil _ (List.cons_ne_nil _ _))
  | cons p packets ih =>
    have hended : ∀ {phase}, (readPacket sv o s p).phase = phase → phase ≠ .reading →
        (readPackets sv o s (p :: packets)).phase = phase := by
      rintro _ rfl hphase
      rw [readPackets, List.foldl_cons]
      exact congrArg Authloop.phase (readPackets_of_ended hphase)
    by_cases hlt : s.authctxt.failures < sv.maxAuthtries
    · rw [letIn_cons_iff]
      obtain ⟨hpostponed, hfor', hfailures⟩ | ⟨hauth, hpam, hphase⟩ | ⟨hauth, hpam, hphase⟩ |
        ⟨hfails, hfailures, hnext⟩ := readPacket_cases (o := o) (p := p) hfor hlt
      · have hnot : authenticates sv o pw p ≠ true := by rw [authenticates, hpostponed]; exact Bool.false_ne_true
        have hnot' : fails sv o pw p ≠ true := by rw [fails, hpostponed]; exact Bool.false_ne_true
        rw [readPackets, List.foldl_cons]
        refine (ih hfor').trans ?_
        rw [hfailures]
        simp [hpostponed, hnot, hnot']
      · rw [hended hphase LoopPhase.noConfusion]
        exact iff_of_true rfl (.inl ⟨hlt, hauth, hpam⟩)
      · obtain ⟨hnot, hnot'⟩ := not_fails_of_authenticates hauth
        rw [hended hphase LoopPhase.noConfusion]
        simp [hnot, hnot', hpam]
      · have hnot : authenticates sv o pw p = false ∧ postponed o p = false := by
          rw [fails, Bool.and_eq_true] at hfails
          exact ⟨by simpa using hfails.2, by simpa using hfails.1⟩
        split at hnext
        · rw [readPackets, List.foldl_cons]
          refine (ih hnext).trans ?_
          rw [hfailures]
          simp [hnot, hfails]
        · rename_i hge
          rw [hended hnext LoopPhase.noConfusion]
          simp [hnot, hfails, not_letIn (Int.not_lt.mp hge)]
    · have hge := Int.not_lt.mp hlt
      rw [hended (readPacket_of_exceeded hfor hge) LoopPhase.noConfusion]
      exact iff_of_false LoopPhase.noConfusion (not_letIn hge)

/-- The account that a name stands for, if need be that of nobody. -/
def userAccount (sv : Server) (name : Text) : Passwd := (sv.getpwnamallow (splitUser name).1).getD sv.fakepw

/-- **When a user is in**: without a packet by an empty password that PAM admits, whoever the user is, or by the first
packet that authenticates the user, before there are too many failures and with nothing against it from PAM. -/
theorem returned_iff (sv : Server) (o : Options) (e : EmptyPassword) (name : Text) (packets : List Packet) :
    (doAuthentication sv o e name packets).phase = .returned ↔ acceptsEmpty sv o e = true ∨
      ∃ before p after, packets = before ++ p :: after ∧
        (∀ q ∈ before, postponed o q = true ∨ fails sv o (userAccount sv name) q = true) ∧
        (before.countP (fails sv o (userAccount sv name)) : Int) < sv.maxAuthtries ∧
        authenticates sv o (userAccount sv name) p = true ∧ pamAdmits sv p = true := by
  unfold doAuthentication doAuthloop
  cases hempty : acceptsEmpty sv o e with
  | true => exact iff_of_true rfl (.inl rfl)
  | false =>
    rw [if_neg Bool.false_ne_true]
    have hfor : Authloop.For ⟨userContext sv name, none, [], .reading⟩ (userAccount sv name) := ⟨rfl, rfl, rfl⟩
    refine (readPackets_returned_iff hfor).trans ?_
    unfold LetIn
    have hzero : (userContext sv name).failures = 0 := rfl
    simp [hzero]

/-! ## Challenges -/

/-- Whether there is a challenge after some calls; `none` when there was one already as another one was got. -/
def heldAfter : Bool → List Call → Option Bool
  | held, [] => some held
  | held, .getChallenge challenge :: calls => if held then none else heldAfter challenge calls
  | _, .verifyResponse :: calls => heldAfter false calls
  | _, .abandonChallengeResponse :: calls => heldAfter false calls
  | held, .authLog _ _ :: calls => heldAfter held calls

/-- Calls after other calls. -/
theorem heldAfter_append {held : Bool} {calls calls' : List Call} :
    heldAfter held (calls ++ calls') = (heldAfter held calls).bind (heldAfter · calls') := by
  induction calls generalizing held with
  | nil => rfl
  | cons call calls ih =>
    cases call with
    | getChallenge challenge =>
      rw [List.cons_append, heldAfter, heldAfter]
      cases held with
      | true => rfl
      | false => exact ih
    | verifyResponse => exact ih
    | abandonChallengeResponse => exact ih
    | authLog => exact ih

/-- **Who holds a challenge**: the loop that has sent one and reads the next packet. -/
structure Challenged (sv : Server) (o : Options) (s : Authloop) : Prop where
  phase : s.phase = .reading
  type : s.type = some .tis
  enabled : o.challengeResponseAuthentication = true
  failures : s.authctxt.failures < sv.maxAuthtries

/-- A method that is asked. -/
theorem tryMethod_eq (hlt : s.authctxt.failures < sv.maxAuthtries) {meth : AuthMethod1}
    (hmeth : lookupAuthmethod1 p.type = some meth) (henabled : meth.enabled o = true) :
    tryMethod sv o s.authctxt p = meth.method p := by
  rw [tryMethod, if_neg (by omega), hmeth]
  exact if_pos henabled

/-- What a method calls when no challenge is held: only `get_challenge` may leave one. -/
theorem heldAfter_tryMethod (p : Packet) :
    ∃ held, heldAfter false (tryMethod sv o s.authctxt p).1 = some held ∧
      (held = true → (tryMethod sv o s.authctxt p).2 = -1 ∧ p.type = .tis ∧
        o.challengeResponseAuthentication = true ∧ s.authctxt.failures < sv.maxAuthtries) := by
  by_cases hlt : s.authctxt.failures < sv.maxAuthtries
  · cases hmeth : lookupAuthmethod1 p.type with
    | none =>
      rw [tryMethod, if_neg (by omega), hmeth]
      exact ⟨false, rfl, fun h => absurd h Bool.false_ne_true⟩
    | some meth =>
      cases henabled : meth.enabled o with
      | false =>
        rw [tryMethod, if_neg (by omega), hmeth]
        dsimp only
        rw [henabled, if_neg Bool.false_ne_true]
        exact ⟨false, rfl, fun h => absurd h Bool.false_ne_true⟩
      | true =>
        have htype : meth.type = p.type := by
          have hfound := List.find?_some (p := fun a : AuthMethod1 => decide (a.type = p.type)) hmeth
          exact of_decide_eq_true hfound
        rw [tryMethod_eq hlt hmeth henabled]
        unfold AuthMethod1.method
        cases hp : meth.type with
        | tis =>
          rw [hp] at htype
          rw [← htype] at hmeth
          obtain rfl := Option.some.inj hmeth
          refine ⟨p.challenge, rfl, fun h => ⟨if_pos h, htype.symm, henabled, hlt⟩⟩
        | tisResponse => exact ⟨false, rfl, fun h => absurd h Bool.false_ne_true⟩
        | password => exact ⟨false, rfl, fun h => absurd h Bool.false_ne_true⟩
        | rsa => exact ⟨false, rfl, fun h => absurd h Bool.false_ne_true⟩
        | rhostsRsa => exact ⟨false, rfl, fun h => absurd h Bool.false_ne_true⟩
        | other n => exact ⟨false, rfl, fun h => absurd h Bool.false_ne_true⟩
  · rw [tryMethod, if_pos (Int.not_lt.mp hlt)]
    exact ⟨false, rfl, fun h => absurd h Bool.false_ne_true⟩

/-- The response releases what is held in its method, and any other packet before its method is asked. -/
theorem heldAfter_round {held : Bool} (hheld : held = true → Challenged sv o s) (p : Packet) :
    heldAfter held (abandoned s.type p.type ++ (tryMethod sv o s.authctxt p).1) =
      heldAfter false (tryMethod sv o s.authctxt p).1 := by
  cases held with
  | false =>
    unfold abandoned
    split <;> rfl
  | true =>
    obtain ⟨-, htype, henabled, hlt⟩ := hheld rfl
    by_cases hresponse : p.type = .tisResponse
    · have hmeth : lookupAuthmethod1 p.type =
          some ⟨.tisResponse, "challenge-response".toList, Options.challengeResponseAuthentication⟩ := by
        rw [hresponse]
        rfl
      rw [abandoned, if_neg fun h => h.2 hresponse, tryMethod_eq hlt hmeth henabled]
      rfl
    · rw [abandoned, if_pos ⟨htype, hresponse⟩]
      rfl

/-- The log entry is the last call of a round. -/
theorem reply_calls {authenticated : Bool} :
    (s.reply sv authenticated p).calls = s.calls ++ [.authLog authenticated (getAuthname p.type)] := by
  cases authenticated <;> rfl

/-- **A round** leaves a challenge only where the next packet is to answer it. -/
theorem heldAfter_readPacket (h : ∃ held, heldAfter false s.calls = some held ∧ (held = true → Challenged sv o s))
    (p : Packet) : ∃ held, heldAfter false (readPacket sv o s p).calls = some held ∧
      (held = true → Challenged sv o (readPacket sv o s p)) := by
  obtain ⟨held, hcalls, hheld⟩ := h
  by_cases hphase : s.phase = .reading
  · obtain ⟨held', htried, hheld'⟩ := @heldAfter_tryMethod sv o s p
    have hround : heldAfter false (s.calls ++ abandoned s.type p.type ++ (tryMethod sv o s.authctxt p).1) =
        some held' := by
      rw [List.append_assoc, heldAfter_append, hcalls, Option.bind_some, heldAfter_round hheld, htried]
    unfold readPacket
    rw [if_pos hphase]
    dsimp only
    split
    · exact ⟨held', hround, fun h => ⟨hphase, congrArg some (hheld' h).2.1, (hheld' h).2.2.1, (hheld' h).2.2.2⟩⟩
    · rename_i hresult
      have hnone : held' = false := by
        cases held' with
        | false => rfl
        | true => exact absurd (hheld' rfl).1 hresult
      subst hnone
      refine ⟨false, ?_, fun h => absurd h Bool.false_ne_true⟩
      split
      · exact hround
      · rw [reply_calls, heldAfter_append, hround]
        rfl
  · rw [readPacket, if_neg hphase]
    exact ⟨held, hcalls, hheld⟩

/-- **Challenges are released**: there is never one already when another one is got, and none is left when the loop
has ended, whatever packets the client sends in whatever order. One is only held for the packet behind a request. -/
theorem challenges_released (sv : Server) (o : Options) (e : EmptyPassword) (name : Text) (packets : List Packet) :
    ∃ held, heldAfter false (doAuthentication sv o e name packets).calls = some held ∧
      (held = true → Challenged sv o (doAuthentication sv o e name packets)) := by
  have hrun : ∀ packets s, (∃ held, heldAfter false s.calls = some held ∧ (held = true → Challenged sv o s)) →
      ∃ held, heldAfter false (readPackets sv o s packets).calls = some held ∧
        (held = true → Challenged sv o (readPackets sv o s packets)) := by
    intro packets
    induction packets with
    | nil => exact fun s h => h
    | cons p packets ih => exact fun s h => ih _ (heldAfter_readPacket h p)
  unfold doAuthentication doAuthloop
  split
  · exact ⟨false, rfl, fun h => absurd h Bool.false_ne_true⟩
  · exact hrun packets _ ⟨false, rfl, fun h => absurd h Bool.false_ne_true⟩

end GexCloud.Ssh
