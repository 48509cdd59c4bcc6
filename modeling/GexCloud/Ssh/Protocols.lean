import GexCloud.Ssh.Auth1

/-! # `auth1.c` and `auth2.c`

The loop of the older protocol and the dispatcher of the other one are two versions of one thing: a method is asked, and
the user is let in, refused or disconnected.

* `Packet.event` — the request that a packet corresponds to.
* `Follows` — how the context of the dispatcher corresponds to the loop.
* **`protocols_agree`** — packets and the requests that they correspond to come to the same. -/

namespace GexCloud.Ssh

open Texts Runs

/-- The methods of the older protocol, as a table of the other one. -/
def authmethodsOf (o : Options) : List Authmethod := auth1Methods.map fun a => ⟨a.name, a.enabled o⟩

/-- The request that a packet corresponds to. A method that waits for the response to its challenge is postponed. -/
def Packet.event (o : Options) (name : Text) (p : Packet) : Event :=
  .request name sshConnection (getAuthname p.type)
    { authmethods := authmethodsOf o
      authenticated := if p.type = .tis then 0 else p.result
      postponed := p.type = .tis && p.challenge
      serverCausedFailure := false
      pamAccount := p.pamAccount }

variable {sv : Server} {o : Options} {name : Text} {s : Authloop} {t : Authctxt} {p : Packet}

/-- What is logged for a packet of another type is not the name of a method. -/
theorem getAuthname_other (n : Nat) : getAuthname (.other n) = 'b' :: ("ad-auth-msg-".toList ++ decimal n) := rfl

/-- Entries of the table with the name for a type are enabled like the entry of the type. -/
theorem exists_of_name_eq {a : AuthMethod1} {type : PacketType} (ha : a ∈ auth1Methods)
    (hname : a.name = getAuthname type) : ∃ meth, lookupAuthmethod1 type = some meth ∧ meth.enabled = a.enabled := by
  simp only [auth1Methods, List.mem_cons, List.not_mem_nil, or_false] at ha
  cases type with
  | other n =>
    rw [getAuthname_other] at hname
    obtain rfl | rfl | rfl | rfl | rfl := ha <;> exact absurd (List.cons.inj hname).1 (by decide)
  | _ =>
    obtain rfl | rfl | rfl | rfl | rfl := ha <;>
      first
      | exact ⟨_, rfl, rfl⟩
      | exact absurd hname (by decide)

/-- A method is found by its name where it is found by the type of its packet. -/
theorem isSome_authmethodLookup_iff {type : PacketType} :
    (authmethodLookup (authmethodsOf o) (getAuthname type)).isSome = true ↔
      ∃ meth, lookupAuthmethod1 type = some meth ∧ meth.enabled o = true := by
  rw [authmethodLookup, List.find?_isSome, authmethodsOf]
  constructor
  · rintro ⟨m, hm, hfound⟩
    obtain ⟨a, ha, rfl⟩ := List.mem_map.mp hm
    obtain ⟨henabled, hname⟩ := Bool.and_eq_true_iff.mp hfound
    obtain ⟨meth, hmeth, hsame⟩ := exists_of_name_eq ha (beq_iff_eq.mp hname)
    exact ⟨meth, hmeth, (congrFun hsame o).trans henabled⟩
  · rintro ⟨meth, hmeth, henabled⟩
    have hmem : meth ∈ auth1Methods :=
      List.mem_of_find?_eq_some (p := fun a : AuthMethod1 => decide (a.type = type)) hmeth
    refine ⟨⟨meth.name, meth.enabled o⟩, List.mem_map.mpr ⟨meth, hmem, rfl⟩, ?_⟩
    have hname : getAuthname type = meth.name := by
      unfold getAuthname
      rw [hmeth]
    rw [hname]
    simpa using henabled

/-- No packet is for the method `none`. -/
theorem getAuthname_ne_none (type : PacketType) : getAuthname type ≠ "none".toList := by
  cases type with
  | other n =>
    rw [getAuthname_other]
    exact fun h => absurd (List.cons.inj h).1 (by decide)
  | _ => decide

/-- How an attempt of the dispatcher ends: as the checks of the loop say. -/
theorem userauthFinish_eq {authenticated : Int} (hvalid : t.valid = true) {pw : Passwd} (hpw : t.pw = some pw)
    (hcaused : t.serverCausedFailure = false) (hpostponed : t.postponed = true → authenticated = 0)
    (hresult : authenticated = 0 ∨ authenticated = 1) :
    userauthFinish sv t authenticated (getAuthname p.type) p.pamAccount =
      match checkMethod sv t authenticated p with
      | .error d => .error d
      | .ok success =>
        if t.postponed then .ok t
        else if success then .ok { t with success := true }
        else if sv.maxAuthtries ≤ t.failures + 1 then .error .tooManyFailures
        else .ok { t with failures := t.failures + 1 } := by
  have hname : (getAuthname p.type != "none".toList) = true := bne_iff_ne.mpr (getAuthname_ne_none p.type)
  rw [checkMethod_eq hvalid hpw]
  unfold userauthFinish pamAdmits
  rw [hvalid, hpw, hcaused, hname, Option.map_some]
  obtain rfl | rfl := hresult
  · cases hpost : t.postponed <;> simp
  · have hnot : t.postponed = false := by
      cases hpost : t.postponed with
      | false => rfl
      | true => exact absurd (hpostponed hpost) (by decide)
    rw [hnot]
    by_cases huid : pw.pwUid = 0
    · cases hroot : sv.authRootAllowed (getAuthname p.type) <;> cases sv.usePam <;> cases p.pamAccount <;> simp [huid]
    · cases sv.usePam <;> cases p.pamAccount <;> simp [huid]

/-- **The context of the dispatcher corresponds to the loop**: so many failures, and the same account once there has
been a request. -/
structure Follows (sv : Server) (name : Text) (s : Authloop) (t : Authctxt) : Prop where
  loop : s.For (userAccount sv name)
  success : t.success = false
  failures : t.failures = s.authctxt.failures
  bound : t.attempt ≠ 0 → Bound sv (splitUser name).1 sshConnection t

/-- The account of a name. -/
theorem account_eq : account sv (splitUser name).1 sshConnection = userAccount sv name := if_pos rfl

/-- The context is set up by the first request, and later requests are for the same user. -/
theorem Follows.setup (h : Follows sv name s t) (style role : Option Text) :
    ∃ t', setupAuth sv t (splitUser name).1 sshConnection style role = .ok t' ∧ t'.attempt ≠ 0 ∧
      Bound sv (splitUser name).1 sshConnection t' ∧ t'.success = false ∧ t'.failures = s.authctxt.failures := by
  by_cases hattempt : t.attempt = 0
  · have hok : ∃ t', setupAuth sv t (splitUser name).1 sshConnection style role = .ok t' := by
      rw [setupAuth, if_pos hattempt]
      cases sv.getpwnamallow (splitUser name).1 <;> exact ⟨_, rfl⟩
    obtain ⟨t', ht'⟩ := hok
    obtain ⟨-, rfl⟩ | ⟨hne, -⟩ := setupAuth_eq_ok ht'
    · exact ⟨_, ht', Nat.one_ne_zero, ⟨Nat.one_ne_zero, rfl, rfl, rfl, rfl⟩, h.success, h.failures⟩
    · exact absurd hattempt hne
  · have hbound := h.bound hattempt
    refine ⟨{ t with attempt := t.attempt + 1 }, ?_, Nat.succ_ne_zero _,
      ⟨Nat.succ_ne_zero _, hbound.valid, hbound.user_eq, hbound.service_eq, hbound.pw_eq⟩, h.success, h.failures⟩
    rw [setupAuth, if_neg hattempt, if_neg]
    rw [hbound.user_eq, hbound.service_eq]
    simp

/-- What a method of the older protocol returns, by the answer to the request. -/
theorem method_eq {meth : AuthMethod1} (hmeth : lookupAuthmethod1 p.type = some meth) :
    (meth.method p).2 = if p.type = .tis ∧ p.challenge = true then -1 else if p.type = .tis then 0 else p.result := by
  have htype : meth.type = p.type := by
    have hfound := List.find?_some (p := fun a : AuthMethod1 => decide (a.type = p.type)) hmeth
    exact of_decide_eq_true hfound
  unfold AuthMethod1.method
  rw [htype]
  cases p.type with
  | tis => cases p.challenge <;> rfl
  | _ => rfl

/-- An attempt of the dispatcher ends as a round in which the method returns the same. -/
theorem Follows.finish (hfor : s.For (userAccount sv name)) (hattempt : t.attempt ≠ 0)
    (hbound : Bound sv (splitUser name).1 sshConnection t) (hsuccess : t.success = false)
    (hfailures : t.failures = s.authctxt.failures) (hcaused : t.serverCausedFailure = false) {authenticated : Int}
    (hpostponed : t.postponed = true → authenticated = 0) (hresult : authenticated = 0 ∨ authenticated = 1)
    (htried : (tryMethod sv o s.authctxt p).2 = if t.postponed then -1 else authenticated) :
    match userauthFinish sv t authenticated (getAuthname p.type) p.pamAccount with
    | .ok t' =>
      if t'.success then (readPacket sv o s p).phase = .returned else Follows sv name (readPacket sv o s p) t'
    | .error d => (readPacket sv o s p).phase = .disconnected d := by
  have hpw : t.pw = some (userAccount sv name) := account_eq ▸ hbound.pw_eq
  have hsame : checkMethod sv t authenticated p = checkMethod sv s.authctxt authenticated p := by
    rw [checkMethod_eq hbound.valid hpw, checkMethod_eq hfor.valid hfor.pw_eq]
  rw [userauthFinish_eq hbound.valid hpw hcaused hpostponed hresult, hsame]
  unfold readPacket
  rw [if_pos hfor.phase]
  dsimp only
  rw [htried]
  cases hpost : t.postponed with
  | true =>
    obtain rfl := hpostponed hpost
    have hfails : checkMethod sv s.authctxt 0 p = .ok false := by
      rw [checkMethod_eq hfor.valid hfor.pw_eq]
      rfl
    rw [hfails]
    simp only [if_true, hsuccess, Bool.false_eq_true, if_false]
    exact ⟨⟨hfor.phase, hfor.valid, hfor.pw_eq⟩, hsuccess, hfailures, fun _ => hbound⟩
  | false =>
    have hne : authenticated ≠ -1 := by omega
    simp only [Bool.false_eq_true, if_false, if_neg hne]
    cases hcheck : checkMethod sv s.authctxt authenticated p with
    | error d => rfl
    | ok success =>
      cases success with
      | true => rfl
      | false =>
        simp only [Bool.false_eq_true, if_false, hfailures, Authloop.reply]
        by_cases hmax : sv.maxAuthtries ≤ s.authctxt.failures + 1
        · simp only [if_pos hmax]
        · simp only [if_neg hmax, hsuccess, Bool.false_eq_true, if_false]
          exact ⟨⟨rfl, hfor.valid, hfor.pw_eq⟩, rfl, rfl, fun _ =>
            ⟨hattempt, hbound.valid, hbound.user_eq, hbound.service_eq, hbound.pw_eq⟩⟩

/-- **A round** comes to what the dispatcher makes of the request. -/
theorem Follows.round (h : Follows sv name s t) (hresult : p.type ≠ .tis → p.result = 0 ∨ p.result = 1) :
    match dispatch sv t (p.event o name) with
    | .ok t' =>
      if t'.success then (readPacket sv o s p).phase = .returned else Follows sv name (readPacket sv o s p) t'
    | .error d => (readPacket sv o s p).phase = .disconnected d := by
  obtain ⟨t₁, hsetup, hattempt, hbound, hsuccess, hfailures⟩ := h.setup (splitUser name).2.1 (splitUser name).2.2
  have hdispatch : dispatch sv t (p.event o name) =
      if (authmethodLookup (authmethodsOf o) (getAuthname p.type)).isSome ∧ t₁.failures < sv.maxAuthtries then
        userauthFinish sv (t₁.leave (p.type = .tis && p.challenge) false) (if p.type = .tis then 0 else p.result)
          (getAuthname p.type) p.pamAccount
      else userauthFinish sv (t₁.leave false false) 0 (getAuthname p.type) p.pamAccount := by
    rw [Packet.event, dispatch, h.success, if_neg Bool.false_ne_true, inputUserauthRequest]
    dsimp only
    rw [hsetup]
    rfl
  rw [hdispatch, hfailures]
  by_cases hasked : (authmethodLookup (authmethodsOf o) (getAuthname p.type)).isSome = true ∧
      s.authctxt.failures < sv.maxAuthtries
  · rw [if_pos hasked]
    obtain ⟨hlookup, hlt⟩ := hasked
    obtain ⟨meth, hmeth, henabled⟩ := isSome_authmethodLookup_iff.mp hlookup
    refine Follows.finish (t := t₁.leave (p.type = .tis && p.challenge) false) h.loop hattempt (hbound.leave _ _)
      hsuccess hfailures rfl ?_ ?_ ?_
    · intro hpost
      exact if_pos (of_decide_eq_true (Bool.and_eq_true_iff.mp hpost).1)
    · by_cases htis : p.type = .tis
      · exact .inl (if_pos htis)
      · rw [if_neg htis]
        exact hresult htis
    · rw [tryMethod_eq hlt hmeth henabled, method_eq hmeth]
      simp [Authctxt.leave]
  · rw [if_neg hasked]
    refine Follows.finish (t := t₁.leave false false) h.loop hattempt (hbound.leave _ _) hsuccess hfailures rfl
      (fun _ => rfl) (.inl rfl) ?_
    unfold tryMethod
    split
    · rfl
    · rename_i hge
      have hlt : s.authctxt.failures < sv.maxAuthtries := by omega
      cases hmeth : lookupAuthmethod1 p.type with
      | none => rfl
      | some meth =>
        have hdisabled : meth.enabled o ≠ true := fun henabled =>
          hasked ⟨isSome_authmethodLookup_iff.mpr ⟨meth, hmeth, henabled⟩, hlt⟩
        dsimp only
        rw [if_neg hdisabled]
        rfl

/-- Once the user is in, further requests are ignored. -/
theorem runOk_of_success (hsuccess : t.success = true) (packets : List Packet) :
    runOk (dispatch sv) t (packets.map (·.event o name)) = .ok t := by
  induction packets with
  | nil => rfl
  | cons p packets ih =>
    have hignored : dispatch sv t (p.event o name) = .ok t := by
      rw [Packet.event, dispatch, if_pos hsuccess]
    rw [List.map_cons, runOk, hignored]
    exact ih

/-- **The two protocols agree.** A user who sends packets is let in or refused, and by the same reason, as one who sends
the requests that they correspond to, whatever the packets are, when the methods answer 0 or 1. -/
theorem protocols_agree (sv : Server) (o : Options) (e : EmptyPassword) (name : Text) (packets : List Packet)
    (hempty : acceptsEmpty sv o e = false)
    (hresult : ∀ p ∈ packets, p.type ≠ .tis → p.result = 0 ∨ p.result = 1) :
    match runOk (dispatch sv) Authctxt.new (packets.map (·.event o name)) with
    | .ok t => (doAuthentication sv o e name packets).phase = if t.success then .returned else .reading
    | .error d => (doAuthentication sv o e name packets).phase = .disconnected d := by
  have hrun : ∀ packets s t, Follows sv name s t →
      (∀ p ∈ packets, p.type ≠ .tis → p.result = 0 ∨ p.result = 1) →
      match runOk (dispatch sv) t (packets.map (·.event o name)) with
      | .ok t => (readPackets sv o s packets).phase = if t.success then .returned else .reading
      | .error d => (readPackets sv o s packets).phase = .disconnected d := by
    intro packets
    induction packets with
    | nil =>
      intro s t h _
      rw [List.map_nil, runOk, readPackets, List.foldl_nil]
      dsimp only
      rw [h.success, h.loop.phase, if_neg Bool.false_ne_true]
    | cons p packets ih =>
      intro s t h hresult
      obtain ⟨hp, hpackets⟩ := List.forall_mem_cons.mp hresult
      have hround := h.round (o := o) hp
      rw [List.map_cons, runOk]
      cases hdispatch : dispatch sv t (p.event o name) with
      | error d =>
        rw [hdispatch] at hround
        have hended : readPackets sv o (readPacket sv o s p) packets = readPacket sv o s p :=
          readPackets_of_ended (hround ▸ LoopPhase.noConfusion)
        exact (congrArg Authloop.phase hended).trans hround
      | ok t' =>
        rw [hdispatch] at hround
        dsimp only at hround
        split at hround
        · rename_i hsuccess
          have hended : readPackets sv o (readPacket sv o s p) packets = readPacket sv o s p :=
            readPackets_of_ended (hround ▸ LoopPhase.noConfusion)
          change match runOk (dispatch sv) t' (packets.map (·.event o name)) with
            | .ok t =>
              (readPackets sv o (readPacket sv o s p) packets).phase = if t.success then .returned else .reading
            | .error d => (readPackets sv o (readPacket sv o s p) packets).phase = .disconnected d
          rw [runOk_of_success hsuccess, hended]
          exact hround.trans (if_pos hsuccess).symm
        · exact ih _ _ hround hpackets
  unfold doAuthentication doAuthloop
  rw [hempty, if_neg Bool.false_ne_true]
  exact hrun packets _ _ ⟨⟨rfl, rfl, rfl⟩, rfl, rfl, fun h => absurd rfl h⟩ hresult

/-- Passwords and challenges are enabled. -/
def challengeOptions : Options := ⟨false, true, false, false, true⟩

/-- A wrong password, and then the response to a challenge. -/
def guestPackets : List Packet := [⟨.password, 0, false, true⟩, ⟨.tis, 0, true, true⟩, ⟨.tisResponse, 1, false, true⟩]

/-- The response lets the user in, by either protocol. -/
theorem protocols_agree_guest :
    (doAuthentication openServer challengeOptions ⟨0, true⟩ "guest".toList guestPackets).phase = .returned := by
  have hagree := protocols_agree openServer challengeOptions ⟨0, true⟩ "guest".toList guestPackets rfl (by
    simp [guestPackets])
  obtain ⟨t, hrun, hsuccess⟩ : ∃ t, runOk (dispatch openServer) Authctxt.new
      (guestPackets.map (·.event challengeOptions "guest".toList)) = .ok t ∧ t.success = true := by
    exact ⟨_, rfl, rfl⟩
  rw [hrun] at hagree
  exact hagree.trans (if_pos hsuccess)

end GexCloud.Ssh
