import GexCloud.Ssh.PamTransaction

/-! # `auth-pam.c`: the account

`do_pam_account` remembers its answer, and the answer is not forgotten when the transaction is ended for another user.

* `asks`, `tries` — the calls of `pam_acct_mgmt`, and those and the processes that are started.
* **`account_asked_once`** — the library is asked about one account at most, and after a refusal it is not asked again
  and no process is started, whoever the user is. -/

namespace GexCloud.Ssh.AuthPam

open Texts Scripts

/-- `pam_acct_mgmt` is called. -/
def PamEvent.isAsk : PamEvent → Bool
  | .call .acctMgmt _ _ => true
  | _ => false

/-- `pam_acct_mgmt` is called, or a process is started. -/
def PamEvent.isTry : PamEvent → Bool
  | .call .acctMgmt _ _ | .forked _ => true
  | _ => false

/-- How often the library has been asked about an account. -/
def asks (s : State) : Nat := s.trace.countP PamEvent.isAsk

/-- How often that has been done and a process has been started. -/
def tries (s : State) : Nat := s.trace.countP PamEvent.isTry

/-- **A condition that is about the status of the account** and about calls of `pam_acct_mgmt`. -/
structure Indifferent (P : State → Prop) : Prop where
  call : ∀ (s : State) c handle err, c ≠ .acctMgmt → P s → P { s with trace := s.trace ++ [.call c handle err] }
  forked : ∀ (s : State) thread, s.account.accountStatus ≠ 0 → P s → P { s with trace := s.trace ++ [.forked thread] }
  joined : ∀ (s : State) thread, P s → P { s with trace := s.trace ++ [.joined thread] }
  fields : ∀ s t : State, P s → t.account.accountStatus = s.account.accountStatus → t.trace = s.trace → P t

variable {L : PamLibrary} {C : Config} {P E : State → Prop} {c : PamCall} {user : Text}

section Indifferent

variable (hP : Indifferent P)

include hP

/-- A call that does not ask about the account keeps it. -/
theorem Indifferent.pamCall (hc : c ≠ .acctMgmt) : Triple P (pamCall L c) (fun _ => P) E :=
  pamCall_triple fun s hs => hP.call s c s.handle _ hc hs

/-- Setting `sshpam_err` keeps it. -/
theorem Indifferent.setErr (err : PamErr) : Triple P (setErr err) (fun _ => P) E :=
  Triple.modify fun s hs => hP.fields s _ hs rfl rfl

/-- Starting a transaction keeps it. -/
theorem Indifferent.pamStart : Triple P (pamStart L user) (fun _ => P) E := by
  refine Triple.get fun s hs => Triple.bind (R := fun _ => P) (Triple.modify ?_) fun _ => Triple.pure fun _ hs => hs
  rintro t rfl
  exact hP.fields _ _ (hP.call t (.start user) _ _ nofun hs) rfl rfl

/-- Ending a transaction keeps it: the answer about the account is not forgotten. -/
theorem Indifferent.pamEnd : Triple P (pamEnd L) (fun _ => P) E :=
  Triple.bind (hP.pamCall nofun) fun _ => Triple.modify fun s hs => hP.fields s _ hs rfl rfl

/-- Setting an item keeps it, also where it ends the process. -/
theorem Indifferent.setItemOrFatal (item : Item) (text : Text) :
    Triple P (setItemOrFatal L item text) (fun _ => P) P :=
  Triple.bind (hP.pamCall nofun) fun err => Triple.bind (hP.setErr err) fun _ =>
    Triple.ensure (fun _ hs _ => hs) fun _ hs => hs

/-- An item that cannot be set ends the transaction, which keeps it. -/
theorem Indifferent.setItemOrEnd (item : Item) : Triple P (setItemOrEnd L item) (fun _ => P) E :=
  Triple.bind (hP.pamCall nofun) fun err => Triple.bind (hP.setErr err) fun _ =>
    Triple.ite (fun _ => Triple.pure fun _ hs => hs) fun _ => Triple.bind hP.pamEnd fun _ => Triple.pure fun _ hs => hs

/-- Leaving the transaction of another user keeps it. -/
theorem Indifferent.matchContext : Triple P (matchContext L user) (fun _ => P) E := by
  refine Triple.get_keep fun s _ => Triple.ite (fun _ => Triple.pure fun _ hs => hs) fun _ => ?_
  refine Triple.bind (hP.pamCall nofun) fun err => Triple.bind (hP.setErr err) fun _ => ?_
  exact Triple.ite (fun _ => Triple.pure fun _ hs => hs) fun _ => Triple.bind hP.pamEnd fun _ =>
    Triple.pure fun _ hs => hs

/-- A new transaction keeps it. -/
theorem Indifferent.startContext : Triple P (startContext L C user) (fun _ => P) E := by
  refine Triple.bind hP.pamStart fun err => Triple.bind (hP.setErr err) fun _ => ?_
  refine Triple.bind (R := fun _ => P) (Triple.modify fun s hs => hP.fields s _ hs rfl rfl) fun _ => ?_
  refine Triple.ite (fun _ => Triple.bind hP.pamEnd fun _ => Triple.pure fun _ hs => hs) fun _ => ?_
  exact Triple.bind (hP.setItemOrEnd .rhost) fun r =>
    Triple.ite (fun _ => hP.setItemOrEnd .tty) fun _ => Triple.pure fun _ hs => hs

/-- `sshpam_init` keeps it, whoever the user is. -/
theorem Indifferent.sshpamInit : Triple P (sshpamInit L C user) (fun _ => P) E :=
  Triple.bind hP.matchContext fun _ => Triple.ite (fun _ => Triple.pure fun _ hs => hs) fun _ => hP.startContext

/-- `sshpam_cleanup` keeps it. -/
theorem Indifferent.sshpamCleanup : Triple P (sshpamCleanup L C) (fun _ => P) E := by
  refine Triple.get_keep fun s _ => Triple.ite (fun _ => Triple.pure fun _ hs => hs) fun _ => ?_
  have hforget : ∀ g : State → State, (∀ s, (g s).account = s.account ∧ (g s).trace = s.trace) →
      Triple P (modify g : Script PUnit) (fun _ => P) E := fun g hg =>
    Triple.modify fun s hs => hP.fields s _ hs (by rw [(hg s).1]) (hg s).2
  have hundo : ∀ (b : State → Bool) (m : Script PUnit), Triple P m (fun _ => P) E →
      Triple P (get >>= fun s => if b s then m else pure ⟨⟩) (fun _ => P) E := fun b m hm =>
    Triple.get_keep fun s _ => Triple.ite (fun _ => hm) fun _ => Triple.pure fun _ hs => hs
  refine Triple.bind (hP.pamCall nofun) fun _ => Triple.bind (R := fun _ => P) ?_ fun _ =>
    Triple.bind (R := fun _ => P) ?_ fun _ => Triple.bind (hforget _ fun _ => ⟨rfl, rfl⟩) fun _ => hP.pamEnd
  · exact hundo State.sessionOpen _ (Triple.bind (hP.pamCall nofun) fun _ => hforget _ fun _ => ⟨rfl, rfl⟩)
  · exact hundo State.credEstablished _ (Triple.bind (hP.pamCall nofun) fun _ => hforget _ fun _ => ⟨rfl, rfl⟩)

/-- The status of the account can be known beside it. -/
theorem Indifferent.and_status : Indifferent fun s => P s ∧ s.account.accountStatus ≠ 0 where
  call s c handle err hc hs := ⟨hP.call s c handle err hc hs.1, hs.2⟩
  forked s thread hstatus hs := ⟨hP.forked s thread hstatus hs.1, hs.2⟩
  joined s thread hs := ⟨hP.joined s thread hs.1, hs.2⟩
  fields s t hs hstatus htrace := ⟨hP.fields s t hs.1 hstatus htrace, hstatus ▸ hs.2⟩

/-- A process is started unless the account has been refused. -/
theorem Indifferent.sshpamInitCtx : Triple P (sshpamInitCtx L C user) (fun _ => P) E := by
  refine Triple.get fun s hs => Triple.ite (fun _ => Triple.pure fun t ht => ht ▸ hs) fun hguard => ?_
  have hstatus : s.account.accountStatus ≠ 0 := fun h => hguard (by rw [h, decide_eq_true rfl, Bool.or_true])
  refine Triple.pre (R := fun t => P t ∧ t.account.accountStatus ≠ 0) ?_ fun t ht => ht ▸ ⟨hs, hstatus⟩
  refine Triple.bind hP.and_status.sshpamInit fun r => Triple.ite (fun _ => Triple.pure fun _ ht => ht.1) fun _ => ?_
  refine Triple.get fun t ht => Triple.ite (fun _ => ?_) fun _ => Triple.pure fun u hu => hu ▸ ht.1
  refine Triple.bind (R := fun _ => P) (Triple.modify ?_) fun _ => Triple.pure fun _ hu => hu
  rintro u rfl
  exact hP.fields _ _ (hP.forked u _ ht.2 ht.1) rfl rfl

/-- The flags about the password are no matter. -/
theorem Indifferent.passwordChangeRequired (reqd : Int) : Triple P (passwordChangeRequired reqd) (fun _ => P) P := by
  refine Triple.get_keep fun s _ => ?_
  refine Triple.bind (R := fun _ => P) (Triple.ensure (fun _ hs _ => hs) fun _ hs => hs) fun _ => ?_
  exact Triple.modify fun s hs => hP.fields s _ hs rfl rfl

end Indifferent

/-- What the calls do that are not about the account. -/
theorem Op.indifferent (hP : Indifferent P) {op : Op} (haccount : op ≠ .account) (hexpired : op ≠ .expired)
    (himported : ∀ e, op ≠ .imported e) : Triple P (op.script L C) (fun _ => P) P := by
  cases op with
  | account => exact absurd rfl haccount
  | expired => exact absurd rfl hexpired
  | imported e => exact absurd rfl (himported e)
  | startPam user =>
    refine Triple.bind (R := fun _ => P) (Triple.ensure (fun _ hs _ => hs) fun _ hs => hs) fun _ => ?_
    exact Triple.bind hP.sshpamInit fun r => Triple.ensure (fun _ hs _ => hs) fun _ hs => hs
  | finishPam => exact hP.sshpamCleanup
  | setTty tty => exact Triple.ite (fun _ => hP.setItemOrFatal _ _) fun _ => Triple.pure fun _ hs => hs
  | setcred init =>
    refine Triple.bind (hP.setItemOrFatal _ _) fun _ => Triple.bind (hP.pamCall nofun) fun err => ?_
    refine Triple.bind (hP.setErr err) fun _ => Triple.ite (fun _ => Triple.modify fun s hs =>
      hP.fields s _ hs rfl rfl) fun _ => ?_
    exact Triple.get_keep fun s _ => Triple.ensure (fun _ hs _ => hs) fun _ hs => hs
  | chauthtok =>
    refine Triple.bind (R := fun _ => P) (Triple.ensure (fun _ hs _ => hs) fun _ hs => hs) fun _ => ?_
    refine Triple.bind (hP.setItemOrFatal _ _) fun _ => Triple.bind (hP.pamCall nofun) fun err => ?_
    exact Triple.bind (hP.setErr err) fun _ => Triple.ensure (fun _ hs _ => hs) fun _ hs => hs
  | session =>
    refine Triple.bind (hP.setItemOrFatal _ _) fun _ => Triple.bind (hP.pamCall nofun) fun err => ?_
    exact Triple.bind (hP.setErr err) fun _ => Triple.modify fun s hs => hP.fields s _ hs rfl rfl
  | putenv name value => exact Triple.bind (hP.pamCall nofun) fun _ => Triple.pure fun _ hs => hs
  | fetchEnvironment => exact Triple.bind (hP.pamCall nofun) fun _ => Triple.pure fun _ hs => hs
  | authPasswd user =>
    refine discard_triple (Triple.get_keep fun s _ => ?_)
    refine Triple.bind (R := fun _ => P) (Triple.ensure (fun _ hs _ => hs) fun _ hs => hs) fun _ => ?_
    refine Triple.bind (R := fun _ => P) (Triple.modify fun s hs => hP.fields s _ hs rfl rfl) fun _ => ?_
    exact Triple.bind (hP.setItemOrFatal _ _) fun _ => Triple.bind (hP.pamCall nofun) fun err =>
      Triple.bind (hP.setErr err) fun _ => Triple.pure fun _ hs => hs
  | initCtx user => exact discard_triple hP.sshpamInitCtx
  | freeCtx =>
    refine Triple.get_keep fun s _ => ?_
    split
    · exact Triple.modify fun s hs => hP.fields _ _ (hP.joined s _ hs) rfl rfl
    · exact Triple.pure fun _ hs => hs
  | accepted => exact Triple.modify fun s hs => hP.fields s _ hs rfl rfl

/-! ## What is asked -/

/-- The library has been asked about one account at most, and the answer is remembered. -/
def Asked (s : State) : Prop := asks s ≤ 1 ∧ (s.account.accountStatus = -1 → asks s = 0)

/-- The account has been refused, and this is all that has been tried. -/
def Refused (n : Nat) (s : State) : Prop := s.account.accountStatus = 0 ∧ tries s = n

/-- What is not counted does not count. -/
theorem countP_concat {p : PamEvent → Bool} {e : PamEvent} (he : p e = false) (trace : List PamEvent) :
    (trace ++ [e]).countP p = trace.countP p := by
  rw [List.countP_append, List.countP_singleton, he, if_neg Bool.false_ne_true, Nat.add_zero]

/-- A call other than `pam_acct_mgmt` is not counted. -/
theorem isAsk_call (hc : c ≠ .acctMgmt) (handle : Option Nat) (err : PamErr) :
    PamEvent.isAsk (.call c handle err) = false ∧ PamEvent.isTry (.call c handle err) = false := by
  cases c with
  | acctMgmt => exact absurd rfl hc
  | _ => exact ⟨rfl, rfl⟩

/-- Conditions on how often the library has been asked and on the answer that is remembered. -/
theorem indifferent_asks (Q : Nat → Int → Prop) : Indifferent fun s => Q (asks s) s.account.accountStatus where
  call s c handle err hc hs := by
    rwa [asks, countP_concat (isAsk_call hc handle err).1]
  forked s thread _ hs := by
    rwa [asks, countP_concat rfl]
  joined s thread hs := by
    rwa [asks, countP_concat rfl]
  fields s t hs hstatus htrace := by
    rwa [asks, hstatus, htrace]

/-- Being asked about once is such a condition. -/
theorem indifferent_asked : Indifferent Asked := indifferent_asks fun n status => n ≤ 1 ∧ (status = -1 → n = 0)

/-- So is a refusal after which nothing has been tried. -/
theorem indifferent_refused (n : Nat) : Indifferent (Refused n) where
  call s c handle err hc hs := by
    rwa [Refused, tries, countP_concat (isAsk_call hc handle err).2]
  forked s thread hstatus hs := absurd hs.1 hstatus
  joined s thread hs := by
    rwa [Refused, tries, countP_concat rfl]
  fields s t hs hstatus htrace := by
    rwa [Refused, tries, hstatus, htrace]

/-- The answer is remembered unless the process ends. -/
theorem doPamAccount_asked : Triple Asked (doPamAccount L) (fun _ => Asked) fun s => asks s ≤ 1 := by
  refine Triple.get fun s hs => Triple.ite (fun _ => Triple.pure fun t ht => ht ▸ hs) fun hstatus => ?_
  have honce : Indifferent fun t => asks t ≤ 1 := indifferent_asks fun n _ => n ≤ 1
  have hanswer : ∀ status : Int, status ≠ -1 → Triple (fun t => asks t ≤ 1) (modify fun s : State =>
      { s with account := { s.account with accountStatus := status } } : Script PUnit) (fun _ => Asked)
      fun s => asks s ≤ 1 := fun status hne => Triple.modify fun t ht => ⟨ht, fun h => absurd h hne⟩
  refine Triple.bind (R := fun _ t => asks t ≤ 1) (pamCall_triple ?_) fun err =>
    Triple.bind (honce.setErr err) fun _ => ?_
  · rintro t rfl
    have hasked : asks t = 0 := hs.2 (not_not.mp hstatus)
    rw [asks, List.countP_append, List.countP_singleton]
    exact Nat.add_le_add (Nat.le_of_eq hasked) (Nat.le_refl 1)
  · refine Triple.ite (fun _ => Triple.bind (hanswer 0 (by decide)) fun _ => Triple.pure fun _ ht => ht) fun _ => ?_
    refine Triple.bind (R := fun _ t => asks t ≤ 1) (Triple.ite (fun _ => honce.passwordChangeRequired 1) fun _ =>
      Triple.pure fun _ ht => ht) fun _ => ?_
    exact Triple.bind (hanswer 1 (by decide)) fun _ => Triple.pure fun _ ht => ht

/-- An answer of another process is remembered as well. -/
theorem importEnvironments_asked {e : Export} (he : e.accountStatus ≠ -1) :
    Triple Asked (importEnvironments L e) (fun _ => Asked) Asked := by
  have hasked := indifferent_asked
  refine Triple.bind (R := fun _ => Asked) (Triple.modify fun s hs => ⟨hs.1, fun h => absurd h he⟩) fun _ => ?_
  refine Triple.bind (hasked.passwordChangeRequired _) fun _ => ?_
  refine Triple.bind (R := fun _ => Asked) (Triple.ensure (fun _ hs _ => hs) fun _ hs => hs) fun _ => ?_
  refine Triple.bind (R := fun _ => Asked) (Triple.modify fun s hs => hasked.fields s _ hs rfl rfl) fun _ => ?_
  exact Triple.forM _ fun env _ => Triple.bind (hasked.pamCall nofun) fun _ => Triple.pure fun _ hs => hs

/-- No call asks a second time. -/
theorem Op.asked {op : Op} (himported : ∀ e, op = .imported e → e.accountStatus ≠ -1) :
    Triple Asked (op.script L C) (fun _ => Asked) fun s => asks s ≤ 1 := by
  by_cases haccount : op = .account
  · subst haccount
    exact discard_triple doPamAccount_asked
  by_cases hexpired : op = .expired
  · subst hexpired
    exact Triple.modify fun s hs => ⟨hs.1, nofun⟩
  by_cases himport : ∃ e, op = .imported e
  · obtain ⟨e, rfl⟩ := himport
    exact (importEnvironments_asked (himported e rfl)).mono (fun _ _ hs => hs) fun _ hs => hs.1
  · exact (Op.indifferent indifferent_asked haccount hexpired fun e he => himport ⟨e, he⟩).mono (fun _ _ hs => hs)
      fun _ hs => hs.1

/-- Nothing is tried after a refusal. -/
theorem Op.refused {op : Op} (himported : ∀ e, op ≠ .imported e) (n : Nat) :
    Triple (Refused n) (op.script L C) (fun _ => Refused n) (Refused n) := by
  by_cases haccount : op = .account
  · subst haccount
    refine discard_triple (Triple.get fun s hs => Triple.ite (fun _ => Triple.pure fun t ht => ht ▸ hs)
      fun hstatus => ?_)
    rw [hs.1] at hstatus
    exact absurd (by decide) hstatus
  by_cases hexpired : op = .expired
  · subst hexpired
    exact Triple.modify fun s hs => ⟨rfl, hs.2⟩
  · exact Op.indifferent (indifferent_refused n) haccount hexpired himported

/-- **The account is asked about once, and a refusal is final**, whoever the user is: whatever is called, and however
often another user is tried, the library is asked at most once; when the account has been refused, it is not asked again
and no process is started that could say something else. -/
theorem account_asked_once (L : PamLibrary) (C : Config) (ops : List Op)
    (himported : ∀ e, .imported e ∈ ops → e.accountStatus ≠ -1) :
    asks (run (script L C ops) .start).2 ≤ 1 ∧
    ∀ (s : State) (later : List Op), s.account.accountStatus = 0 → (∀ e, .imported e ∉ later) →
      (run (script L C later) s).2.account.accountStatus = 0 ∧ tries (run (script L C later) s).2 = tries s := by
  refine ⟨?_, fun s later hstatus hlater => ?_⟩
  · have hloop : Triple Asked (script L C ops) (fun _ => Asked) fun s => asks s ≤ 1 :=
      Triple.forM ops fun op hop => Op.asked fun e he => himported e (he ▸ hop)
    exact hloop.of_run (fun _ _ hs => hs.1) (fun _ hs => hs) ⟨Nat.zero_le 1, fun _ => rfl⟩
  · have hloop : Triple (Refused (tries s)) (script L C later) (fun _ => Refused (tries s)) (Refused (tries s)) :=
      Triple.forM later fun op hop => Op.refused (fun e he => hlater e (he ▸ hop)) _
    exact hloop.of_run (fun _ _ hs => hs) (fun _ hs => hs) ⟨hstatus, rfl⟩

/-- A library that refuses every account. -/
def refusing : PamLibrary where
  err _ c := if c = .acctMgmt then .acctExpired else .success
  user _ := "gex".toList
  fork _ := true
  strerror _ := "Permission denied".toList

/-- A refused account, and then a second user who is not asked about. -/
theorem account_asked_once_refused :
    let C : Config := ⟨true, true, true, false⟩
    let s := (run (script refusing C [.startPam "gex".toList, .account]) .start).2
    let later : List Op := [.startPam "root".toList, .account, .initCtx "root".toList]
    asks s ≤ 1 ∧ s.account.accountStatus = 0 ∧ tries s = 1 ∧ tries (run (script refusing C later) s).2 = tries s := by
  intro C s later
  have h := account_asked_once refusing C [.startPam "gex".toList, .account] (fun e he => by simp at he)
  have hstatus : s.account.accountStatus = 0 := by decide
  exact ⟨h.1, hstatus, by decide, (h.2 s later hstatus (fun e he => by simp [later] at he)).2⟩

end GexCloud.Ssh.AuthPam
