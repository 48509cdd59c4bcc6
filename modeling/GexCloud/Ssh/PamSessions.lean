import GexCloud.Ssh.PamTransaction

/-! # `auth-pam.c`: sessions, credentials and processes

`sshpam_cleanup` closes the session and deletes the credentials that the flags tell of, and `sshpam_thread_cleanup`
waits for the process that `cleanup_ctxt` points to. The flags survive a transaction that is ended for another user.

* `sessionEntry`, `credEntry`, `threadEntry` — what is opened, established and started, and what is undone.
* `Settled` — what is remembered is what there is.
* `Op.Orderly`, `OrderlyRun` — calls that lose nothing.
* **`all_undone`** — after calls that lose nothing, however they end, the two functions undo all that was done, on the
  transaction on which it was done. -/

namespace GexCloud.Ssh.AuthPam

open Texts Scripts Ledgers

variable {L : PamLibrary} {C : Config} {c : PamCall} {user : Text}

/-! ## The ledgers -/

/-- The entry of an event in the ledger of sessions. With its transaction a session is lost. -/
def sessionEntry : PamEvent → Option (Entry Nat)
  | .call .openSession handle .success => handle.map .acquire
  | .call .closeSession handle _ => handle.map .release
  | .call .end_ handle _ => handle.map .without
  | _ => none

/-- The entry of an event in the ledger of credentials. -/
def credEntry : PamEvent → Option (Entry Nat)
  | .call (.setcred .delete) handle _ => handle.map .release
  | .call (.setcred _) handle .success => handle.map .renew
  | .call .end_ handle _ => handle.map .without
  | _ => none

/-- The entry of an event in the ledger of processes. -/
def threadEntry : PamEvent → Option (Entry Nat)
  | .forked thread => some (.acquire thread)
  | .joined thread => some (.release thread)
  | _ => none

/-- **What is remembered is what there is**: the session and the credentials are those of the transaction, and the
process is the one that runs. -/
structure Settled (s : State) : Prop where
  sessions : Tracks (if s.sessionOpen then s.handle else none) (s.trace.filterMap sessionEntry)
  creds : Tracks (if s.credEstablished then s.handle else none) (s.trace.filterMap credEntry)
  threads : Tracks s.cleanupCtxt (s.trace.filterMap threadEntry)
  sessionHandle : s.sessionOpen = true → s.handle.isSome = true
  credHandle : s.credEstablished = true → s.handle.isSome = true

/-- It is settled, with these flags and this process. -/
structure At (sessionOpen credEstablished : Bool) (cleanupCtxt : Option Nat) (s : State) : Prop where
  settled : Settled s
  session : s.sessionOpen = sessionOpen
  cred : s.credEstablished = credEstablished
  ctxt : s.cleanupCtxt = cleanupCtxt

/-- Whatever the flags and the process are, they are so. -/
theorem Settled.at (h : Settled s) : At s.sessionOpen s.credEstablished s.cleanupCtxt s := ⟨h, rfl, rfl, rfl⟩

variable {s t : State} {session cred : Bool} {ctxt : Option Nat} {E : State → Prop}

/-- **One more event**: what the ledgers come to, and what is to be remembered then. -/
theorem Settled.event (h : Settled s) {e : PamEvent}
    (hsession : follow (if s.sessionOpen then s.handle else none) (sessionEntry e).toList =
      some (if session then s.handle else none))
    (hcred : follow (if s.credEstablished then s.handle else none) (credEntry e).toList =
      some (if cred then s.handle else none))
    (hthread : follow s.cleanupCtxt (threadEntry e).toList = some ctxt)
    (hhandle : session = true ∨ cred = true → s.handle.isSome = true) :
    Settled { s with
      sessionOpen := session, credEstablished := cred, cleanupCtxt := ctxt, trace := s.trace ++ [e] } where
  sessions := h.sessions.event hsession
  creds := h.creds.event hcred
  threads := h.threads.event hthread
  sessionHandle hs := hhandle (.inl hs)
  credHandle hs := hhandle (.inr hs)

/-- An event that is no matter for what is held. -/
theorem Settled.event_none (h : Settled s) {e : PamEvent} (hsession : sessionEntry e = none)
    (hcred : credEntry e = none) (hthread : threadEntry e = none) : Settled { s with trace := s.trace ++ [e] } := by
  refine h.event ?_ ?_ ?_ fun hheld => hheld.elim h.sessionHandle h.credHandle
  · rw [hsession]
    rfl
  · rw [hcred]
    rfl
  · rw [hthread]
    rfl

/-- Plain calls hold nothing and release nothing. -/
theorem stable_settled : Stable Settled where
  plain s c err hc hs := by
    refine hs.event_none ?_ ?_ rfl
    · cases c <;> first | rfl | cases hc
    · cases c <;> first | rfl | cases hc
  fields s t hs hhandle hsession hcred hctxt htrace := by
    obtain ⟨hsessions, hcreds, hthreads, hsessionHandle, hcredHandle⟩ := hs
    refine ⟨?_, ?_, ?_, ?_, ?_⟩
    · rwa [hsession, hhandle, htrace]
    · rwa [hcred, hhandle, htrace]
    · rwa [hctxt, htrace]
    · rwa [hsession, hhandle]
    · rwa [hcred, hhandle]

/-- Plain calls leave the flags and the process as they are. -/
theorem stable_at : Stable (At session cred ctxt) where
  plain s c err hc hs := ⟨stable_settled.plain s c err hc hs.settled, hs.session, hs.cred, hs.ctxt⟩
  fields s t hs hhandle hsession hcred hctxt htrace :=
    ⟨stable_settled.fields s t hs.settled hhandle hsession hcred hctxt htrace, hsession.trans hs.session,
      hcred.trans hs.cred, hctxt.trans hs.ctxt⟩

/-! ## Where nothing is held -/

/-- A transaction on which nothing is held can be ended and another one started. -/
theorem At.setHandle (hs : At false false ctxt s) (handle : Option Nat) :
    At false false ctxt { s with handle := handle } := by
  obtain ⟨⟨hsessions, hcreds, hthreads, -, -⟩, hsession, hcred, hctxt⟩ := hs
  rw [hsession] at hsessions
  rw [hcred] at hcreds
  refine ⟨⟨?_, ?_, hthreads, fun h => ?_, fun h => ?_⟩, hsession, hcred, hctxt⟩
  · rwa [hsession]
  · rwa [hcred]
  · exact absurd (hsession.symm.trans h) Bool.false_ne_true
  · exact absurd (hcred.symm.trans h) Bool.false_ne_true

/-- The transaction is ended when nothing is left of it. -/
theorem pamEnd_at : Triple (At false false ctxt) (pamEnd L) (fun _ s => At false false ctxt s ∧ s.handle = none) E := by
  refine Triple.bind (R := fun _ => At false false ctxt) (pamCall_triple fun s hs => ?_) fun _ =>
    Triple.modify fun s hs => ⟨hs.setHandle none, rfl⟩
  have hwithout : follow (none : Option Nat) (s.handle.map Entry.without).toList = some none := by
    cases s.handle <;> rfl
  refine ⟨hs.settled.event ?_ ?_ rfl fun hheld => hheld.elim hs.settled.sessionHandle hs.settled.credHandle,
    hs.session, hs.cred, hs.ctxt⟩
  · rw [hs.session]
    exact hwithout
  · rw [hs.cred]
    exact hwithout

/-- A transaction is started when nothing is held on another one. -/
theorem pamStart_at : Triple (At false false ctxt) (pamStart L user) (fun _ => At false false ctxt) E := by
  refine Triple.get fun s hs => ?_
  refine Triple.bind (R := fun _ => At false false ctxt) (Triple.modify ?_) fun _ => Triple.pure fun _ hs => hs
  rintro t rfl
  have hevent : ∀ e, sessionEntry e = none → credEntry e = none → threadEntry e = none →
      At false false ctxt { t with trace := t.trace ++ [e] } := fun e h₁ h₂ h₃ =>
    ⟨hs.settled.event_none h₁ h₂ h₃, hs.session, hs.cred, hs.ctxt⟩
  exact (hevent (.call (.start user) _ _) rfl rfl rfl).setHandle _

/-- An item that cannot be set ends a transaction on which nothing is held. -/
theorem setItemOrEnd_at (item : Item) :
    Triple (At false false ctxt) (setItemOrEnd L item) (fun _ => At false false ctxt) E :=
  Triple.bind (stable_at.pamCall rfl) fun err => Triple.bind (stable_at.setErr err) fun _ =>
    Triple.ite (fun _ => Triple.pure fun _ hs => hs) fun _ => Triple.bind pamEnd_at fun _ =>
    Triple.pure fun _ hs => hs.1

/-- A new transaction, on which nothing is held. -/
theorem startContext_at :
    Triple (At false false ctxt) (startContext L C user) (fun _ => At false false ctxt) E := by
  refine Triple.bind pamStart_at fun err => Triple.bind (stable_at.setErr err) fun _ => ?_
  refine Triple.bind (R := fun _ => At false false ctxt)
    (Triple.modify fun s hs => stable_at.fields s _ hs rfl rfl rfl rfl rfl) fun _ => ?_
  refine Triple.ite (fun _ => Triple.bind pamEnd_at fun _ => Triple.pure fun _ hs => hs.1) fun _ => ?_
  exact Triple.bind (setItemOrEnd_at .rhost) fun r =>
    Triple.ite (fun _ => setItemOrEnd_at .tty) fun _ => Triple.pure fun _ hs => hs

/-! ## A transaction for another user -/

/-- The transaction is for the user. -/
def Matches (L : PamLibrary) (user : Text) (s : State) : Prop :=
  s.handle.isSome = true ∧ L.err s.trace (.getItem .user) = .success ∧ L.user s.trace = user

/-- Nothing is lost when the user is another one. -/
def Suits (L : PamLibrary) (user : Text) (s : State) : Prop :=
  s.sessionOpen = true ∨ s.credEstablished = true → Matches L user s

/-- The flags are not set when there is no transaction. -/
theorem Settled.flags_of_isNone (h : Settled s) (hnone : s.handle.isNone = true) :
    s.sessionOpen = false ∧ s.credEstablished = false := by
  rw [Option.isNone_iff_eq_none] at hnone
  refine ⟨Bool.eq_false_iff.mpr fun hsession => ?_, Bool.eq_false_iff.mpr fun hcred => ?_⟩
  · simpa [hnone] using h.sessionHandle hsession
  · simpa [hnone] using h.credHandle hcred

/-- A transaction on which something is held is kept when it is for the user. -/
theorem matchContext_of_matches (hs : At session cred ctxt s) (hmatches : Matches L user s) :
    (∀ matched t, Returns (matchContext L user) s matched t → matched = true ∧ At session cred ctxt t) ∧
    ∀ e t, run (matchContext L user) s = (.error e, t) → At session cred ctxt t := by
  obtain ⟨hhandle, herr, huser⟩ := hmatches
  have hanswer : answer L s (.getItem .user) = .success := by
    rw [answer, if_neg (by simpa [Option.isSome_iff_ne_none] using hhandle), herr]
  refine Triple.get (P := fun t => t = s) (fun t ht => Triple.ite (fun hnone => ?_) fun _ => ?_) s rfl
  · rw [ht] at hnone
    simp [Option.isNone_iff_eq_none.mp hnone] at hhandle
  · subst ht
    refine Triple.bind (R := fun err u => err = .success ∧ At session cred ctxt u) (pamCall_triple ?_) fun err => ?_
    · rintro u rfl
      exact ⟨hanswer, stable_at.plain u _ _ rfl hs⟩
    · rintro u ⟨rfl, hu⟩
      refine (Triple.bind (stable_at.setErr _) fun _ => Triple.ite (fun _ => Triple.pure fun v hv => ⟨rfl, hv⟩)
        fun hne => absurd ⟨rfl, huser⟩ hne) u hu

/-- A transaction on which nothing is held is kept or ended. -/
theorem matchContext_at :
    Triple (At false false ctxt) (matchContext L user) (fun _ => At false false ctxt) E := by
  refine Triple.get_keep fun s hs => Triple.ite (fun _ => Triple.pure fun _ hs => hs) fun _ => ?_
  refine Triple.bind (stable_at.pamCall rfl) fun err => Triple.bind (stable_at.setErr err) fun _ => ?_
  exact Triple.ite (fun _ => Triple.pure fun _ hs => hs) fun _ => Triple.bind pamEnd_at fun _ =>
    Triple.pure fun _ hs => hs.1

/-- **A transaction for a user** that suits: the one that there is, or, when nothing is held, another one. -/
theorem sshpamInit_at : Triple (fun s => At session cred ctxt s ∧ Suits L user s) (sshpamInit L C user)
    (fun _ => At session cred ctxt) (At session cred ctxt) := by
  rintro s ⟨hs, hsuits⟩
  by_cases hheld : session = true ∨ cred = true
  · have hmatches : Matches L user s := hsuits (by rwa [hs.session, hs.cred])
    refine Triple.bind (P := fun t => t = s) (R := fun matched t => matched = true ∧ At session cred ctxt t) ?_
      (fun matched => ?_) s rfl
    · rintro t rfl
      exact matchContext_of_matches hs hmatches
    · rintro t ⟨rfl, ht⟩
      exact (Triple.pure fun _ hs => hs : Triple (At session cred ctxt) (pure (0 : Int)) (fun _ => _) _) t ht
  · obtain ⟨hsession, hcred⟩ := not_or.mp hheld
    rw [Bool.not_eq_true] at hsession hcred
    subst hsession hcred
    exact Triple.bind (Q := fun _ => At false false ctxt) matchContext_at
      (fun _ => Triple.ite (fun _ => Triple.pure fun _ hs => hs) fun _ => startContext_at) s hs

/-! ## What is held and what is released -/

/-- A call that comes to a success was made on a transaction. -/
theorem handle_of_answer {s : State} (h : answer L s c = .success) : s.handle.isSome = true := by
  rw [answer] at h
  split at h
  · cases h
  · exact Option.isSome_iff_ne_none.mpr fun hnone => ‹¬ s.handle.isNone = true› (Option.isNone_iff_eq_none.mpr hnone)

/-- The session is closed on its transaction. -/
theorem closeSession_at :
    Triple (At session cred ctxt) (closeSession L) (fun _ => At false cred ctxt) E := by
  refine Triple.get fun s hs => Triple.ite (fun hopen => ?_) fun hclosed => Triple.pure ?_
  · refine Triple.bind (R := fun _ t => At false cred ctxt { t with sessionOpen := false }) (pamCall_triple ?_) fun _ =>
      Triple.modify fun _ ht => ht
    rintro t rfl
    obtain ⟨handle, hhandle⟩ := Option.isSome_iff_exists.mp (hs.settled.sessionHandle hopen)
    refine ⟨hs.settled.event ?_ rfl rfl ?_, rfl, hs.cred, hs.ctxt⟩
    · simp [hopen, hhandle, sessionEntry, follow, post]
    · exact fun _ => by rw [hhandle, Option.isSome_some]
  · rintro t rfl
    rw [Bool.not_eq_true] at hclosed
    exact ⟨hs.settled, hclosed, hs.cred, hs.ctxt⟩

/-- The credentials are deleted on their transaction. -/
theorem deleteCred_at : Triple (At session cred ctxt) (deleteCred L) (fun _ => At session false ctxt) E := by
  refine Triple.get fun s hs => Triple.ite (fun hestablished => ?_) fun hdeleted => Triple.pure ?_
  · refine Triple.bind (R := fun _ t => At session false ctxt { t with credEstablished := false }) (pamCall_triple ?_)
      fun _ => Triple.modify fun _ ht => ht
    rintro t rfl
    obtain ⟨handle, hhandle⟩ := Option.isSome_iff_exists.mp (hs.settled.credHandle hestablished)
    refine ⟨hs.settled.event rfl ?_ rfl ?_, hs.session, rfl, hs.ctxt⟩
    · simp [hestablished, hhandle, credEntry, follow, post]
    · exact fun _ => by rw [hhandle, Option.isSome_some]
  · rintro t rfl
    rw [Bool.not_eq_true] at hdeleted
    exact ⟨hs.settled, hs.session, hdeleted, hs.ctxt⟩

/-- **`sshpam_cleanup` undoes what was done on the transaction.** -/
theorem sshpamCleanup_at (hC : (C.usePrivsep && !C.isMonitor) = false) : Triple (At session cred ctxt)
    (sshpamCleanup L C) (fun _ s => At false false ctxt s ∧ s.handle = none) E := by
  refine Triple.get fun s hs => Triple.ite (fun hnone => Triple.pure ?_) fun _ => ?_
  · rintro t rfl
    rw [hC, Bool.or_false] at hnone
    obtain ⟨hsession, hcred⟩ := hs.settled.flags_of_isNone hnone
    exact ⟨⟨hs.settled, hsession, hcred, hs.ctxt⟩, Option.isNone_iff_eq_none.mp hnone⟩
  · refine Triple.pre (R := At session cred ctxt) ?_ fun t ht => ht ▸ hs
    refine Triple.bind (stable_at.pamCall rfl) fun _ => Triple.bind closeSession_at fun _ =>
      Triple.bind deleteCred_at fun _ => ?_
    refine Triple.bind (R := fun _ => At false false ctxt)
      (Triple.modify fun s hs => stable_at.fields s _ hs rfl rfl rfl rfl rfl) fun _ => ?_
    exact pamEnd_at

/-- Credentials are entered only when the call has succeeded. -/
theorem credEntry_setcred (init : Bool) (handle : Option Nat) (err : PamErr) :
    credEntry (.call (.setcred (if init then .establish else .reinit)) handle err) =
      if err = .success then handle.map .renew else none := by
  cases init <;> cases err <;> rfl

/-- A session is entered only when the call has succeeded. -/
theorem sessionEntry_openSession (handle : Option Nat) (err : PamErr) :
    sessionEntry (.call .openSession handle err) = if err = .success then handle.map .acquire else none := by
  cases err <;> rfl

/-- Credentials are established once, and renewed after that. -/
theorem doPamSetcred_settled (init : Bool) : Triple Settled (doPamSetcred L init) (fun _ => Settled) Settled := by
  have hkept : ∀ (err err' : PamErr) (s : State),
      Settled { s with credEstablished := decide (err = .success) || s.credEstablished } →
      Settled { s with err := err', credEstablished := decide (err = .success) || s.credEstablished } :=
    fun err err' s hs => stable_settled.fields _ _ hs rfl rfl rfl rfl rfl
  refine Triple.bind (stable_settled.setItemOrFatal _ _) fun _ => ?_
  refine Triple.bind (R := fun err t => Settled { t with
    credEstablished := decide (err = .success) || t.credEstablished })
    (pamCall_triple fun s hs => hs.event rfl ?_ rfl ?_) fun err => ?_
  · rw [credEntry_setcred]
    by_cases hsuccess : answer L s (.setcred (if init then .establish else .reinit)) = .success
    · obtain ⟨handle, hhandle⟩ := Option.isSome_iff_exists.mp (handle_of_answer hsuccess)
      rw [if_pos hsuccess, hhandle, decide_eq_true hsuccess, Bool.true_or]
      cases s.credEstablished <;> simp [follow, post]
    · rw [if_neg hsuccess, decide_eq_false hsuccess, Bool.false_or]
      rfl
  · rintro (hsession | hcred)
    · exact hs.sessionHandle hsession
    · rcases (Bool.or_eq_true _ _).mp hcred with hsuccess | hcred
      · exact handle_of_answer (of_decide_eq_true hsuccess)
      · exact hs.credHandle hcred
  · refine Triple.bind (R := fun _ t => Settled { t with
      credEstablished := decide (err = .success) || t.credEstablished })
      (Triple.modify fun s hs => hkept err err s hs)
      fun _ => Triple.ite (fun hsuccess => Triple.modify fun s hs => ?_) fun hfailure => Triple.get_keep fun s _ => ?_
    · rwa [decide_eq_true hsuccess, Bool.true_or] at hs
    · have hsame : ∀ s : State, Settled { s with credEstablished := decide (err = .success) || s.credEstablished } →
          Settled s := fun s hs => by rwa [decide_eq_false hfailure, Bool.false_or] at hs
      exact Triple.ensure (fun s hs _ => hsame s hs) hsame

/-- A session is opened when none is open. -/
theorem doPamSession_settled :
    Triple (At false cred ctxt) (doPamSession L) (fun _ => Settled) Settled := by
  refine Triple.bind ((stable_at.setItemOrFatal _ _).mono (fun _ _ hs => hs) fun _ hs => hs.settled) fun _ => ?_
  refine Triple.bind (R := fun err t => Settled { t with sessionOpen := decide (err = .success) })
    (pamCall_triple fun s hs => hs.settled.event ?_ rfl rfl ?_) fun err => ?_
  · rw [sessionEntry_openSession, hs.session]
    by_cases hsuccess : answer L s .openSession = .success
    · obtain ⟨handle, hhandle⟩ := Option.isSome_iff_exists.mp (handle_of_answer hsuccess)
      rw [if_pos hsuccess, hhandle, decide_eq_true hsuccess]
      rfl
    · rw [if_neg hsuccess, decide_eq_false hsuccess]
      rfl
  · rintro (hsession | hcred)
    · exact handle_of_answer (of_decide_eq_true hsession)
    · exact hs.settled.credHandle hcred
  · exact Triple.bind (R := fun _ t => Settled { t with sessionOpen := decide (err = .success) })
      (Triple.modify fun s hs => stable_settled.fields _ _ hs rfl rfl rfl rfl rfl) fun _ => Triple.modify fun _ hs => hs

/-- A process is started when none runs. -/
theorem sshpamInitCtx_settled : Triple (fun s => At session cred none s ∧ Suits L user s) (sshpamInitCtx L C user)
    (fun _ => Settled) Settled := by
  refine Triple.get_keep fun s hs => Triple.ite (fun _ => Triple.pure fun s hs => hs.1.settled) fun _ => ?_
  refine Triple.bind (sshpamInit_at.mono (fun _ _ hs => hs) fun _ hs => hs.settled) fun r =>
    Triple.ite (fun _ => Triple.pure fun _ hs => hs.settled) fun _ => Triple.get fun s hs =>
    Triple.ite (fun _ => Triple.bind (R := fun _ => Settled) (Triple.modify ?_) fun _ => Triple.pure fun _ hs => hs)
    fun _ => Triple.pure ?_
  · rintro t rfl
    refine hs.settled.event rfl rfl ?_ fun hheld => hheld.elim hs.settled.sessionHandle hs.settled.credHandle
    rw [hs.ctxt]
    rfl
  · rintro t rfl
    exact hs.settled

/-- The process is waited for. -/
theorem sshpamThreadCleanup_at :
    Triple (At session cred ctxt) sshpamThreadCleanup (fun _ => At session cred none) E := by
  refine Triple.get fun s hs => ?_
  split
  · refine Triple.modify ?_
    rintro t rfl
    refine ⟨hs.settled.event rfl rfl ?_ fun hheld => hheld.elim hs.settled.sessionHandle hs.settled.credHandle,
      hs.session, hs.cred, rfl⟩
    simp [*, threadEntry, follow, post]
  · refine Triple.pure ?_
    rintro t rfl
    exact ⟨hs.settled, hs.session, hs.cred, ‹_›⟩

/-! ## The server -/

/-- **A call that loses nothing**: no session is opened and no process started beside another one, and what is held is
not left on the transaction of another user. -/
def Op.Orderly (L : PamLibrary) (s : State) : Op → Prop
  | .startPam user => Suits L user s
  | .initCtx user => Suits L user s ∧ s.cleanupCtxt = none
  | .session => s.sessionOpen = false
  | _ => True

/-- Calls that lose nothing, one after the other. -/
def OrderlyRun (L : PamLibrary) (C : Config) : State → List Op → Prop
  | _, [] => True
  | s, op :: ops => op.Orderly L s ∧ match run (op.script L C) s with
    | (.ok _, t) => OrderlyRun L C t ops
    | (.error _, _) => True

instance : Decidable (Suits L user s) :=
  inferInstanceAs (Decidable (s.sessionOpen = true ∨ s.credEstablished = true →
    s.handle.isSome = true ∧ L.err s.trace (.getItem .user) = .success ∧ L.user s.trace = user))

instance (s : State) : (op : Op) → Decidable (op.Orderly L s)
  | .startPam user => inferInstanceAs (Decidable (Suits L user s))
  | .initCtx user => inferInstanceAs (Decidable (Suits L user s ∧ s.cleanupCtxt = none))
  | .session => inferInstanceAs (Decidable (s.sessionOpen = false))
  | .finishPam | .account | .setTty _ | .setcred _ | .chauthtok | .putenv _ _ | .fetchEnvironment | .authPasswd _
  | .freeCtx | .imported _ | .expired | .accepted => .isTrue trivial

instance decidableOrderlyRun : (s : State) → (ops : List Op) → Decidable (OrderlyRun L C s ops)
  | _, [] => .isTrue trivial
  | s, op :: ops => @instDecidableAnd _ _ _ (match run (op.script L C) s with
    | (.ok _, t) => decidableOrderlyRun t ops
    | (.error _, _) => .isTrue trivial)

/-- What a call that loses nothing leaves, also when it ends the process. -/
theorem Op.settled {op : Op} (hs : Settled s) (horderly : op.Orderly L s) : Settled (run (op.script L C) s).2 := by
  have hplain : ∀ {m : Script PUnit}, Triple Settled m (fun _ => Settled) Settled → Settled (run m s).2 := fun hm =>
    hm.of_run (fun _ _ h => h) (fun _ h => h) hs
  cases op with
  | startPam user =>
    have htriple : Triple (fun t => At s.sessionOpen s.credEstablished s.cleanupCtxt t ∧ Suits L user t)
        (AuthPam.startPam L C user) (fun _ => Settled) Settled := by
      refine Triple.bind (R := fun _ t => At s.sessionOpen s.credEstablished s.cleanupCtxt t ∧ Suits L user t)
        (Triple.ensure (fun _ h _ => h) fun _ h => h.1.settled) fun _ => ?_
      refine Triple.bind (sshpamInit_at.mono (fun _ _ h => h) fun _ h => h.settled) fun r => ?_
      exact Triple.ensure (fun _ h _ => h.settled) fun _ h => h.settled
    exact htriple.of_run (fun _ _ h => h) (fun _ h => h) ⟨hs.at, horderly⟩
  | initCtx user =>
    have hat : At s.sessionOpen s.credEstablished none s := ⟨hs, rfl, rfl, horderly.2⟩
    exact (discard_triple sshpamInitCtx_settled).of_run (fun _ _ h => h) (fun _ h => h) ⟨hat, horderly.1⟩
  | session =>
    have hat : At false s.credEstablished s.cleanupCtxt s := ⟨hs, horderly, rfl, rfl⟩
    exact doPamSession_settled.of_run (fun _ _ h => h) (fun _ h => h) hat
  | finishPam =>
    by_cases hC : (C.usePrivsep && !C.isMonitor) = true
    · refine hplain (Triple.get_keep fun t _ => Triple.ite (fun _ => Triple.pure fun _ h => h) fun hguard => ?_)
      rw [hC, Bool.or_true] at hguard
      exact absurd rfl hguard
    · rw [Bool.not_eq_true] at hC
      exact (sshpamCleanup_at hC).of_run (fun _ _ h => h.1.settled) (fun _ h => h) hs.at
  | freeCtx => exact sshpamThreadCleanup_at.of_run (fun _ _ h => h.settled) (fun _ h => h) hs.at
  | setcred init => exact hplain (doPamSetcred_settled init)
  | account => exact hplain (discard_triple stable_settled.doPamAccount)
  | setTty tty => exact hplain (stable_settled.doPamSetTty tty)
  | chauthtok => exact hplain stable_settled.doPamChauthtok
  | putenv name value => exact hplain (stable_settled.doPamPutenv name value)
  | fetchEnvironment => exact hplain stable_settled.fetchPamEnvironment
  | authPasswd user => exact hplain (discard_triple stable_settled.sshpamAuthPasswd)
  | imported e => exact hplain (stable_settled.importEnvironments e)
  | expired => exact hplain (Triple.modify fun s h => stable_settled.fields _ _ h rfl rfl rfl rfl rfl)
  | accepted => exact hplain (Triple.modify fun s h => stable_settled.fields _ _ h rfl rfl rfl rfl rfl)

/-- What calls that lose nothing leave. -/
theorem OrderlyRun.settled {ops : List Op} (hs : Settled s) (horderly : OrderlyRun L C s ops) :
    Settled (run (script L C ops) s).2 := by
  induction ops generalizing s with
  | nil => exact hs
  | cons op ops ih =>
    obtain ⟨hop, hops⟩ := horderly
    have hsettled := Op.settled (C := C) hs hop
    change Settled (run (op.script L C >>= fun _ => script L C ops) s).2
    rcases hrun : run (op.script L C) s with ⟨e | _, t⟩
    · rw [run_bind_of_error hrun]
      rwa [hrun] at hsettled
    · rw [run_bind_of_returns hrun]
      rw [hrun] at hsettled hops
      exact ih hsettled hops

/-- **Nothing is left** of what has been started, opened and established. -/
structure Released (s : State) : Prop where
  transactions : Tracks none (s.trace.filterMap transactionEntry)
  sessions : Tracks none (s.trace.filterMap sessionEntry)
  creds : Tracks none (s.trace.filterMap credEntry)
  threads : Tracks none (s.trace.filterMap threadEntry)

/-- **What is done is undone.** After calls that lose nothing, of which the last one may have ended the process,
`sshpam_thread_cleanup` and `sshpam_cleanup` close, delete, end and wait for all that is left, each on the transaction
on which it was done, and nothing twice. -/
theorem all_undone (L : PamLibrary) (C : Config) (ops : List Op) (horderly : OrderlyRun L C .start ops) :
    Settled (run (script L C ops) .start).2 ∧ ((C.usePrivsep = true → C.isMonitor = true) →
      Released (run (script L C [.freeCtx, .finishPam]) (run (script L C ops) .start).2).2) := by
  have hs : Settled (run (script L C ops) .start).2 :=
    horderly.settled ⟨tracks_nil, tracks_nil, tracks_nil, nofun, nofun⟩
  have htransactions := script_transactions L C ops (s := .start) tracks_nil
  refine ⟨hs, fun hmonitor => ?_⟩
  generalize (run (script L C ops) .start).2 = t at hs htransactions
  have hC : (C.usePrivsep && !C.isMonitor) = false := by
    cases husePrivsep : C.usePrivsep with
    | false => rfl
    | true => rw [hmonitor husePrivsep, Bool.true_and, Bool.not_true]
  have hundone : Triple (At t.sessionOpen t.credEstablished t.cleanupCtxt) (script L C [.freeCtx, .finishPam])
      (fun _ u => At false false none u ∧ u.handle = none) (fun _ => False) :=
    Triple.bind sshpamThreadCleanup_at fun _ => Triple.bind (sshpamCleanup_at hC) fun _ => Triple.pure fun _ h => h
  obtain ⟨⟨hsettled, hsession, hcred, hctxt⟩, hnone⟩ := hundone.of_run (fun _ _ h => h) (fun _ h => h.elim) hs.at
  have hended := script_transactions L C [.freeCtx, .finishPam] htransactions
  rw [Transactions, hnone] at hended
  refine ⟨hended, ?_, ?_, ?_⟩
  · simpa [hsession] using hsettled.sessions
  · simpa [hcred] using hsettled.creds
  · simpa [hctxt] using hsettled.threads

/-- A library in which all goes well, for one user. -/
def permissive : PamLibrary where
  err _ _ := .success
  user _ := "gex".toList
  fork _ := true
  strerror _ := "Success".toList

/-- A login with a process of its own for the modules, in which a session is opened and credentials are established
twice. -/
theorem all_undone_permissive :
    let s := (run (script permissive ⟨true, true, true, false⟩ [.startPam "gex".toList, .initCtx "gex".toList,
      .imported ⟨1, 0, [], ["MAIL=/var/mail/gex".toList]⟩, .accepted, .freeCtx, .account, .setcred true, .session,
      .setcred false]) .start).2
    s.sessionOpen = true ∧ s.credEstablished = true ∧ Settled s ∧
    Released (run (script permissive ⟨true, true, true, false⟩ [.freeCtx, .finishPam]) s).2 := by
  have h := all_undone permissive ⟨true, true, true, false⟩ [.startPam "gex".toList, .initCtx "gex".toList,
    .imported ⟨1, 0, [], ["MAIL=/var/mail/gex".toList]⟩, .accepted, .freeCtx, .account, .setcred true, .session,
    .setcred false] (by decide)
  exact ⟨by decide, by decide, h.1, h.2 fun _ => rfl⟩

/-- A session that is left on the transaction of another user is lost. -/
example : follow none ((run (script permissive ⟨true, false, false, false⟩ [.startPam "gex".toList, .session,
    .startPam "root".toList, .finishPam]) .start).2.trace.filterMap sessionEntry) = none := by
  decide

end GexCloud.Ssh.AuthPam
