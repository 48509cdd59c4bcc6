import GexCloud.Ssh.PamThread

/-! # What comes of an exchange with the PAM process

The server and the PAM process run side by side. What an exchange comes to does not depend on their speeds: it is
what the PAM modules come to when they are asked, one call after the other, with the answers of the client.

* `fill`, `Dialogue.consult` — a conversation with given answers; a function of the PAM library with such a
  conversation function.
* `Admits` — the modules admit a user who gives these answers.
* `Speaks` — the shape of what the PAM process sends.
* **`exists_run`** — the schedule in which every message is received at once.
* **`every_schedule`** — every other one comes to the same, and none gets stuck or takes longer.
* **`authenticated_iff`** — the user is authenticated exactly when the modules admit it. -/

namespace GexCloud.Ssh

open Texts Runs Machines

/-! ## Conversations with given answers -/

/-- The responses to messages when these are the answers, and the answers that are left. -/
def fill : List Message → List Text → Reply × List Text
  | [], answers => (some [], answers)
  | m :: messages, answers =>
    match m.msgStyle, answers with
    | .prompt _, [] => (none, [])
    | .prompt _, resp :: answers => ((fill messages answers).1.map (some resp :: ·), (fill messages answers).2)
    | .note _, answers => ((fill messages answers).1.map (none :: ·), (fill messages answers).2)
    | .other, answers => (none, answers)

/-- A conversation, which has a limit to the number of messages. -/
def converse (maxNumMsg : Nat) (messages : List Message) (answers : List Text) : Reply × List Text :=
  if messages.length = 0 ∨ maxNumMsg < messages.length then (none, answers) else fill messages answers

namespace Dialogue

variable {α β : Type}

/-- What a program comes to when these are the answers, and the answers that are left. -/
def consult (maxNumMsg : Nat) : Dialogue α → List Text → α × List Text
  | .returns a, answers => (a, answers)
  | .conv messages k, answers =>
    (k (converse maxNumMsg messages answers).1).consult maxNumMsg (converse maxNumMsg messages answers).2

/-- The second of two programs has the answers that the first one leaves. -/
theorem consult_bind (maxNumMsg : Nat) (p : Dialogue α) (f : α → Dialogue β) (answers : List Text) :
    (p.bind f).consult maxNumMsg answers =
      (f (p.consult maxNumMsg answers).1).consult maxNumMsg (p.consult maxNumMsg answers).2 := by
  induction p generalizing answers with
  | returns a => rfl
  | conv messages k ih => exact ih _ _

end Dialogue

/-- The loop of the conversation function fills in the answers it receives. -/
theorem threadConvLoop_eval (messages : List Message) (replies : List (Option Text)) (answers : List Text) :
    (threadConvLoop messages replies).eval answers =
      ((fill messages answers).1.map (replies ++ ·), (fill messages answers).2) := by
  induction messages generalizing replies answers with
  | nil => simp [threadConvLoop, fill, Process.eval]
  | cons m messages ih =>
    cases hstyle : m.msgStyle with
    | prompt echo =>
      cases answers with
      | nil => simp [threadConvLoop, fill, hstyle, Process.eval]
      | cons resp answers =>
        simp only [threadConvLoop, fill, hstyle, Process.eval, ih, Option.map_map]
        simp [Function.comp_def]
    | note isError =>
      simp only [threadConvLoop, fill, hstyle, Process.eval, ih, Option.map_map]
      simp [Function.comp_def]
    | other => simp [threadConvLoop, fill, hstyle, Process.eval]

/-- The conversation function converses. -/
theorem sshpamThreadConv_eval (maxNumMsg : Nat) (messages : List Message) (answers : List Text) :
    (sshpamThreadConv maxNumMsg messages).eval answers = converse maxNumMsg messages answers := by
  unfold sshpamThreadConv converse
  split
  · rfl
  · simp [threadConvLoop_eval]

/-- A program with the conversation function comes to what it comes to with the answers. -/
theorem through_eval {α : Type} (maxNumMsg : Nat) (p : Dialogue α) (answers : List Text) :
    (p.through (sshpamThreadConv maxNumMsg)).eval answers = p.consult maxNumMsg answers := by
  induction p generalizing answers with
  | returns a => rfl
  | conv messages k ih =>
    rw [Dialogue.through, Process.eval_bind, sshpamThreadConv_eval]
    exact ih _ _

variable {H : Type} {stack : PamStack H} {o : PamOptions} {a : Account} {h : H}

/-- The PAM process comes to what the modules come to. -/
theorem sshpamThread_eval (stack : PamStack H) (o : PamOptions) (a : Account) (h : H) (answers : List Text) :
    (sshpamThread stack o a h).eval answers = (stack.judge o a h).consult stack.maxNumMsg answers := by
  rw [sshpamThread, Process.eval_bind, through_eval]
  rfl

/-! ## Being admitted -/

/-- The account is valid, or the password has expired and has been changed, when these are the answers. -/
def AdmitsAccount (stack : PamStack H) (o : PamOptions) (a : Account) (h : H) (answers : List Text) (e : Export) :
    Prop :=
  ∃ a₁ h₁ answers₁, (doPamAccount stack a h).consult stack.maxNumMsg answers = ((a₁, h₁), answers₁) ∧
    a₁.accountStatus ≠ 0 ∧
    ((a₁.forcePwchange = 0 ∧ answers₁ = [] ∧ stack.export o a₁ h₁ = .ok e) ∨
      (a₁.forcePwchange ≠ 0 ∧ ∃ h₂, (stack.chauthtok h₁).consult stack.maxNumMsg answers₁ = ((.success, h₂), []) ∧
        stack.export o (a₁.passwordChangeRequired 0) h₂ = .ok e))

/-- **The modules admit a user who gives these answers**, all of which they ask for. -/
def Admits (stack : PamStack H) (o : PamOptions) (a : Account) (h : H) (answers : List Text) (e : Export) : Prop :=
  stack.getUser h = .success ∧ stack.setConv h = .success ∧ ∃ h₁ answers₁,
    (stack.authenticate (!o.permitEmptyPasswd) h).consult stack.maxNumMsg answers = ((.success, h₁), answers₁) ∧
    if o.compat20 then AdmitsAccount stack o a h₁ answers₁ e
    else answers₁ = [] ∧ stack.export o a h₁ = .ok e

/-- The account part of the judgement. -/
theorem judgeAccount_eq_ok_iff {answers : List Text} {e : Export} :
    (stack.judgeAccount o a h).consult stack.maxNumMsg answers = (.ok e, []) ↔
      AdmitsAccount stack o a h answers e := by
  unfold PamStack.judgeAccount AdmitsAccount
  rw [Dialogue.consult_bind]
  obtain ⟨⟨a₁, h₁⟩, answers₁⟩ := (doPamAccount stack a h).consult stack.maxNumMsg answers
  dsimp only
  by_cases hstatus : a₁.accountStatus = 0
  · rw [if_pos hstatus]
    constructor
    · intro hret
      cases hret
    · rintro ⟨_, _, _, heq, hne, -⟩
      cases heq
      exact absurd hstatus hne
  · rw [if_neg hstatus]
    by_cases hforce : a₁.forcePwchange = 0
    · rw [if_neg (not_not_intro hforce)]
      constructor
      · intro hret
        exact ⟨a₁, h₁, answers₁, rfl, hstatus, .inl ⟨hforce, congrArg Prod.snd hret, congrArg Prod.fst hret⟩⟩
      · rintro ⟨_, _, _, heq, -, ⟨-, hleft, hexport⟩ | ⟨hne, -⟩⟩
        · cases heq
          rw [hexport, hleft]
          rfl
        · cases heq
          exact absurd hforce hne
    · rw [if_pos hforce, Dialogue.consult_bind]
      rcases hchauthtok : (stack.chauthtok h₁).consult stack.maxNumMsg answers₁ with ⟨⟨err, h₂⟩, answers₂⟩
      dsimp only
      by_cases herr : err = .success
      · subst herr
        rw [if_neg (not_not_intro rfl)]
        constructor
        · intro hret
          obtain rfl : answers₂ = [] := congrArg Prod.snd hret
          exact ⟨a₁, h₁, answers₁, rfl, hstatus, .inr ⟨hforce, h₂, hchauthtok, congrArg Prod.fst hret⟩⟩
        · rintro ⟨_, _, _, heq, -, ⟨hzero, -⟩ | ⟨-, h₃, hconsult, hexport⟩⟩
          · cases heq
            exact absurd hzero hforce
          · cases heq
            cases hchauthtok.symm.trans hconsult
            rw [hexport]
            rfl
      · rw [if_pos herr]
        constructor
        · intro hret
          cases hret
        · rintro ⟨_, _, _, heq, -, ⟨hzero, -⟩ | ⟨-, h₃, hconsult, -⟩⟩
          · cases heq
            exact absurd hzero hforce
          · cases heq
            cases hchauthtok.symm.trans hconsult
            exact absurd rfl herr

/-- **The modules come to a success exactly when they admit the user.** -/
theorem judge_eq_ok_iff {answers : List Text} {e : Export} :
    (stack.judge o a h).consult stack.maxNumMsg answers = (.ok e, []) ↔ Admits stack o a h answers e := by
  unfold PamStack.judge Admits
  by_cases huser : stack.getUser h = .success
  case neg =>
    rw [if_pos huser]
    constructor
    · intro hret
      cases hret
    · rintro ⟨hsuccess, -⟩
      exact absurd hsuccess huser
  rw [if_neg (not_not_intro huser)]
  by_cases hconv : stack.setConv h = .success
  · rw [if_neg (not_not_intro hconv), Dialogue.consult_bind]
    obtain ⟨⟨err, h₁⟩, answers₁⟩ :=
      (stack.authenticate (!o.permitEmptyPasswd) h).consult stack.maxNumMsg answers
    dsimp only
    by_cases herr : err = .success
    · subst herr
      rw [if_neg (not_not_intro rfl)]
      have hsplit : ∀ P : H → List Text → Prop,
          (stack.getUser h = .success ∧ stack.setConv h = .success ∧ ∃ h₂ answers₂,
          (((PamErr.success, h₁), answers₁) : (PamErr × H) × List Text) = ((.success, h₂), answers₂) ∧
            P h₂ answers₂) ↔ P h₁ answers₁ := by
        intro P
        constructor
        · rintro ⟨-, -, _, _, heq, hP⟩
          cases heq
          exact hP
        · exact fun hP => ⟨huser, hconv, h₁, answers₁, rfl, hP⟩
      rw [hsplit fun h₂ answers₂ => if o.compat20 then AdmitsAccount stack o a h₂ answers₂ e
        else answers₂ = [] ∧ stack.export o a h₂ = .ok e]
      cases o.compat20 with
      | true => exact judgeAccount_eq_ok_iff
      | false => exact ⟨fun hret => ⟨congrArg Prod.snd hret, congrArg Prod.fst hret⟩,
          fun ⟨hleft, hexport⟩ => Prod.ext hexport hleft⟩
    · rw [if_pos herr]
      constructor
      · intro hret
        cases hret
      · rintro ⟨-, -, _, _, heq, -⟩
        cases heq
        exact absurd rfl herr
  · rw [if_pos hconv]
    constructor
    · intro hret
      cases hret
    · rintro ⟨-, hsuccess, -⟩
      exact absurd hsuccess hconv

/-! ## What the PAM process sends -/

/-- A program that sends notes and prompts, waits after each prompt and only there, and goes on as `Last` says. -/
inductive Speaks {α : Type} (Last : Process ThreadMessage Text α → Prop) : Process ThreadMessage Text α → Prop
  | last {p : Process ThreadMessage Text α} (h : Last p) : Speaks Last p
  | note (isError : Bool) (msg : Text) {p : Process ThreadMessage Text α} (h : Speaks Last p) :
      Speaks Last (.send (.note isError msg) p)
  | prompt (echo : Bool) (msg : Text) {k : Option Text → Process ThreadMessage Text α}
      (h : ∀ resp, Speaks Last (k resp)) : Speaks Last (.send (.prompt echo msg) (.receive k))

/-- The program is done. -/
def IsDone {α : Type} (p : Process ThreadMessage Text α) : Prop := ∃ a, p = .done a

/-- The program sends what it has come to. -/
def Ends (stack : PamStack H) (p : Process ThreadMessage Text Judgement) : Prop :=
  ∃ j, p = .send (stack.lastMessage j) (.done j)

/-- One program after another speaks when both do. -/
theorem Speaks.bind {α β : Type} {p : Process ThreadMessage Text α} (hp : Speaks IsDone p)
    {f : α → Process ThreadMessage Text β} {Last : Process ThreadMessage Text β → Prop}
    (hf : ∀ a, Speaks Last (f a)) : Speaks Last (p.bind f) := by
  induction hp with
  | last h =>
    obtain ⟨a, rfl⟩ := h
    exact hf a
  | note isError msg _ ih => exact .note isError msg ih
  | prompt echo msg _ ih => exact .prompt echo msg ih

/-- The loop of the conversation function speaks. -/
theorem speaks_threadConvLoop (messages : List Message) (replies : List (Option Text)) :
    Speaks IsDone (threadConvLoop messages replies) := by
  induction messages generalizing replies with
  | nil => exact .last ⟨_, rfl⟩
  | cons m messages ih =>
    rw [threadConvLoop]
    cases m.msgStyle with
    | prompt echo =>
      refine .prompt echo m.msg fun resp => ?_
      cases resp with
      | none => exact .last ⟨_, rfl⟩
      | some resp => exact ih _
    | note isError => exact .note isError m.msg (ih _)
    | other => exact .last ⟨_, rfl⟩

/-- A program with the conversation function speaks. -/
theorem speaks_through {α : Type} (maxNumMsg : Nat) (p : Dialogue α) :
    Speaks IsDone (p.through (sshpamThreadConv maxNumMsg)) := by
  induction p with
  | returns a => exact .last ⟨a, rfl⟩
  | conv messages k ih =>
    refine Speaks.bind ?_ ih
    unfold sshpamThreadConv
    split
    · exact .last ⟨_, rfl⟩
    · exact speaks_threadConvLoop messages []

/-- The PAM process speaks. -/
theorem speaks_sshpamThread (stack : PamStack H) (o : PamOptions) (a : Account) (h : H) :
    Speaks (Ends stack) (sshpamThread stack o a h) :=
  (speaks_through stack.maxNumMsg _).bind fun j => .last ⟨j, rfl⟩

/-! ## The schedule in which every message is received at once -/

variable {S : Setting} {answer : Nat → Text} {x : Exchange} {prompts : Option Text}
  {p : Process ThreadMessage Text Judgement}

/-- A message is sent and received. -/
theorem run_received (hphase : x.phase = .query prompts) (m : ThreadMessage)
    (p : Process ThreadMessage Text Judgement) :
    Run (pamStep S answer) ⟨.send m p, x, [], []⟩ [.left, .right]
      ⟨p, x.received S answer prompts (some m), [], []⟩ := by
  have hreceive : sshd S answer x = .receive (x.received S answer prompts) := by rw [sshd, hphase]
  have hsent : pamStep S answer ⟨.send m p, x, [], []⟩ .left ⟨p, x, [m], []⟩ := rfl
  refine .cons hsent (.cons ?_ (.nil _))
  exact stepLeft_receive (c := Link.swap ⟨p, x, [m], []⟩) hreceive rfl

/-- The server after a prompt has been answered. -/
def Exchange.answered (x : Exchange) (answer : Nat → Text) (r : Request) : Exchange where
  phase := .query none
  sshd := x.sshd
  given := x.given ++ [answer x.given.length]
  seen := x.seen ++ [.request r]

/-- The request of a prompt. -/
def promptRequest (prompts : Option Text) (echo : Bool) (msg : Text) : Request :=
  ⟨[], [(prompts.getD [] ++ msg, echo)]⟩

/-- A prompt is sent and answered. -/
theorem run_answered {prompts : Option Text} (hphase : x.phase = .query prompts) (hdone : x.sshd.pam.pamDone = 0)
    (echo : Bool) (msg : Text) (k : Option Text → Process ThreadMessage Text Judgement) :
    Run (pamStep S answer) ⟨.send (.prompt echo msg) (.receive k), x, [], []⟩ [.left, .right, .right, .left]
      ⟨k (some (answer x.given.length)), x.answered answer (promptRequest prompts echo msg), [], []⟩ := by
  have hask : x.received S answer prompts (some (.prompt echo msg)) =
      { x with phase := .respond (answer x.given.length)
               seen := x.seen ++ [.request (promptRequest prompts echo msg)] } := by
    simp [Exchange.received, queryBody, Exchange.ask, sshpamRespond, hdone, promptRequest]
  have hsent : pamStep S answer
      ⟨.receive k, x.received S answer prompts (some (.prompt echo msg)), [], []⟩ .right
      ⟨.receive k, x.answered answer (promptRequest prompts echo msg), [], [answer x.given.length]⟩ := by
    rw [hask]
    rfl
  exact (run_received hphase _ _).append (.cons hsent (.cons rfl (.nil _)))

/-- The message to the function on lists of messages. -/
def ThreadMessage.seen : ThreadMessage → PamMessage
  | .prompt true msg => .promptEchoOn msg
  | .prompt false msg => .promptEchoOff msg
  | .note true msg => .errorMsg msg
  | .note false msg => .textInfo msg
  | .acctExpired msg => .acctExpired msg
  | .authErr msg => .authErr msg
  | .success _ => .success

/-- What the process sends after so many answers. -/
def messagesAfter (thread : Process ThreadMessage Text Judgement) (given : List Text) : List PamMessage :=
  (thread.after given).burst.map ThreadMessage.seen

/-- The rest of `exchange`, behind a query. -/
def exchangeOn (S : Setting) (thread : List Text → List PamMessage) (answer : Nat → Text) (queries : Nat)
    (given : List Text) : Query × Pam → Option (List Visible)
  | (.fatal, _) => some [.fatal]
  | (.fails, _) => some [Ssh.finish S 0 keyboardInteractive]
  | (.asks r, s) =>
    match sshpamRespond s (r.prompts.map fun _ => answer given.length) with
    | (.accepted, _) => some [.request r, Ssh.finish S 1 keyboardInteractive]
    | (.refused, _) => some [.request r, Ssh.finish S 0 keyboardInteractive]
    | (.sent resp, s) => (exchange S thread answer queries (given ++ [resp]) s).map (.request r :: ·)

/-- An exchange is a query and the rest. -/
theorem exchange_succ (S : Setting) (thread : List Text → List PamMessage) (answer : Nat → Text) (queries : Nat)
    (given : List Text) (s : Pam) :
    exchange S thread answer (queries + 1) given s =
      exchangeOn S thread answer queries given (sshpamQuery S.rootDenied none s (thread given)) := rfl

/-- The query goes on after a note. -/
theorem sshpamQuery_note (rootDenied : Bool) (prompts : Option Text) (s : Pam) (isError : Bool) (msg : Text)
    (rest : List PamMessage) :
    sshpamQuery rootDenied prompts s ((ThreadMessage.note isError msg).seen :: rest) =
      sshpamQuery rootDenied (some (prompts.getD [] ++ msg ++ ['\n'])) s rest := by
  cases isError <;> rfl

/-- The query comes back at a prompt. -/
theorem sshpamQuery_prompt (rootDenied : Bool) (prompts : Option Text) (s : Pam) (echo : Bool) (msg : Text)
    (rest : List PamMessage) :
    sshpamQuery rootDenied prompts s ((ThreadMessage.prompt echo msg).seen :: rest) =
      (.asks (promptRequest prompts echo msg), s) := by
  cases echo <;> rfl

/-- The server when the last message comes in. -/
structure Reaches (stack : PamStack H) (S : Setting) (answer : Nat → Text)
    (p : Process ThreadMessage Text Judgement) (prompts : Option Text) (x : Exchange) (j : Judgement)
    (prompts' : Option Text) (x' : Exchange) : Prop where
  phase : x'.phase = .query prompts'
  sshd : x'.sshd = x.sshd
  /-- Before, the process has been given what it asked for. -/
  given : ∃ answers, x'.given = x.given ++ answers ∧ p.eval answers = (j, [])
  run : ∃ as, Run (pamStep S answer) ⟨p, x, [], []⟩ as
    ⟨.done j, x'.received S answer prompts' (some (stack.lastMessage j)), [], []⟩
  /-- The queries of `exchange` have been the same. -/
  exchange : ∀ (S' : Setting) (thread : Process ThreadMessage Text Judgement), S'.rootDenied = S.rootDenied →
    (∀ answers ≠ [], thread.after (x.given ++ answers) = p.after answers) →
    ∃ asked, x'.seen = x.seen ++ asked ∧ ∀ m,
      exchangeOn S' (messagesAfter thread) answer (m + asked.length) x.given
          (sshpamQuery S.rootDenied prompts x.sshd.pam (p.burst.map ThreadMessage.seen)) =
        (exchangeOn S' (messagesAfter thread) answer m x'.given
          (sshpamQuery S.rootDenied prompts' x.sshd.pam [(stack.lastMessage j).seen])).map (asked ++ ·)

/-- **The schedule in which every message is received at once** leads up to the last message. -/
theorem exists_run (hp : Speaks (Ends stack) p) (hphase : x.phase = .query prompts)
    (hdone : x.sshd.pam.pamDone = 0) : ∃ j prompts' x', Reaches stack S answer p prompts x j prompts' x' := by
  -- induction on what the process says
  induction hp generalizing x prompts with
  | last h =>
    obtain ⟨j, rfl⟩ := h
    refine ⟨j, prompts, x, hphase, rfl, ⟨[], (List.append_nil _).symm, rfl⟩, ⟨_, run_received hphase _ _⟩, ?_⟩
    intro S' thread _ _
    exact ⟨[], (List.append_nil _).symm, fun m => by simp [Process.burst]⟩
  | @note isError msg p _ ih =>
    have hreceived : x.received S answer prompts (some (.note isError msg)) =
        { x with phase := .query (some (prompts.getD [] ++ msg ++ ['\n'])) } := rfl
    obtain ⟨j, prompts', x', hphase', hsshd, hgiven, ⟨as, hrun⟩, hexchange⟩ :=
      @ih { x with phase := .query (some (prompts.getD [] ++ msg ++ ['\n'])) } _ rfl hdone
    refine ⟨j, prompts', x', hphase', hsshd, hgiven, ⟨_, (run_received hphase _ _).append (hreceived ▸ hrun)⟩, ?_⟩
    intro S' thread hrd hthread
    obtain ⟨asked, hseen, heq⟩ := hexchange S' thread hrd fun answers hne =>
      (hthread answers hne).trans (Process.after_send _ _ hne)
    refine ⟨asked, hseen, fun m => ?_⟩
    rw [Process.burst, List.map_cons, sshpamQuery_note]
    exact heq m
  | @prompt echo msg k _ ih =>
    obtain ⟨j, prompts', x', hphase', hsshd, ⟨answers, hgiven, heval⟩, ⟨as, hrun⟩, hexchange⟩ :=
      @ih (some (answer x.given.length)) (x.answered answer (promptRequest prompts echo msg)) none rfl hdone
    refine ⟨j, prompts', x', hphase', hsshd, ⟨answer x.given.length :: answers, ?_, heval⟩,
      ⟨_, (run_answered hphase hdone echo msg k).append hrun⟩, ?_⟩
    · rw [hgiven, Exchange.answered, List.append_assoc]
      rfl
    · intro S' thread hrd hthread
      have hafter : ∀ answers, thread.after ((x.given ++ [answer x.given.length]) ++ answers) =
          (k (some (answer x.given.length))).after answers := by
        intro answers
        rw [List.append_assoc, hthread ([answer x.given.length] ++ answers) (List.cons_ne_nil _ _)]
        rfl
      obtain ⟨asked, hseen, heq⟩ := hexchange S' thread hrd fun answers _ => hafter answers
      refine ⟨.request (promptRequest prompts echo msg) :: asked, ?_, fun m => ?_⟩
      · rw [hseen, Exchange.answered, List.append_assoc]
        rfl
      · have hnext : exchange S' (messagesAfter thread) answer (m + asked.length + 1)
            (x.given ++ [answer x.given.length]) x.sshd.pam =
            exchangeOn S' (messagesAfter thread) answer (m + asked.length) (x.given ++ [answer x.given.length])
              (sshpamQuery S.rootDenied none x.sshd.pam
                ((k (some (answer x.given.length))).burst.map ThreadMessage.seen)) := by
          have hnil := hafter []
          rw [List.append_nil, Process.after_nil] at hnil
          rw [exchange_succ, messagesAfter, hnil, hrd]
        rw [Process.burst, Process.burst, List.map_cons, sshpamQuery_prompt, List.length_cons, ← Nat.add_assoc]
        simp only [exchangeOn, promptRequest, List.map_cons, List.map_nil, sshpamRespond, hdone]
        simp only [if_neg (show ¬(0 : Int) = 1 by decide), if_true]
        rw [hnext]
        refine (congrArg _ (heq m)).trans ?_
        rw [Option.map_map]
        rfl

/-! ## The last message -/

/-- What has been exported is in the server. -/
def Imported (e : Export) (d d' : Sshd) : Prop :=
  d'.account = { d.account with accountStatus := e.accountStatus }.passwordChangeRequired e.forcePwchange ∧
    d'.sshpamEnv = e.environ ∧ d'.putenv = d.putenv ++ e.pamEnv

/-- The server after the last message, when it was `d` before. -/
structure Concluded (S : Setting) (j : Judgement) (d : Sshd) (y : Exchange) : Prop where
  phase : y.phase = .finished
  authenticated : y.sshd.pam.authenticated = true ↔
    S.rootDenied = false ∧ ∃ e, j = .ok e ∧ e.environ.length ≤ 1024 ∧ Imported e d y.sshd
  refused : ∀ err, j = .authFail err → y.sshd.account =
    if err = .acctExpired then { d.account with accountStatus := 0 } else d.account

/-- Receiving a message sends none. -/
theorem received_given (x : Exchange) (S : Setting) (answer : Nat → Text) (prompts : Option Text)
    (m : Option ThreadMessage) : (x.received S answer prompts m).given = x.given := by
  cases m with
  | none => rfl
  | some m =>
    rw [Exchange.received]
    split
    · rfl
    · rw [Exchange.ask]
      split <;> rfl
    · rfl
    · rfl

/-- What the server does when PAM has refused. -/
theorem received_error (S : Setting) (answer : Nat → Text) (x : Exchange) (prompts : Option Text) {d : Sshd}
    {m : ThreadMessage} (hm : queryBody S.rootDenied prompts x.sshd m = .inr (queryError prompts d)) :
    ∃ seen, x.received S answer prompts (some m) = x.leave { d with pam := { d.pam with pamDone := -1 } } seen ∧
      ∀ (S' : Setting) (thread : List Text → List PamMessage) (queries : Nat),
        S'.pamAccount = d.pamAccount S → { S' with pamAccount := S.pamAccount } = S →
          exchangeOn S' thread answer queries x.given (authError prompts d.pam) = some seen := by
  have hset : ∀ S' : Setting, S'.pamAccount = d.pamAccount S → { S' with pamAccount := S.pamAccount } = S →
      S' = { S with pamAccount := d.pamAccount S } := by
    intro S' haccount hS
    rw [← haccount, ← hS]
  rw [Exchange.received, hm]
  obtain _ | _ | ⟨ch, cs⟩ := prompts
  · refine ⟨_, rfl, fun S' thread queries haccount hS => ?_⟩
    rw [hset S' haccount hS]
    rfl
  · refine ⟨_, rfl, fun S' thread queries haccount hS => ?_⟩
    rw [hset S' haccount hS]
    rfl
  · refine ⟨_, rfl, fun S' thread queries haccount hS => ?_⟩
    rw [hset S' haccount hS]
    rfl

/-- The setting as the server has it in the end. -/
def Sshd.setting (d : Sshd) (S : Setting) : Setting := { S with pamAccount := d.pamAccount S }

/-- What the last message makes of the server, and that the client sees what `exchange` says. -/
theorem concluded (S : Setting) (answer : Nat → Text) (prompts : Option Text) (stack : PamStack H)
    (hauth : x.sshd.pam.authenticated = false) (j : Judgement) :
    Concluded S j x.sshd (x.received S answer prompts (some (stack.lastMessage j))) ∧
      ((∀ e, j = .ok e → e.environ.length ≤ 1024) → ∀ (thread : List Text → List PamMessage) (queries : Nat),
        ∃ trace, exchangeOn ((x.received S answer prompts (some (stack.lastMessage j))).sshd.setting S) thread answer
            queries x.given (sshpamQuery S.rootDenied prompts x.sshd.pam [(stack.lastMessage j).seen]) = some trace ∧
          (x.received S answer prompts (some (stack.lastMessage j))).seen = x.seen ++ trace) := by
  cases j with
  | ok e =>
    have hlast : stack.lastMessage (.ok e) = .success e := rfl
    rw [hlast]
    cases hrd : S.rootDenied with
    | true =>
      have hreceived : x.received S answer prompts (some (.success e)) =
          x.leave { x.sshd with pam := { x.sshd.pam with loginmsg := x.sshd.pam.loginmsg ++ prompts.getD [] } }
            [.fatal] := by
        rw [Exchange.received, hrd]
        rfl
      rw [hreceived]
      refine ⟨⟨rfl, ?_, fun err herr => Judgement.noConfusion herr⟩, fun _ thread queries => ⟨[.fatal], rfl, rfl⟩⟩
      constructor
      · exact fun h => absurd (h.symm.trans hauth) Bool.noConfusion
      · exact fun ⟨hfalse, _⟩ => absurd (hfalse.symm.trans hrd) Bool.noConfusion
    | false =>
      by_cases henv : 1024 < e.environ.length
      · have hreceived : x.received S answer prompts (some (.success e)) =
            x.leave { x.sshd with pam := { x.sshd.pam with loginmsg := x.sshd.pam.loginmsg ++ prompts.getD [] } }
              [.fatal] := by
          simp only [Exchange.received, queryBody, hrd, importEnvironments, if_pos henv]
          rfl
        rw [hreceived]
        refine ⟨⟨rfl, ?_, fun err herr => Judgement.noConfusion herr⟩, fun hle => ?_⟩
        · constructor
          · exact fun h => absurd (h.symm.trans hauth) Bool.noConfusion
          · rintro ⟨-, e', he, hle, -⟩
            cases he
            exact absurd henv (Nat.not_lt.mpr hle)
        · exact absurd henv (Nat.not_lt.mpr (hle e rfl))
      · obtain ⟨y, hreceived, hy, himported⟩ : ∃ y, x.received S answer prompts (some (.success e)) =
            x.leave y [.request ⟨[], []⟩, y.finish S 1] ∧ y.pam.authenticated = true ∧ Imported e x.sshd y := by
          simp only [Exchange.received, queryBody, hrd, importEnvironments, if_neg henv]
          exact ⟨_, rfl, rfl, rfl, rfl, rfl⟩
        rw [hreceived]
        refine ⟨⟨rfl, ?_, fun err herr => Judgement.noConfusion herr⟩, fun _ thread queries => ⟨_, rfl, rfl⟩⟩
        exact ⟨fun _ => ⟨hrd, e, rfl, Nat.le_of_not_lt henv, himported⟩, fun _ => hy⟩
  | authFail err =>
    obtain ⟨d, hpam, haccount, hbody, hquery⟩ : ∃ d : Sshd, d.pam.authenticated = false ∧
        d.account = (if err = .acctExpired then { x.sshd.account with accountStatus := 0 } else x.sshd.account) ∧
        queryBody S.rootDenied prompts x.sshd (stack.lastMessage (.authFail err)) = .inr (queryError prompts d) ∧
        sshpamQuery S.rootDenied prompts x.sshd.pam [(stack.lastMessage (.authFail err)).seen] =
          authError prompts d.pam := by
      cases err with
      | acctExpired => exact ⟨{ x.sshd with
          pam := { x.sshd.pam with accountExpired := true }
          account := { x.sshd.account with accountStatus := 0 } }, hauth, rfl, rfl, rfl⟩
      | success => exact ⟨x.sshd, hauth, rfl, rfl, rfl⟩
      | newAuthtokReqd => exact ⟨x.sshd, hauth, rfl, rfl, rfl⟩
      | other code => exact ⟨x.sshd, hauth, rfl, rfl, rfl⟩
    obtain ⟨seen, hreceived, hseen⟩ := received_error S answer x prompts hbody
    rw [hreceived, hquery]
    refine ⟨⟨rfl, ?_, ?_⟩, fun _ thread queries => ⟨seen, hseen _ thread queries rfl rfl, rfl⟩⟩
    · constructor
      · exact fun h => absurd (h.symm.trans hpam) Bool.noConfusion
      · rintro ⟨-, e, he, -⟩
        cases he
    · rintro _ ⟨⟩
      exact haccount

/-! ## Every schedule -/

variable {d : Sshd}

/-- What an exchange comes to, in so many steps. -/
structure Settles (stack : PamStack H) (o : PamOptions) (h : H) (d : Sshd) (S : Setting) (answer : Nat → Text)
    (y : Exchange) (j : Judgement) (steps : Nat) : Prop where
  phase : y.phase = .finished
  /-- The process judges as the modules do with the answers of the client, all of which they have asked for. -/
  judged : (stack.judge o d.account h).consult stack.maxNumMsg y.given = (j, [])
  /-- Wherever a schedule has got to, it goes on to the same end. -/
  schedule : ∀ as c, Run (pamStep S answer) (PamLink.start stack o h d) as c →
    ∃ bs, Run (pamStep S answer) c bs ⟨.done j, y, [], []⟩ ∧ as.length + bs.length = steps
  /-- What the client has seen is what `exchange` says. -/
  shown : (∀ e, j = .ok e → e.environ.length ≤ 1024) → ∃ queries,
    exchange (y.sshd.setting S) (messagesAfter (sshpamThread stack o d.account h)) answer queries [] d.pam =
      some y.seen
  concluded : Concluded S j d y

/-- An exchange comes to an end, from wherever a schedule has got to. -/
theorem exists_settles (stack : PamStack H) (o : PamOptions) (h : H) (S : Setting) (answer : Nat → Text)
    (hdone : d.pam.pamDone = 0) (hauth : d.pam.authenticated = false) :
    ∃ y j steps, Settles stack o h d S answer y j steps := by
  obtain ⟨j, prompts', x', hphase', hsshd, ⟨answers, hgiven, heval⟩, ⟨as, hrun⟩, hexchange⟩ :=
    @exists_run H stack S answer (.start d) none _ (speaks_sshpamThread stack o d.account h) rfl hdone
  have hauth' : x'.sshd.pam.authenticated = false := by rw [hsshd]; exact hauth
  obtain ⟨hconcluded, htrace⟩ := concluded S answer prompts' stack hauth' j
  refine ⟨_, j, as.length, hconcluded.phase, ?_, ?_, ?_, (show x'.sshd = d from hsshd) ▸ hconcluded⟩
  · rw [received_given, hgiven, ← sshpamThread_eval]
    exact heval
  · intro bs c hother
    obtain ⟨cs, hcs, hlen⟩ := (diamond_step _ _).run_of_run
      (final_of_halted rfl (by rw [sshd, hconcluded.phase]; rfl)) hrun hother
    exact ⟨cs, hcs, hlen⟩
  · intro henv
    obtain ⟨asked, hseen, heq⟩ := hexchange
      ((x'.received S answer prompts' (some (stack.lastMessage j))).sshd.setting S) _ rfl fun _ _ => rfl
    obtain ⟨trace, hon, hseen'⟩ := htrace henv (messagesAfter (sshpamThread stack o d.account h)) 0
    refine ⟨0 + asked.length + 1, ?_⟩
    rw [hsshd] at hon
    rw [exchange_succ, messagesAfter, Process.after_nil]
    refine (heq 0).trans ?_
    rw [hseen', hseen]
    exact congrArg _ hon

/-- **Every schedule of the two processes comes to the same end**, which is that of `exchange`. -/
theorem every_schedule (stack : PamStack H) (o : PamOptions) (h : H) (d : Sshd) (S : Setting)
    (answer : Nat → Text) (hdone : d.pam.pamDone = 0) (hauth : d.pam.authenticated = false) :
    ∃ y j steps, Settles stack o h d S answer y j steps :=
  exists_settles stack o h S answer hdone hauth

/-- Until the exchange is over, the server is as it was, but for what it has sent and shown. -/
theorem received_sshd (hdone : x.sshd.pam.pamDone = 0) {m : Option ThreadMessage}
    (hlive : (x.received S answer prompts m).phase ≠ .finished) :
    (x.received S answer prompts m).sshd = x.sshd := by
  cases m with
  | none => exact absurd rfl hlive
  | some m =>
    unfold Exchange.received at hlive ⊢
    cases m with
    | prompt echo msg => simp [queryBody, Exchange.ask, sshpamRespond, hdone]
    | note isError msg => rfl
    | acctExpired msg =>
      obtain ⟨seen, hreceived, -⟩ := received_error S answer x prompts (m := .acctExpired msg) rfl
      exact absurd (congrArg Exchange.phase hreceived) hlive
    | authErr msg =>
      obtain ⟨seen, hreceived, -⟩ := received_error S answer x prompts (m := .authErr msg) rfl
      exact absurd (congrArg Exchange.phase hreceived) hlive
    | success e =>
      cases hrd : S.rootDenied with
      | true => exact absurd (by simp [queryBody, hrd, Exchange.leave]) hlive
      | false =>
        by_cases henv : 1024 < e.environ.length
        · exact absurd (by simp [queryBody, hrd, importEnvironments, henv, Exchange.leave]) hlive
        · exact absurd (by simp [queryBody, hrd, importEnvironments, henv, Exchange.ask, sshpamRespond,
            Exchange.leave]) hlive

variable {as : List Side} {c : PamLink}

/-- The modules ask for the password and accept one. -/
def unixStack : PamStack Unit where
  maxNumMsg := 32
  getUser _ := .success
  setConv _ := .success
  authenticate _ _ := .conv [⟨.prompt false, "Password: ".toList⟩] fun reply =>
    .returns (if reply = some [some "toor".toList] then .success else .other 7, ())
  acctMgmt _ := .returns (.success, ())
  chauthtok _ := .returns (.other 20, ())
  environ env _ := env
  getenvlist _ := ["KRB5CCNAME=/tmp/krb5cc_1000".toList]
  strerror _ := "Authentication failure".toList

/-- A server as distributed. -/
def pamOptions : PamOptions := ⟨false, true, some "UTC".toList⟩

/-- A new connection. -/
def newSshd : Sshd := ⟨.start, ⟨-1, 0, 0, 0, 0⟩, [], []⟩

/-- A connection of a user who may log in. -/
def userConnection : Setting where
  server := rootConnection.server
  permitRootLogin := .no
  authctxt := { rootConnection.authctxt with pw := some ⟨1000⟩ }
  pamAccount := true

/-- An exchange about a password. -/
theorem every_schedule_unix : ∃ y j steps,
    Settles unixStack pamOptions () newSshd userConnection (fun _ => "toor".toList) y j steps :=
  every_schedule unixStack pamOptions () newSshd userConnection (fun _ => "toor".toList) rfl rfl

/-- A step before the exchange is over leaves the server as it was when it started. -/
theorem sshd_step (hdone : d.pam.pamDone = 0) (ih : c.right.phase ≠ .finished → c.right.sshd = d) {side : Side}
    {c' : PamLink} (hstep : pamStep S answer c side c') (hlive : c'.right.phase ≠ .finished) : c'.right.sshd = d := by
  cases side with
  | left =>
    -- a step of the PAM process
    obtain ⟨_, _, -, rfl⟩ | ⟨_, _, _, -, -, rfl⟩ | ⟨_, -, -, -, rfl⟩ := stepLeft_cases hstep
    · exact ih hlive
    · exact ih hlive
    · exact ih hlive
  | right =>
    cases hphase : c.right.phase with
    | query prompts =>
      have hsshd := ih (hphase ▸ Phase.noConfusion)
      have haction : sshd S answer c.right = .receive (c.right.received S answer prompts) := by rw [sshd, hphase]
      have hdone' : c.right.sshd.pam.pamDone = 0 := by rw [hsshd]; exact hdone
      obtain ⟨_, _, hsend, -⟩ | ⟨k, m, up, hreceive, -, rfl⟩ | ⟨k, hreceive, -, -, rfl⟩ := stepRight_cases hstep
      · cases haction.symm.trans hsend
      · cases haction.symm.trans hreceive
        exact (received_sshd hdone' hlive).trans hsshd
      · cases haction.symm.trans hreceive
        exact (received_sshd hdone' hlive).trans hsshd
    | respond resp =>
      have hsshd := ih (hphase ▸ Phase.noConfusion)
      have haction : sshd S answer c.right =
          .send resp { c.right with phase := .query none, given := c.right.given ++ [resp] } := by rw [sshd, hphase]
      obtain ⟨_, _, hsend, rfl⟩ | ⟨k, m, up, hreceive, -, rfl⟩ | ⟨k, hreceive, -, -, rfl⟩ := stepRight_cases hstep
      · cases haction.symm.trans hsend
        exact hsshd
      · cases haction.symm.trans hreceive
      · cases haction.symm.trans hreceive
    | finished =>
      have hhalted : (sshd S answer c.right).halted = true := by rw [sshd, hphase]; rfl
      exact absurd (hhalted.symm.trans (halted_eq_false_of_stepLeft hstep)) Bool.noConfusion

/-- Until the exchange is over, the server is as it was when it started. -/
theorem sshd_of_running (hdone : d.pam.pamDone = 0)
    (hrun : Run (pamStep S answer) (PamLink.start stack o h d) as c) (hlive : c.right.phase ≠ .finished) :
    c.right.sshd = d :=
  hrun.invariant (fun c => c.right.phase ≠ .finished → c.right.sshd = d)
    (fun _ _ _ ih hstep => sshd_step hdone ih hstep)
    (fun _ => rfl) hlive

/-- A server that has left stays as it is. -/
theorem right_eq_of_over (hover : c.right.phase = .finished) {c' : PamLink} (hrun : Run (pamStep S answer) c as c') :
    c'.right = c.right := by
  have hinv := hrun.invariant (fun c' => c'.right = c.right) ?_ rfl
  · exact hinv
  intro c₁ side c₂ heq hstep
  cases side with
  | left =>
    obtain ⟨_, _, -, rfl⟩ | ⟨_, _, _, -, -, rfl⟩ | ⟨_, -, -, -, rfl⟩ := stepLeft_cases hstep <;> exact heq
  | right =>
    have hhalted : (sshd S answer c₁.right).halted = true := by rw [heq, sshd, hover]; rfl
    exact absurd (hhalted.symm.trans (halted_eq_false_of_stepLeft hstep)) Bool.noConfusion

/-- **The user is authenticated exactly when the modules admit it**, asked with the answers that the client has given,
and then the server has what the modules have exported. -/
theorem authenticated_iff (stack : PamStack H) (o : PamOptions) (h : H) (d : Sshd) (S : Setting)
    (answer : Nat → Text) (as : List Side) (c : PamLink) (hdone : d.pam.pamDone = 0)
    (hauth : d.pam.authenticated = false) (hrun : Run (pamStep S answer) (PamLink.start stack o h d) as c) :
    c.right.sshd.pam.authenticated = true ↔ c.right.phase = .finished ∧ S.rootDenied = false ∧
      ∃ e, Admits stack o d.account h c.right.given e ∧ e.environ.length ≤ 1024 ∧ Imported e d c.right.sshd := by
  by_cases hover : c.right.phase = .finished
  · obtain ⟨y, j, steps, hsettles⟩ := exists_settles stack o h S answer hdone hauth
    obtain ⟨bs, hbs, -⟩ := hsettles.schedule as c hrun
    obtain rfl : y = c.right := right_eq_of_over hover hbs
    rw [hsettles.concluded.authenticated]
    constructor
    · rintro ⟨hrd, e, rfl, hle, himported⟩
      exact ⟨hover, hrd, e, judge_eq_ok_iff.mp hsettles.judged, hle, himported⟩
    · rintro ⟨-, hrd, e, hadmits, hle, himported⟩
      have hjudged := hsettles.judged.symm.trans (judge_eq_ok_iff.mpr hadmits)
      exact ⟨hrd, e, congrArg Prod.fst hjudged, hle, himported⟩
  · constructor
    · intro h
      rw [sshd_of_running hdone hrun hover, hauth] at h
      cases h
    · exact fun h => absurd h.1 hover

/-- The server after an exchange about a password. -/
def unixExchange : Exchange :=
  ((Exchange.start newSshd).answered (fun _ => "toor".toList) ⟨[], [("Password: ".toList, false)]⟩).received
    userConnection (fun _ => "toor".toList) none
    (some (.success ⟨1, 0, ["TZ=UTC".toList], ["KRB5CCNAME=/tmp/krb5cc_1000".toList]⟩))

/-- The six steps of that exchange. -/
theorem run_unixExchange : Run (pamStep userConnection fun _ => "toor".toList)
    (PamLink.start unixStack pamOptions () newSshd) [.left, .right, .right, .left, .left, .right]
    ⟨.done (.ok ⟨1, 0, ["TZ=UTC".toList], ["KRB5CCNAME=/tmp/krb5cc_1000".toList]⟩), unixExchange, [], []⟩ :=
  (@run_answered userConnection (fun _ => "toor".toList) (.start newSshd) none rfl rfl false
      "Password: ".toList _).append (run_received rfl _ _)

/-- The right password is admitted. -/
theorem authenticated_iff_unix : unixExchange.sshd.pam.authenticated = true ↔
    unixExchange.phase = .finished ∧ userConnection.rootDenied = false ∧
      ∃ e, Admits unixStack pamOptions newSshd.account () unixExchange.given e ∧ e.environ.length ≤ 1024 ∧
        Imported e newSshd unixExchange.sshd :=
  authenticated_iff unixStack pamOptions () newSshd userConnection (fun _ => "toor".toList) _ _ rfl rfl
    run_unixExchange

end GexCloud.Ssh
