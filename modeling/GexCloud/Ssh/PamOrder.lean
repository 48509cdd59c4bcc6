import GexCloud.Ssh.PamExchange

/-! # The order of an exchange with the PAM process

Where the server and the PAM process can be at any moment, whatever their speeds.

* `Stage` — the six stages of an exchange.
* **`stage_step`** — a step leads from a stage to a stage.
* **`orderly`** — at most one answer is under way, and only to a process that waits for it; the process has received
  the other answers, each once and in order; when the server leaves, nothing is left unread. -/

namespace GexCloud.Ssh

open Texts Runs Machines

/-- A message that only informs. -/
def ThreadMessage.IsNote : ThreadMessage → Prop
  | .note _ _ => True
  | _ => False

variable {H : Type} {stack : PamStack H} {o : PamOptions} {h : H} {d : Sshd} {S : Setting} {answer : Nat → Text}
  {as : List Side} {c c' : PamLink}

/-- **The stages of an exchange.** -/
inductive Stage (stack : PamStack H) : PamLink → Prop
  /-- The process is at work, and the server waits for what it says. -/
  | speaking {p : Process ThreadMessage Text Judgement} {x : Exchange} {up : List ThreadMessage}
      {prompts : Option Text} (hp : Speaks (Ends stack) p) (hup : ∀ m ∈ up, m.IsNote)
      (hphase : x.phase = .query prompts) : Stage stack ⟨p, x, up, []⟩
  /-- A prompt is under way. -/
  | asked {k : Option Text → Process ThreadMessage Text Judgement} {x : Exchange} {up : List ThreadMessage}
      {prompts : Option Text} {echo : Bool} {msg : Text} (hk : ∀ resp, Speaks (Ends stack) (k resp))
      (hup : ∀ m ∈ up, m.IsNote) (hphase : x.phase = .query prompts) :
      Stage stack ⟨.receive k, x, up ++ [.prompt echo msg], []⟩
  /-- The client has answered. -/
  | answering {k : Option Text → Process ThreadMessage Text Judgement} {x : Exchange} {resp : Text}
      (hk : ∀ resp, Speaks (Ends stack) (k resp)) (hphase : x.phase = .respond resp) :
      Stage stack ⟨.receive k, x, [], []⟩
  /-- The answer is under way. -/
  | answered {k : Option Text → Process ThreadMessage Text Judgement} {x : Exchange} {resp : Text}
      {prompts : Option Text} (hk : ∀ resp, Speaks (Ends stack) (k resp)) (hphase : x.phase = .query prompts) :
      Stage stack ⟨.receive k, x, [], [resp]⟩
  /-- The last message is under way. -/
  | judged {j : Judgement} {x : Exchange} {up : List ThreadMessage} {prompts : Option Text}
      (hup : ∀ m ∈ up, m.IsNote) (hphase : x.phase = .query prompts) :
      Stage stack ⟨.done j, x, up ++ [stack.lastMessage j], []⟩
  /-- The server has left. -/
  | finished {j : Judgement} {x : Exchange} (hphase : x.phase = .finished) : Stage stack ⟨.done j, x, [], []⟩

/-- The server in a query waits. -/
theorem sshd_query {x : Exchange} {prompts : Option Text} (hphase : x.phase = .query prompts) :
    sshd S answer x = .receive (x.received S answer prompts) := by
  rw [sshd, hphase]

/-- A note is accumulated. -/
theorem received_note (S : Setting) (answer : Nat → Text) (x : Exchange) (prompts : Option Text) {m : ThreadMessage}
    (hm : m.IsNote) :
    ∃ prompts', (x.received S answer prompts (some m)).phase = .query prompts' := by
  cases m with
  | note isError msg => exact ⟨_, rfl⟩
  | prompt echo msg => exact absurd hm id
  | acctExpired msg => exact absurd hm id
  | authErr msg => exact absurd hm id
  | success e => exact absurd hm id

/-- A prompt is put to the client. -/
theorem received_prompt {x : Exchange} {prompts : Option Text} (hdone : x.sshd.pam.pamDone = 0) (echo : Bool)
    (msg : Text) : (x.received S answer prompts (some (.prompt echo msg))).phase =
      .respond (answer x.given.length) := by
  simp [Exchange.received, queryBody, Exchange.ask, sshpamRespond, hdone]

/-- A step of the PAM process leads from a stage to a stage. -/
theorem stage_stepLeft (hstage : Stage stack c) (hstep : pamStep S answer c .left c') : Stage stack c' := by
  cases hstage with
  | @speaking p x up prompts hp hup hphase =>
    have hlive : (sshd S answer x).halted = false := by rw [sshd_query hphase]; rfl
    cases hp with
    | last hlast =>
      obtain ⟨j, rfl⟩ := hlast
      obtain ⟨m, s, hsend, rfl⟩ | ⟨k, n, down, hreceive, -, -⟩ | ⟨k, hreceive, -, -, -⟩ := stepLeft_cases hstep
      · cases hsend
        exact .judged hup hphase
      · cases hreceive
      · cases hreceive
    | note isError msg hp =>
      obtain ⟨m, s, hsend, rfl⟩ | ⟨k, n, down, hreceive, -, -⟩ | ⟨k, hreceive, -, -, -⟩ := stepLeft_cases hstep
      · cases hsend
        refine .speaking hp ?_ hphase
        intro m hm
        obtain hm | hm := List.mem_append.mp hm
        · exact hup m hm
        · rw [List.mem_singleton.mp hm]
          trivial
      · cases hreceive
      · cases hreceive
    | prompt echo msg hk =>
      obtain ⟨m, s, hsend, rfl⟩ | ⟨k, n, down, hreceive, -, -⟩ | ⟨k, hreceive, -, -, -⟩ := stepLeft_cases hstep
      · cases hsend
        exact .asked hk hup hphase
      · cases hreceive
      · cases hreceive
  | asked hk hup hphase =>
    obtain ⟨m, s, hsend, -⟩ | ⟨k, n, down, -, hdown, -⟩ | ⟨k, -, -, hhalted, -⟩ := stepLeft_cases hstep
    · cases hsend
    · cases hdown
    · rw [sshd_query hphase] at hhalted
      cases hhalted
  | answering hk hphase =>
    obtain ⟨m, s, hsend, -⟩ | ⟨k, n, down, -, hdown, -⟩ | ⟨k, -, -, hhalted, -⟩ := stepLeft_cases hstep
    · cases hsend
    · cases hdown
    · rw [sshd, hphase] at hhalted
      cases hhalted
  | answered hk hphase =>
    obtain ⟨m, s, hsend, -⟩ | ⟨k, n, down, hreceive, hdown, rfl⟩ | ⟨k, -, hdown, -, -⟩ := stepLeft_cases hstep
    · cases hsend
    · cases hreceive
      cases hdown
      exact .speaking (hk _) (fun m hm => absurd hm List.not_mem_nil) hphase
    · cases hdown
  | judged hup hphase => exact absurd (halted_eq_false_of_stepLeft hstep) Bool.noConfusion
  | finished hphase => exact absurd (halted_eq_false_of_stepLeft hstep) Bool.noConfusion

/-- A message that comes in is the first one under way. -/
theorem stepRight_receive {x : Exchange} {k : Option ThreadMessage → Exchange}
    {p : Process ThreadMessage Text Judgement}
    {m : ThreadMessage} {up : List ThreadMessage} {down : List Text} (hk : sshd S answer x = .receive k)
    (hstep : pamStep S answer ⟨p, x, m :: up, down⟩ .right c') : c' = ⟨p, k (some m), up, down⟩ := by
  obtain ⟨_, _, hsend, -⟩ | ⟨k', n, up', hreceive, hup, rfl⟩ | ⟨k', -, hup, -, -⟩ := stepRight_cases hstep
  · cases hk.symm.trans hsend
  · cases hk.symm.trans hreceive
    cases hup
    rfl
  · cases hup

/-- A step of the server leads from a stage to a stage. -/
theorem stage_stepRight (hdone : c.right.phase ≠ .finished → c.right.sshd.pam.pamDone = 0)
    (hauth : c.right.phase ≠ .finished → c.right.sshd.pam.authenticated = false) (hstage : Stage stack c)
    (hstep : pamStep S answer c .right c') : Stage stack c' := by
  cases hstage with
  | @speaking p x up prompts hp hup hphase =>
    cases up with
    | nil =>
      obtain ⟨_, _, hsend, -⟩ | ⟨k', n, up', -, hup, -⟩ | ⟨k', -, -, hhalted, -⟩ := stepRight_cases hstep
      · cases (sshd_query hphase).symm.trans hsend
      · cases hup
      · cases hp with
        | last hlast =>
          obtain ⟨j, rfl⟩ := hlast
          cases hhalted
        | note isError msg hp => cases hhalted
        | prompt echo msg hk => cases hhalted
    | cons m up =>
      obtain rfl := stepRight_receive (sshd_query hphase) hstep
      obtain ⟨prompts', hphase'⟩ := received_note S answer x prompts (hup m List.mem_cons_self)
      exact .speaking hp (fun n hn => hup n (List.mem_cons_of_mem m hn)) hphase'
  | @asked k x up prompts echo msg hk hup hphase =>
    cases up with
    | nil =>
      obtain rfl := stepRight_receive (sshd_query hphase) hstep
      exact .answering hk (received_prompt (hdone (hphase ▸ Phase.noConfusion)) echo msg)
    | cons m up =>
      obtain rfl := stepRight_receive (sshd_query hphase) hstep
      obtain ⟨prompts', hphase'⟩ := received_note S answer x prompts (hup m List.mem_cons_self)
      exact .asked hk (fun n hn => hup n (List.mem_cons_of_mem m hn)) hphase'
  | @answering k x resp hk hphase =>
    have haction : sshd S answer x = .send resp { x with phase := .query none, given := x.given ++ [resp] } := by
      rw [sshd, hphase]
    obtain ⟨_, _, hsend, rfl⟩ | ⟨k', n, up', -, hup, -⟩ | ⟨k', hreceive, -, -, -⟩ := stepRight_cases hstep
    · cases haction.symm.trans hsend
      exact .answered hk rfl
    · cases hup
    · cases haction.symm.trans hreceive
  | answered hk hphase =>
    obtain ⟨_, _, hsend, -⟩ | ⟨k', n, up', -, hup, -⟩ | ⟨k', -, -, hhalted, -⟩ := stepRight_cases hstep
    · cases (sshd_query hphase).symm.trans hsend
    · cases hup
    · cases hhalted
  | @judged j x up prompts hup hphase =>
    cases up with
    | nil =>
      obtain rfl := stepRight_receive (sshd_query hphase) hstep
      exact .finished (concluded S answer prompts stack (hauth (hphase ▸ Phase.noConfusion)) j).1.phase
    | cons m up =>
      obtain rfl := stepRight_receive (sshd_query hphase) hstep
      obtain ⟨prompts', hphase'⟩ := received_note S answer x prompts (hup m List.mem_cons_self)
      exact .judged (fun n hn => hup n (List.mem_cons_of_mem m hn)) hphase'
  | @finished j x hphase =>
    have hhalted : (sshd S answer x).halted = true := by rw [sshd, hphase]; rfl
    exact absurd (hhalted.symm.trans (halted_eq_false_of_stepLeft hstep)) Bool.noConfusion

/-- A process that waits is not told that there is nothing more. -/
theorem not_end (hstage : Stage stack c) {k : Option Text → Process ThreadMessage Text Judgement}
    (hleft : c.left.next = .receive k) : (sshd S answer c.right).halted = false := by
  cases hstage with
  | speaking _ _ hphase => rw [sshd_query hphase]; rfl
  | asked _ _ hphase => rw [sshd_query hphase]; rfl
  | answering _ hphase => rw [sshd, hphase]; rfl
  | answered _ hphase => rw [sshd_query hphase]; rfl
  | judged => cases hleft
  | finished => cases hleft

/-- The answers that have been given are those the process has received and those under way. -/
def Accounted (thread : Process ThreadMessage Text Judgement) (c : PamLink) : Prop :=
  ∃ taken sent, thread.Ran taken sent c.left ∧ c.right.given = taken ++ c.down

/-- A step keeps account of the answers. -/
theorem accounted_step {thread : Process ThreadMessage Text Judgement} (hstage : Stage stack c)
    (hacc : Accounted thread c) {side : Side} (hstep : pamStep S answer c side c') : Accounted thread c' := by
  obtain ⟨taken, sent, hran, hgiven⟩ := hacc
  cases side with
  | left =>
    obtain ⟨m, s, hsend, rfl⟩ | ⟨k, n, down, hreceive, hdown, rfl⟩ | ⟨k, hreceive, -, hhalted, -⟩ :=
      stepLeft_cases hstep
    · refine ⟨taken, sent ++ [m], .sent ?_, hgiven⟩
      rwa [← Process.eq_send_of_next hsend]
    · refine ⟨taken ++ [n], sent, .received ?_ n, ?_⟩
      · rwa [← Process.eq_receive_of_next hreceive]
      · rw [hgiven, hdown, List.append_assoc]
        rfl
    · exact absurd (hhalted.symm.trans (not_end hstage hreceive)) Bool.noConfusion
  | right =>
    cases hphase : c.right.phase with
    | query prompts =>
      have hquery := @sshd_query S answer _ _ hphase
      obtain ⟨_, _, hsend, -⟩ | ⟨k, m, up, hreceive, -, rfl⟩ | ⟨k, hreceive, -, -, rfl⟩ := stepRight_cases hstep
      · cases hquery.symm.trans hsend
      · cases hquery.symm.trans hreceive
        exact ⟨taken, sent, hran, (received_given _ _ _ _ _).trans hgiven⟩
      · cases hquery.symm.trans hreceive
        exact ⟨taken, sent, hran, (received_given _ _ _ _ _).trans hgiven⟩
    | respond resp =>
      have haction : sshd S answer c.right =
          .send resp { c.right with phase := .query none, given := c.right.given ++ [resp] } := by rw [sshd, hphase]
      obtain ⟨_, _, hsend, rfl⟩ | ⟨k, m, up, hreceive, -, -⟩ | ⟨k, hreceive, -, -, -⟩ := stepRight_cases hstep
      · cases haction.symm.trans hsend
        refine ⟨taken, sent, hran, ?_⟩
        rw [hgiven, List.append_assoc]
      · cases haction.symm.trans hreceive
      · cases haction.symm.trans hreceive
    | finished =>
      have hhalted : (sshd S answer c.right).halted = true := by rw [sshd, hphase]; rfl
      exact absurd (hhalted.symm.trans (halted_eq_false_of_stepLeft hstep)) Bool.noConfusion

/-- At any moment the two are in one of the stages, and the answers are accounted for. -/
theorem stage_of_run (hdone : d.pam.pamDone = 0) (hauth : d.pam.authenticated = false)
    (hrun : Run (pamStep S answer) (PamLink.start stack o h d) as c) :
    Stage stack c ∧ Accounted (sshpamThread stack o d.account h) c := by
  have hinv := hrun.invariant (fun c => (c.right.phase ≠ .finished → c.right.sshd = d) ∧ Stage stack c ∧
    Accounted (sshpamThread stack o d.account h) c) ?_ ⟨fun _ => rfl,
      .speaking (speaks_sshpamThread stack o d.account h) (fun m hm => absurd hm List.not_mem_nil) rfl,
      [], [], .start, rfl⟩
  · exact hinv.2
  rintro c side c' ⟨hsshd, hstage, hacc⟩ hstep
  refine ⟨sshd_step hdone hsshd hstep, ?_, accounted_step hstage hacc hstep⟩
  cases side with
  | left => exact stage_stepLeft hstage hstep
  | right =>
    refine stage_stepRight (fun hlive => ?_) (fun hlive => ?_) hstage hstep
    · rw [hsshd hlive]
      exact hdone
    · rw [hsshd hlive]
      exact hauth

/-- **At any moment** at most one answer is under way, and then the process waits for it and has said nothing more;
the process has received the other answers in order; and when the server has left, the process is done and no message
is left unread. -/
theorem orderly (stack : PamStack H) (o : PamOptions) (h : H) (d : Sshd) (S : Setting) (answer : Nat → Text)
    (as : List Side) (c : PamLink) (hdone : d.pam.pamDone = 0) (hauth : d.pam.authenticated = false)
    (hrun : Run (pamStep S answer) (PamLink.start stack o h d) as c) :
    Accounted (sshpamThread stack o d.account h) c ∧
      (c.down = [] ∨ ∃ resp k, c.down = [resp] ∧ c.up = [] ∧ c.left = .receive k) ∧
      (c.right.phase = .finished → c.up = [] ∧ c.down = [] ∧ ∃ j, c.left = .done j) := by
  obtain ⟨hstage, hacc⟩ := stage_of_run hdone hauth hrun
  refine ⟨hacc, ?_⟩
  cases hstage with
  | speaking _ _ hphase => exact ⟨.inl rfl, fun hover => Phase.noConfusion (hphase.symm.trans hover)⟩
  | asked _ _ hphase => exact ⟨.inl rfl, fun hover => Phase.noConfusion (hphase.symm.trans hover)⟩
  | answering _ hphase => exact ⟨.inl rfl, fun hover => Phase.noConfusion (hphase.symm.trans hover)⟩
  | @answered k x resp prompts _ hphase =>
    exact ⟨.inr ⟨resp, k, rfl, rfl, rfl⟩, fun hover => Phase.noConfusion (hphase.symm.trans hover)⟩
  | judged _ hphase => exact ⟨.inl rfl, fun hover => Phase.noConfusion (hphase.symm.trans hover)⟩
  | @finished j x _ => exact ⟨.inl rfl, fun _ => ⟨rfl, rfl, j, rfl⟩⟩

/-- At the end of an exchange about a password. -/
theorem orderly_unix :
    let c : PamLink := ⟨.done (.ok ⟨1, 0, ["TZ=UTC".toList], ["KRB5CCNAME=/tmp/krb5cc_1000".toList]⟩),
      unixExchange, [], []⟩
    Accounted (sshpamThread unixStack pamOptions newSshd.account ()) c ∧
      (c.down = [] ∨ ∃ resp k, c.down = [resp] ∧ c.up = [] ∧ c.left = .receive k) ∧
      (c.right.phase = .finished → c.up = [] ∧ c.down = [] ∧ ∃ j, c.left = .done j) :=
  orderly unixStack pamOptions () newSshd userConnection (fun _ => "toor".toList) _ _ rfl rfl run_unixExchange

end GexCloud.Ssh
