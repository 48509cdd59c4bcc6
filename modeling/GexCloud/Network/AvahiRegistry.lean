import GexCloud.Network.AvahiHosts
import Mathlib.Data.Fin.VecNotation
import Mathlib.Data.Fintype.Basic

/-! # The registry that `/etc/avahi/hosts` should be

A line `address name.local` is a record of the container with this name or host name. A container that
runs should have one record, with the address of its last start, and one that was removed none.

* `Registry.Holds` — that invariant, and `RegistryLaw` — that every run keeps it and no operation
  touches the records of another container.
* `Careful` — the condition on an operation under which it does.
* **`registryLaw_careful`** — runs of careful operations obey the law. -/

namespace GexCloud.Avahi

open Texts Runs

variable {ι : Type} (m : Fleet ι)

/-! ## Records -/

/-- The line is a record of the container. -/
def IsRecord (c : ι) (line : Text) : Prop :=
  ∃ name ∈ [m.name c, m.host c], (cut ' ' line).2 = some (name ++ ".local".toList)

instance (c : ι) (line : Text) : Decidable (IsRecord m c line) := by unfold IsRecord; infer_instance

/-- The address of a record. -/
def recordAddress (line : Text) : Text := (cut ' ' line).1

/-- The records of a container in the file. -/
def records (c : ι) (content : Text) : List Text := (bodies content).filter (IsRecord m c)

/-! ## The law -/

/-- What a container owes to its last operation: a record with its address after a start, none after
its removal. A container that was created is started before anything is asked of it. -/
inductive Status
  | idle
  | started (address : Address)
  | removed

/-- What an operation makes of the status of its container. -/
def Op.status : Op ι → Status
  | .add _ _ => .idle
  | .startBash _ address | .startRuby _ address _ => .started address
  | .remove _ => .removed

/-- The files of the machine and the status of its containers. -/
structure Registry (ι : Type) where
  files : Files
  status : ι → Status

/-- The content of `/etc/avahi/hosts`. -/
def Registry.hosts (s : Registry ι) : Text := (s.files avahiHosts).getD []

/-- The records are what a status asks for. -/
def Status.Met (recs : List Text) : Status → Prop
  | .idle => True
  | .started address => recs.map recordAddress = [address.1]
  | .removed => recs = []

/-- **The invariant**: the records of every container are what its status asks for. -/
def Registry.Holds (s : Registry ι) : Prop := ∀ c, (s.status c).Met (records m c s.hosts)

/-- The file is there, without records of the containers. -/
structure Registry.Start (s : Registry ι) : Prop where
  exists_hosts : ∃ content, s.files avahiHosts = some content
  records_eq : ∀ c, records m c s.hosts = []
  status_eq : ∀ c, s.status c = .idle

/-- One operation, and what its container owes to it. -/
def Registry.perform [DecidableEq ι] (s : Registry ι) (op : Op ι) :
    Except RubyError (Registry ι) := do
  let files ← op.perform m s.files
  return ⟨files, Function.update s.status op.container op.status⟩

/-- The operations as a relation. -/
def Step [DecidableEq ι] (s : Registry ι) (op : Op ι) (t : Registry ι) : Prop :=
  s.perform m op = .ok t

/-- **The law of the registry**, for the runs of a step relation: the invariant holds after every
operation, and no operation changes the records of another container. -/
def RegistryLaw (R : Registry ι → Op ι → Registry ι → Prop) : Prop :=
  ∀ s₀ ops s, s₀.Start m → Run R s₀ ops s → s.Holds m ∧
    ∀ op t, R s op t → ∀ c, c ≠ op.container → records m c t.hosts = records m c s.hosts

/-! ## The condition -/

/-- No other container answers to the name. -/
def Unshared (c : ι) (name : Text) : Prop := ∀ c', c' ≠ c → name ≠ m.name c' ∧ name ≠ m.host c'

/-- **The condition on an operation**, besides a file whose last line is terminated: a creation or a
start with the `bash` script writes a name that no other container answers to; the script finds every
record of its container by the name, and no record of another; the Ruby script finds the record
already there; a removal finds none. -/
def Careful (s : Registry ι) (op : Op ι) : Prop :=
  Terminated s.hosts ∧
  match op with
  | .add c _ => Unshared m c (m.name c)
  | .startBash c _ => Unshared m c (m.host c) ∧
      ∀ c', ∀ line ∈ records m c' s.hosts, breMatch (m.name c) line = true ↔ c' = c
  | .startRuby c address _ => (records m c s.hosts).map recordAddress = [address.1]
  | .remove c => records m c s.hosts = []

/-! ## What comes and goes -/

variable {m} {c : ι} {name : Text} {address : Address}

/-- A line put together from an address and a name is a record of whoever answers to the name. -/
theorem isRecord_iff : IsRecord m c (address.1 ++ ' ' :: (name ++ ".local".toList)) ↔
    name = m.name c ∨ name = m.host c := by
  have hspace : ' ' ∉ address.1 := not_mem_address (by decide) address
  simp only [IsRecord, cut_append hspace, Option.some.injEq, List.append_left_inj, List.mem_cons,
    List.not_mem_nil, or_false, exists_eq_right']

/-- The address of such a line. -/
theorem recordAddress_eq : recordAddress (address.1 ++ ' ' :: (name ++ ".local".toList)) = address.1 := by
  rw [recordAddress, cut_append (not_mem_address (by decide) address)]

/-- A line that ends with a host name is no record: no host name contains a dot. -/
theorem not_isRecord_host (front : Text) (hfront : ' ' ∉ front) (c' : ι) :
    ¬ IsRecord m c (front ++ ' ' :: m.host c') := by
  rintro ⟨name, -, hname⟩
  rw [cut_append hfront, Option.some.injEq] at hname
  have hdot : '.' ∈ m.host c' := by
    rw [hname]
    exact List.mem_append_right _ (by decide)
  exact m.host_ok c' '.' (by decide) hdot

/-- A line of one word is no record. -/
theorem not_isRecord_word {line : Text} (h : ' ' ∉ line) : ¬ IsRecord m c line := by
  rintro ⟨name, -, hname⟩
  rw [cut_of_not_mem h] at hname
  cases hname

/-- **The Ruby script appends no record**, whatever it was given. -/
theorem records_startRuby (c' : ι) (address : Address) (aws : Bool) :
    ((Op.startRuby c' address aws).adds m).filter (IsRecord m c) = [] := by
  have haddress : ¬ IsRecord m c address.1 := not_isRecord_word (not_mem_address (by decide) address)
  have hlocal : ¬ IsRecord m c ".local".toList := not_isRecord_word (by decide)
  have hsplit : ¬ IsRecord m c (' ' :: m.host c') := not_isRecord_host [] (by simp) c'
  have hjoined : ¬ IsRecord m c (address.1 ++ ' ' :: m.host c') :=
    not_isRecord_host address.1 (not_mem_address (by decide) address) c'
  rw [List.filter_eq_nil_iff]
  intro line hline
  rw [decide_eq_true_eq]
  cases aws with
  | false =>
    simp only [Op.adds, List.mem_cons, List.not_mem_nil, or_false] at hline
    rcases hline with rfl | rfl | rfl
    · exact haddress
    · exact hsplit
    · exact hlocal
  | true =>
    simp only [Op.adds, List.mem_cons, List.not_mem_nil, or_false] at hline
    rcases hline with rfl | rfl
    · exact hjoined
    · exact hlocal

/-- A name that no other container answers to makes no record of another. -/
theorem Unshared.filter_eq_nil {c' : ι} (h : Unshared m c name) (hne : c' ≠ c) :
    [address.1 ++ ' ' :: (name ++ ".local".toList)].filter (IsRecord m c') = [] := by
  have hno : ¬ IsRecord m c' (address.1 ++ ' ' :: (name ++ ".local".toList)) := by
    rw [isRecord_iff, not_or]
    exact h c' hne
  rw [List.filter_singleton, decide_eq_false hno]
  rfl

variable [DecidableEq ι] {s t : Registry ι} {op : Op ι}

/-- A step in its two parts. -/
theorem step_iff : Step m s op t ↔ op.perform m s.files = .ok t.files ∧
    t.status = Function.update s.status op.container op.status := by
  simp only [Step, Registry.perform, bind_eq_ok_iff]
  constructor
  · rintro ⟨files, hfiles, ⟨⟩⟩
    exact ⟨hfiles, rfl⟩
  · rintro ⟨hfiles, hstatus⟩
    refine ⟨t.files, hfiles, ?_⟩
    rw [← hstatus]
    rfl

/-- The records after an operation: those before that do not go, and those that come. -/
theorem Step.records (h : Step m s op t) (hexists : ∃ content, s.files avahiHosts = some content)
    (hterm : Terminated s.hosts) (c : ι) :
    records m c t.hosts = (records m c s.hosts).filter (fun line => !op.drops m line) ++
      (op.adds m).filter (IsRecord m c) := by
  obtain ⟨content, hcontent⟩ := hexists
  have hhosts : s.hosts = content := by rw [Registry.hosts, hcontent, Option.getD_some]
  rw [hhosts] at hterm ⊢
  obtain ⟨files', hperform, hfiles'⟩ := perform_eq (m := m) op hcontent
  obtain rfl : t.files = files' := Except.ok.inj ((step_iff.mp h).1.symm.trans hperform)
  have hterm' := terminated_deleteLines hterm fun line => op.drops m line
  rw [Registry.hosts, hfiles', Option.getD_some, Avahi.records, written,
    bodies_append_lines hterm' (newline_not_mem_adds op), bodies_deleteLines hterm,
    List.filter_append, List.filter_comm]
  rfl

/-- The file stays there. -/
theorem Step.exists_hosts (h : Step m s op t)
    (hexists : ∃ content, s.files avahiHosts = some content) :
    ∃ content, t.files avahiHosts = some content := by
  obtain ⟨content, hcontent⟩ := hexists
  obtain ⟨files', hperform, hfiles'⟩ := perform_eq (m := m) op hcontent
  obtain rfl : t.files = files' := Except.ok.inj ((step_iff.mp h).1.symm.trans hperform)
  exact ⟨_, hfiles'⟩

/-- **A careful operation leaves the records of the other containers.** -/
theorem Careful.frame (careful : Careful m s op) (h : Step m s op t)
    (hexists : ∃ content, s.files avahiHosts = some content) (hne : c ≠ op.container) :
    records m c t.hosts = records m c s.hosts := by
  rw [h.records hexists careful.1 c]
  have hkept : ∀ l : List Text, l.filter (fun _ => !false) = l := fun l => by simp
  obtain ⟨-, careful⟩ := careful
  cases op with
  | add c₀ ip =>
    rw [Op.adds, careful.filter_eq_nil hne, List.append_nil]
    exact hkept _
  | startBash c₀ address =>
    obtain ⟨hunshared, hmatch⟩ := careful
    rw [Op.adds, hunshared.filter_eq_nil hne, List.append_nil, List.filter_eq_self]
    intro line hline
    have hno : ¬ breMatch (m.name c₀) line = true := fun hyes =>
      hne ((hmatch c line hline).mp hyes)
    simpa [Op.drops] using hno
  | startRuby c₀ address aws =>
    rw [records_startRuby, List.append_nil]
    exact hkept _
  | remove c₀ =>
    rw [Op.adds, List.filter_nil, List.append_nil]
    exact hkept _

/-- **After a careful operation its container has the records it should.** -/
theorem Careful.met (careful : Careful m s op) (h : Step m s op t)
    (hexists : ∃ content, s.files avahiHosts = some content) :
    op.status.Met (records m op.container t.hosts) := by
  rw [h.records hexists careful.1 op.container]
  have hkept : ∀ l : List Text, l.filter (fun _ => !false) = l := fun l => by simp
  obtain ⟨-, careful⟩ := careful
  cases op with
  | add c₀ ip => trivial
  | startBash c₀ address =>
    have hgone : (records m c₀ s.hosts).filter
        (fun line => !(Op.startBash c₀ address).drops m line) = [] := by
      rw [List.filter_eq_nil_iff]
      intro line hline
      have hyes := (careful.2 c₀ line hline).mpr rfl
      simp [Op.drops, hyes]
    have hnew : IsRecord m c₀ (address.1 ++ ' ' :: (m.host c₀ ++ ".local".toList)) :=
      isRecord_iff.mpr (Or.inr rfl)
    have hadds : ((Op.startBash c₀ address).adds m).filter (IsRecord m c₀) =
        [address.1 ++ ' ' :: (m.host c₀ ++ ".local".toList)] := by
      rw [Op.adds, List.filter_singleton, decide_eq_true hnew]
      rfl
    show (_ : List Text).map recordAddress = [address.1]
    rw [Op.container, hgone, hadds, List.nil_append, List.map_singleton, recordAddress_eq]
  | startRuby c₀ address aws =>
    show (_ : List Text).map recordAddress = [address.1]
    rw [records_startRuby, List.append_nil]
    exact (congrArg (List.map recordAddress) (hkept _)).trans careful
  | remove c₀ =>
    show _ ++ _ = []
    rw [Op.adds, List.filter_nil, List.append_nil]
    exact (hkept _).trans careful

/-- A careful operation keeps the invariant. -/
theorem Careful.holds (careful : Careful m s op) (h : Step m s op t)
    (hexists : ∃ content, s.files avahiHosts = some content) (holds : s.Holds m) : t.Holds m := by
  intro c
  rw [(step_iff.mp h).2]
  by_cases hc : c = op.container
  · subst hc
    rw [Function.update_self]
    exact careful.met h hexists
  · rw [Function.update_of_ne hc, careful.frame h hexists hc]
    exact holds c

/-- **Careful runs obey the law**: after every operation the records are those of the last starts, and
nothing but the records of its own container was touched. -/
theorem registryLaw_careful (m : Fleet ι) : RegistryLaw m (guarded (Careful m) (Step m)) := by
  intro s₀ ops s start hrun
  have hstart : s₀.Holds m := by
    intro c
    rw [start.status_eq c]
    trivial
  obtain ⟨hexists, holds⟩ := hrun.invariant
    (fun s => (∃ content, s.files avahiHosts = some content) ∧ s.Holds m)
    (fun _ _ _ hs hstep => ⟨hstep.2.exists_hosts hs.1, hstep.1.holds hstep.2 hs.1 hs.2⟩)
    ⟨start.exists_hosts, hstart⟩
  exact ⟨holds, fun op t hstep c hne => hstep.1.frame hstep.2 hexists hne⟩

/-! ## Runs on a machine with three containers -/

instance (recs : List Text) (status : Status) : Decidable (status.Met recs) := by
  cases status <;> unfold Status.Met <;> infer_instance

instance [Fintype ι] (s : Registry ι) : Decidable (s.Holds m) := by
  unfold Registry.Holds; infer_instance

instance [Fintype ι] (c : ι) (name : Text) : Decidable (Unshared m c name) := by
  unfold Unshared; infer_instance

instance [Fintype ι] (s : Registry ι) (op : Op ι) : Decidable (Careful m s op) := by
  cases op <;> unfold Careful <;> infer_instance

/-- Operations that can be computed, as a run. -/
theorem exists_run (ops : List (Op ι)) {G : Registry ι → Op ι → Prop} [∀ s op, Decidable (G s op)]
    {P : Registry ι → Prop} [DecidablePred P]
    (h : (ops.foldlM (fun s op => if G s op then (s.perform m op).toOption else none) s).any
      (fun t => decide (P t)) = true) :
    ∃ t, Run (guarded G (Step m)) s ops t ∧ P t := by
  obtain ⟨t, hrun, hP⟩ := exists_run_guarded ops h
  refine ⟨t, hrun.mono fun s op t hstep => ⟨hstep.1, ?_⟩, hP⟩
  have hsome : (s.perform m op).toOption = some t := hstep.2
  unfold Step
  cases hperform : s.perform m op with
  | ok t' =>
    rw [hperform] at hsome
    exact congrArg _ (Option.some.inj hsome)
  | error err =>
    rw [hperform] at hsome
    cases hsome

/-- The names of three containers. -/
def exampleName : Fin 3 → Text :=
  ![ "app".toList, "app2".toList, "my_db".toList ]

/-- Three containers on the node `n1`, which `gex_create_slave_container` gives the host names
`app-n1`, `app2-n1` and `my-db-n1`. -/
def exampleFleet : Fleet (Fin 3) where
  name := exampleName
  hostName c := exampleName c ++ "-n1".toList
  name_ok := by decide
  hostName_ok := by decide
  compile pattern :=
    .ok ⟨breMatch ((pattern.drop 3).take (pattern.length - 6)), fun replacement _ => .ok replacement⟩
  compile_ok _ := ⟨_, rfl⟩

/-- Two addresses. -/
def exampleAddress : Bool → Address
  | false => ⟨"10.0.0.5".toList, by decide⟩
  | true => ⟨"10.0.0.6".toList, by decide⟩

/-- A file without records of the containers. -/
def exampleRegistry : Registry (Fin 3) where
  files := Function.update (fun _ => none) avahiHosts (some "127.0.0.1 localhost\n".toList)
  status := fun _ => .idle

/-- A registry in which nothing is out of order. -/
theorem exampleRegistry_start : exampleRegistry.Start exampleFleet where
  exists_hosts := ⟨"127.0.0.1 localhost\n".toList, by simp [exampleRegistry]⟩
  records_eq := by decide +kernel
  status_eq _ := rfl

/-- A careful run: `app` is created, started and started again with another address. -/
theorem registryLaw_careful_app : ∃ t, Run (guarded (Careful exampleFleet) (Step exampleFleet))
    exampleRegistry [.add 0 (exampleAddress false), .startBash 0 (exampleAddress false),
      .startBash 0 (exampleAddress true)] t ∧ t.Holds exampleFleet := by
  obtain ⟨t, hrun, -⟩ := exists_run (m := exampleFleet) (s := exampleRegistry)
    [.add 0 (exampleAddress false), .startBash 0 (exampleAddress false),
      .startBash 0 (exampleAddress true)]
    (G := Careful exampleFleet) (P := fun _ => True) (by decide +kernel)
  exact ⟨t, hrun, (registryLaw_careful exampleFleet _ _ _ exampleRegistry_start hrun).1⟩

/-- Runs after which a container has not the records it should: a container is removed; the Ruby script
starts one that has an older record, and one that has none; the `bash` script starts one whose name
another contains, and twice one whose host name does not contain its name. -/
def failingRuns : List (List (Op (Fin 3))) :=
  [[.startBash 0 (exampleAddress false), .remove 0],
    [.startBash 0 (exampleAddress false), .startRuby 0 (exampleAddress true) true],
    [.startRuby 0 (exampleAddress false) false],
    [.startBash 1 (exampleAddress false), .startBash 0 (exampleAddress false)],
    [.startBash 2 (exampleAddress false), .startBash 2 (exampleAddress true)]]

/-- **The law is broken** by each of the programs. -/
theorem registryLaw_fails : ¬ RegistryLaw exampleFleet (Step exampleFleet) ∧
    ∀ ops ∈ failingRuns, ∃ t, Run (Step exampleFleet) exampleRegistry ops t ∧
      ¬ t.Holds exampleFleet := by
  have hfails : ∀ ops ∈ failingRuns, ∃ t, Run (Step exampleFleet) exampleRegistry ops t ∧
      ¬ t.Holds exampleFleet := by
    have hcheck : ∀ ops ∈ failingRuns, (ops.foldlM (fun s op => if True then
        (Registry.perform exampleFleet s op).toOption else none) exampleRegistry).any
        (fun t => decide (¬ t.Holds exampleFleet)) = true := by decide +kernel
    intro ops hops
    obtain ⟨t, hrun, ht⟩ := exists_run ops (G := fun _ _ => True) (hcheck ops hops)
    exact ⟨t, hrun.of_guarded, ht⟩
  refine ⟨fun hlaw => ?_, hfails⟩
  obtain ⟨t, hrun, ht⟩ := hfails _ List.mem_cons_self
  exact ht (hlaw _ _ _ exampleRegistry_start hrun).1

end GexCloud.Avahi
