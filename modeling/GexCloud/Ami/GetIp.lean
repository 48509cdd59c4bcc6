import GexCloud.Registry.Stores
import GexCloud.Support.Networks
import GexCloud.Support.Pool
import Mathlib.Data.Fintype.Card

/-! # `get_ip.rb`: the addresses of the containers of a cluster

The coordinator keeps a counter in a file. Every run of `get_ip.rb` opens the file, takes the lock,
reads the counter, prints the address for it, and puts the next number in place of the old one. Any
number of runs may be under way; the operating system lets only one of them hold the lock.

* `getIp` — the address for a counter value; **`address_injective`** — no two values share one.
* `Phase`, `Client`, `Host` — where a run is, what it holds of the open file, and what all runs share.
* `getIpRun` — what a run does next.
* `Knows`, `Outside`, `Inv` — what the run with the lock knows, where the other runs can be, and the
  invariant of the host with all its runs.
* **`addresses_distinct`** — finished runs have printed different addresses, and whenever the lock is
  free the counter is one more than the number of finished runs. -/

namespace GexCloud.GetIp

open Texts Runs Registry

/-! ## Addresses -/

/-- `get_ip`. -/
def getIp (index : Int) : Text :=
  "10.175.".toList ++ (signed (2 * index / 256) ++ '.' :: signed (2 * index % 256))

/-- What a run prints: `puts get_ip(index)`. -/
def address (index : Int) : Text := getIp index ++ ['\n']

/-- **Different counter values give different addresses.** The two parts of the address are the two
digits of twice the value in base 256. -/
theorem getIp_injective : Function.Injective getIp := by
  intro m n h
  obtain ⟨hhigh, hrest⟩ := Networks.signed_append_dot_inj (List.append_cancel_left h)
  have hlow : 2 * m % 256 = 2 * n % 256 := signed_injective hrest
  omega

/-- Different counter values are printed differently. -/
theorem address_injective : Function.Injective address :=
  fun _ _ h => getIp_injective (List.append_cancel_right h)

/-! ## The counter file -/

/-- A file made longer, with zero characters, up to a position. -/
def padTo (n : Nat) (file : Text) : Text := file ++ List.replicate (n - file.length) '\x00'

/-- `write` at a position: what stood there is replaced, what stands behind stays. -/
def writeAt (file : Text) (pos : Nat) (buffer : Text) : Text :=
  (padTo pos file).take pos ++ buffer ++ file.drop (pos + buffer.length)

/-- `truncate`. -/
def truncateTo (file : Text) (n : Nat) : Text := (padTo n file).take n

/-- Writing at the start and truncating behind leaves what was written, whatever stood there. -/
theorem truncateTo_writeAt (file buffer : Text) :
    truncateTo (writeAt file 0 buffer) buffer.length = buffer := by
  simp [truncateTo, writeAt, padTo]

/-- The number in the first line, as `readline.strip.to_i` reads it. -/
def counter (file : Text) : Option Int := (lines file).head?.map fun line => toI (strip line)

/-- What `create_counter` leaves: `echo 1 > /home/vagrant/counter`. -/
def createCounter : Text := "1\n".toList

/-- The digits and the sign of a number are no white space. -/
theorem isSpace_of_mem_signed {n : Int} {c : Char} (h : c ∈ signed n) : isSpace c.toNat = false := by
  rcases isDigit_of_mem_signed h with h | rfl
  · exact isSpace_of_isDigit h
  · decide

/-- **The text of a number is read as that number.** -/
theorem counter_signed (n : Int) : counter (signed n) = some n := by
  have hline : '\n' ∉ signed n := by
    intro h
    exact absurd (isSpace_of_mem_signed h) (by decide)
  have hstrip : strip (signed n) = signed n := stripBy_of_forall fun _ hc => isSpace_of_mem_signed hc
  rw [counter, lines_of_not_mem (signed_ne_nil n) hline]
  simp [hstrip]

/-! ## A run of `get_ip.rb` -/

/-- What a run does next. -/
inductive Phase
  /-- `File.open(COUNTER_PATH, "r+")`. -/
  | opening
  /-- `file.flock(File::LOCK_EX)`. -/
  | locking
  /-- `index = file.readline.strip.to_i`. -/
  | reading
  /-- `puts get_ip(index)`. -/
  | printing (index : Int)
  /-- `index = index + 1` and `file.rewind`. -/
  | rewinding (index : Int)
  /-- `file.write(index)`. -/
  | writing (index : Int)
  /-- `file.flush`. -/
  | flushing
  /-- `file.truncate(file.pos)`. -/
  | truncating
  /-- The end of the block, which closes the file. -/
  | closing
  /-- The script has ended. -/
  | finished
  /-- The script has ended with `EOFError`; the file is closed. -/
  | failed
  deriving DecidableEq

/-- A run: its phase, and the position and the unwritten characters of its open file. -/
structure Client where
  phase : Phase
  pos : Nat
  buffer : Text
  deriving DecidableEq

/-- What the runs share: the counter file, who holds its lock, and what each run has printed. -/
structure Host (ι : Type) where
  file : Text
  lock : Option ι
  stdout : ι → Text

/-- A run in a phase, with the file not open, or just opened. -/
def Client.fresh (phase : Phase) : Client := ⟨phase, 0, []⟩

variable {ι : Type} [DecidableEq ι]

/-- **What run `i` does next**, if it can. Only the lock makes a run wait. -/
def getIpRun (i : ι) (c : Client) (s : Host ι) : Option (Client × Host ι) :=
  match c.phase with
  | .opening => some (.fresh .locking, s)
  | .locking =>
    if s.lock = none then some ({ c with phase := .reading }, { s with lock := some i }) else none
  | .reading =>
    match lines (s.file.drop c.pos) with
    | [] => some (.fresh .failed, { s with lock := none })
    | line :: _ =>
      some ({ c with phase := .printing (toI (strip line)), pos := c.pos + line.length }, s)
  | .printing index =>
    some ({ c with phase := .rewinding index },
      { s with stdout := Function.update s.stdout i (s.stdout i ++ address index) })
  | .rewinding index => some ({ c with phase := .writing (index + 1), pos := 0 }, s)
  | .writing index => some ({ c with phase := .flushing, buffer := c.buffer ++ signed index }, s)
  | .flushing =>
    some (⟨.truncating, c.pos + c.buffer.length, []⟩, { s with file := writeAt s.file c.pos c.buffer })
  | .truncating => some ({ c with phase := .closing }, { s with file := truncateTo s.file c.pos })
  | .closing => some (.fresh .finished, { s with lock := none })
  | .finished => none
  | .failed => none

/-- The start: the counter file as `create_counter` left it, and no run has begun. -/
def beginning (ι : Type) : Pool ι Client (Host ι) :=
  ⟨⟨createCounter, none, fun _ => []⟩, fun _ => .fresh .opening⟩

/-- The run has ended regularly. -/
def Client.Finished (c : Client) : Prop := c.phase = .finished

instance (c : Client) : Decidable c.Finished := by unfold Client.Finished; infer_instance

/-! ## The invariant -/

/-- **What the run with the lock knows** when `n` runs have finished: before it has printed, the counter
is `n + 1`; from then on its address is the one for `n + 1`, and it is putting `n + 2` into the file. -/
inductive Knows (n : Nat) (file out : Text) : Client → Prop
  | reading (hcounter : counter file = some ((n : Int) + 1)) (hout : out = []) :
      Knows n file out ⟨.reading, 0, []⟩
  | printing {pos : Nat} (hout : out = []) : Knows n file out ⟨.printing (n + 1), pos, []⟩
  | rewinding {pos : Nat} (hout : out = address (n + 1)) :
      Knows n file out ⟨.rewinding (n + 1), pos, []⟩
  | writing (hout : out = address (n + 1)) : Knows n file out ⟨.writing (n + 1 + 1), 0, []⟩
  | flushing (hout : out = address (n + 1)) :
      Knows n file out ⟨.flushing, 0, signed (n + 1 + 1)⟩
  | truncating (hout : out = address (n + 1))
      (hfile : truncateTo file (signed (n + 1 + 1)).length = signed (n + 1 + 1)) :
      Knows n file out ⟨.truncating, (signed (n + 1 + 1)).length, []⟩
  | closing {pos : Nat} (hout : out = address (n + 1)) (hfile : file = signed (n + 1 + 1)) :
      Knows n file out ⟨.closing, pos, []⟩

/-- **Where a run without the lock is**: before the lock with nothing printed, or at its end with the
address for one of the values up to `n` printed. -/
inductive Outside (n : Nat) (out : Text) : Client → Prop
  | opening (hout : out = []) : Outside n out (.fresh .opening)
  | locking (hout : out = []) : Outside n out (.fresh .locking)
  | finished {k : Nat} (hpos : 1 ≤ k) (hle : k ≤ n) (hout : out = address k) :
      Outside n out (.fresh .finished)

/-- A run outside stays where it may be when further runs finish. -/
theorem Outside.mono {m n : Nat} {out : Text} {c : Client} (h : Outside m out c) (hmn : m ≤ n) :
    Outside n out c := by
  cases h with
  | opening hout => exact .opening hout
  | locking hout => exact .locking hout
  | finished hpos hle hout => exact .finished hpos (by omega) hout

/-- The run with the lock has not finished. -/
theorem Knows.not_finished {n : Nat} {file out : Text} {c : Client} (h : Knows n file out c) :
    ¬ c.Finished := by
  cases h <;> simp [Client.Finished]

/-- A step of a run affects only what this run prints. -/
theorem getIpRun_stdout_ne {i j : ι} {c c' : Client} {s s' : Host ι}
    (h : getIpRun i c s = some (c', s')) (hj : j ≠ i) : s'.stdout j = s.stdout j := by
  unfold getIpRun at h
  split at h
  case h_3 =>
    -- reading: the file is read, or the run fails at its end
    split at h <;> cases h <;> rfl
  case h_2 =>
    split at h <;> cases h
    rfl
  case h_4 =>
    cases h
    exact Function.update_of_ne hj ..
  all_goals cases h
  all_goals rfl

/-- **A step without the lock**: the run opens the file, or takes the free lock. -/
theorem Outside.step {n : Nat} {i : ι} {c c' : Client} {s s' : Host ι}
    (h : Outside n (s.stdout i) c) (hstep : getIpRun i c s = some (c', s')) :
    ¬ c.Finished ∧
      ((c' = .fresh .locking ∧ s.stdout i = [] ∧ s' = s) ∨
        (c' = ⟨.reading, 0, []⟩ ∧ s.stdout i = [] ∧ s.lock = none ∧ s' = { s with lock := some i })) := by
  cases h with
  | opening hout =>
    cases hstep
    exact ⟨by simp [Client.Finished, Client.fresh], .inl ⟨rfl, hout, rfl⟩⟩
  | locking hout =>
    by_cases hlock : s.lock = none
    · have hstep : some ((⟨.reading, 0, []⟩ : Client), { s with lock := some i }) = some (c', s') := by
        rw [← hstep, getIpRun, Client.fresh, if_pos hlock]
      cases hstep
      exact ⟨by simp [Client.Finished, Client.fresh], .inr ⟨rfl, hout, hlock, rfl⟩⟩
    · rw [getIpRun, Client.fresh, if_neg hlock] at hstep
      cases hstep
  | finished hpos hle hout => cases hstep

/-- **A step with the lock**: the run goes on and still knows what it has to, or it closes the file,
with the next number in it and its own address printed. -/
theorem Knows.step {n : Nat} {i : ι} {c c' : Client} {s s' : Host ι}
    (h : Knows n s.file (s.stdout i) c) (hstep : getIpRun i c s = some (c', s')) :
    (s'.lock = s.lock ∧ Knows n s'.file (s'.stdout i) c') ∨
      (s'.lock = none ∧ c' = .fresh .finished ∧ s'.file = signed (n + 1 + 1) ∧
        s'.stdout i = address (n + 1)) := by
  cases h with
  | reading hcounter hout =>
    -- the counter is in the first line, so there is a line to read
    left
    cases hlines : lines s.file with
    | nil => simp [counter, hlines] at hcounter
    | cons line rest =>
      have hvalue : toI (strip line) = n + 1 := by simpa [counter, hlines] using hcounter
      simp only [getIpRun, List.drop_zero, hlines, hvalue] at hstep
      cases hstep
      exact ⟨rfl, .printing hout⟩
  | printing hout =>
    left
    cases hstep
    exact ⟨rfl, .rewinding (by simp [hout])⟩
  | rewinding hout =>
    left
    cases hstep
    exact ⟨rfl, .writing hout⟩
  | writing hout =>
    left
    cases hstep
    exact ⟨rfl, .flushing hout⟩
  | flushing hout =>
    left
    cases hstep
    refine ⟨rfl, ?_⟩
    have hfile := truncateTo_writeAt s.file (signed (n + 1 + 1))
    simpa using Knows.truncating hout hfile
  | truncating hout hfile =>
    left
    cases hstep
    exact ⟨rfl, .closing hout hfile⟩
  | closing hout hfile =>
    right
    cases hstep
    exact ⟨rfl, rfl, hfile, hout⟩

variable [Fintype ι]

/-- **The invariant** of the host with all its runs. -/
structure Inv (p : Pool ι Client (Host ι)) : Prop where
  /-- The counter is one more than the number of finished runs, unless a run is at work on it. -/
  counter_eq : p.shared.lock = none →
    counter p.shared.file = some ((p.count Client.Finished : Int) + 1)
  /-- The run with the lock knows what it has to. -/
  holder : ∀ i, p.shared.lock = some i →
    Knows (p.count Client.Finished) p.shared.file (p.shared.stdout i) (p.phase i)
  /-- The others are outside. -/
  outside : ∀ i, p.shared.lock ≠ some i →
    Outside (p.count Client.Finished) (p.shared.stdout i) (p.phase i)
  /-- No two finished runs have printed the same. -/
  distinct : ∀ i j, (p.phase i).Finished → (p.phase j).Finished →
    p.shared.stdout i = p.shared.stdout j → i = j

omit [DecidableEq ι] in
/-- What a finished run has printed. -/
theorem Inv.finished {p : Pool ι Client (Host ι)} (h : Inv p) {i : ι} (hi : (p.phase i).Finished) :
    ∃ k : Nat, 1 ≤ k ∧ k ≤ p.count Client.Finished ∧ p.shared.stdout i = address k := by
  have hlock : p.shared.lock ≠ some i := fun hlock => (h.holder i hlock).not_finished hi
  have hout := h.outside i hlock
  generalize p.phase i = c at hi hout
  cases hout with
  | opening => cases hi
  | locking => cases hi
  | finished hpos hle hout => exact ⟨_, hpos, hle, hout⟩

omit [DecidableEq ι] in
/-- At the start the counter is 1 and nothing is printed. -/
theorem inv_beginning : Inv (beginning ι) := by
  have hcount : (beginning ι).count Client.Finished = 0 := by
    simp [Pool.count, beginning, Client.Finished, Client.fresh]
  constructor
  · intro _
    rw [hcount]
    rfl
  · intro i hi
    cases hi
  · intro i _
    exact .opening rfl
  · intro i j hi
    cases hi

/-- A step outside the lock keeps the invariant. -/
theorem Inv.step_outside {p q : Pool ι Client (Host ι)} {i : ι} (h : Inv p)
    (hstep : Pool.Step getIpRun p i q) (hlock : p.shared.lock ≠ some i) : Inv q := by
  obtain ⟨hfin, hcases⟩ := (h.outside i hlock).step hstep.1
  have hfin' : ¬ (q.phase i).Finished := by
    rcases hcases with ⟨hphase, -⟩ | ⟨hphase, -⟩ <;> rw [hphase] <;>
      simp [Client.Finished, Client.fresh]
  have hcount := hstep.count_eq Client.Finished (iff_of_false hfin' hfin)
  have hne : ∀ j, (q.phase j).Finished → j ≠ i := by
    rintro j hj rfl
    exact hfin' hj
  have hstdout : q.shared.stdout = p.shared.stdout := by
    rcases hcases with ⟨-, -, hs⟩ | ⟨-, -, -, hs⟩ <;> rw [hs]
  have hdistinct : ∀ j k, (q.phase j).Finished → (q.phase k).Finished →
      q.shared.stdout j = q.shared.stdout k → j = k := by
    intro j k hj hk heq
    rw [hstep.phase_ne (hne j hj)] at hj
    rw [hstep.phase_ne (hne k hk)] at hk
    exact h.distinct j k hj hk (by rwa [hstdout] at heq)
  rcases hcases with ⟨hphase, hout, hs⟩ | ⟨hphase, hout, hfree, hs⟩
  · -- nothing shared has changed
    refine ⟨?_, ?_, ?_, hdistinct⟩
    · rw [hs, hcount]
      exact h.counter_eq
    · intro j hj
      rw [hs] at hj ⊢
      have hji : j ≠ i := by
        rintro rfl
        exact hlock hj
      rw [hcount, hstep.phase_ne hji]
      exact h.holder j hj
    · intro j hj
      rw [hs] at hj ⊢
      by_cases hji : j = i
      · rw [hji, hphase]
        exact .locking hout
      · rw [hcount, hstep.phase_ne hji]
        exact h.outside j hj
  · -- the lock was free, so the counter is as it should be
    refine ⟨?_, ?_, ?_, hdistinct⟩
    · intro hnone
      rw [hs] at hnone
      cases hnone
    · intro j hj
      rw [hs] at hj ⊢
      obtain rfl : i = j := Option.some.inj hj
      rw [hcount, hphase]
      exact .reading (h.counter_eq hfree) hout
    · intro j hj
      rw [hs] at hj ⊢
      have hji : j ≠ i := by
        rintro rfl
        exact hj rfl
      rw [hcount, hstep.phase_ne hji]
      exact h.outside j (by rw [hfree]; simp)

/-- A step of the run with the lock keeps the invariant. -/
theorem Inv.step_holder {p q : Pool ι Client (Host ι)} {i : ι} (h : Inv p)
    (hstep : Pool.Step getIpRun p i q) (hlock : p.shared.lock = some i) : Inv q := by
  have hknows := h.holder i hlock
  have hfin := hknows.not_finished
  have hlock_ne : ∀ j, j ≠ i → p.shared.lock ≠ some j := by
    intro j hj heq
    rw [hlock] at heq
    exact hj (Option.some.inj heq).symm
  have hstdout : ∀ j, j ≠ i → q.shared.stdout j = p.shared.stdout j :=
    fun j hj => getIpRun_stdout_ne hstep.1 hj
  rcases hknows.step hstep.1 with ⟨hsame, hknows'⟩ | ⟨hfree, hphase, hfile, hout⟩
  · -- the run goes on
    have hfin' := hknows'.not_finished
    have hcount := hstep.count_eq Client.Finished (iff_of_false hfin' hfin)
    have hne : ∀ j, (q.phase j).Finished → j ≠ i := by
      rintro j hj rfl
      exact hfin' hj
    refine ⟨?_, ?_, ?_, ?_⟩
    · intro hnone
      rw [hsame, hlock] at hnone
      cases hnone
    · intro j hj
      rw [hsame, hlock] at hj
      obtain rfl : i = j := Option.some.inj hj
      rw [hcount]
      exact hknows'
    · intro j hj
      have hji : j ≠ i := by
        rintro rfl
        exact hj (hsame.trans hlock)
      rw [hcount, hstep.phase_ne hji, hstdout j hji]
      exact h.outside j (hlock_ne j hji)
    · intro j k hj hk heq
      have hji := hne j hj
      have hki := hne k hk
      rw [hstep.phase_ne hji] at hj
      rw [hstep.phase_ne hki] at hk
      rw [hstdout j hji, hstdout k hki] at heq
      exact h.distinct j k hj hk heq
  · -- the run ends: its address is one beyond all those of the runs before
    have hcount := hstep.count_succ Client.Finished hfin (by rw [hphase]; rfl)
    have hnew : ∀ j, j ≠ i → (q.phase j).Finished → q.shared.stdout j ≠ q.shared.stdout i := by
      intro j hj hjfin heq
      rw [hstep.phase_ne hj] at hjfin
      obtain ⟨k, -, hle, hk⟩ := h.finished hjfin
      rw [hstdout j hj, hk, hout] at heq
      have := address_injective heq
      omega
    refine ⟨?_, ?_, ?_, ?_⟩
    · intro _
      rw [hfile, counter_signed, hcount]
      simp
    · intro j hj
      rw [hfree] at hj
      cases hj
    · intro j _
      by_cases hji : j = i
      · rw [hji, hphase, hout, hcount]
        exact .finished (k := p.count Client.Finished + 1) (by omega) (by omega) rfl
      · rw [hcount, hstep.phase_ne hji, hstdout j hji]
        exact (h.outside j (hlock_ne j hji)).mono (by omega)
    · intro j k hj hk heq
      by_cases hji : j = i <;> by_cases hki : k = i
      · rw [hji, hki]
      · subst hji
        exact absurd heq.symm (hnew k hki hk)
      · subst hki
        exact absurd heq (hnew j hji hj)
      · rw [hstep.phase_ne hji] at hj
        rw [hstep.phase_ne hki] at hk
        rw [hstdout j hji, hstdout k hki] at heq
        exact h.distinct j k hj hk heq

/-- Every reachable state of the host has the invariant. -/
theorem Inv.of_run {as : List ι} {p : Pool ι Client (Host ι)}
    (hrun : Run (Pool.Step getIpRun) (beginning ι) as p) : Inv p := by
  refine hrun.invariant Inv (fun p i q h hstep => ?_) inv_beginning
  by_cases hlock : p.shared.lock = some i
  · exact h.step_holder hstep hlock
  · exact h.step_outside hstep hlock

/-- **Addresses are handed out once.** Whatever the order of the steps of any number of runs, finished
runs have printed different addresses, and while no run holds the lock the counter is one more than the
number of finished runs. -/
theorem addresses_distinct {as : List ι} {p : Pool ι Client (Host ι)}
    (hrun : Run (Pool.Step getIpRun) (beginning ι) as p) :
    (∀ i j, i ≠ j → (p.phase i).Finished → (p.phase j).Finished →
      ∃ m n : Int, p.shared.stdout i = address m ∧ p.shared.stdout j = address n ∧
        getIp m ≠ getIp n) ∧
    (p.shared.lock = none →
      counter p.shared.file = some ((p.count Client.Finished : Int) + 1)) := by
  have hinv := Inv.of_run hrun
  refine ⟨fun i j hij hi hj => ?_, hinv.counter_eq⟩
  obtain ⟨m, -, -, hm⟩ := hinv.finished hi
  obtain ⟨n, -, -, hn⟩ := hinv.finished hj
  refine ⟨m, n, hm, hn, fun heq => hij (hinv.distinct i j hi hj ?_)⟩
  rw [hm, hn, address, address, heq]

/-- Two runs, the second opening the file and waiting while the first is at work. -/
theorem addresses_distinct_two : ∃ p, Run (Pool.Step getIpRun) (beginning (Fin 2))
      [0, 1, 0, 0, 0, 0, 0, 0, 0, 0, 1, 1, 1, 1, 1, 1, 1, 1] p ∧
    (p.phase 0).Finished ∧ (p.phase 1).Finished ∧ p.shared.lock = none ∧
    (∃ m n : Int, p.shared.stdout 0 = address m ∧ p.shared.stdout 1 = address n ∧
      getIp m ≠ getIp n) ∧
    counter p.shared.file = some ((p.count Client.Finished : Int) + 1) := by
  have hdone : ∃ p, Run (Pool.Step getIpRun) (beginning (Fin 2))
      [0, 1, 0, 0, 0, 0, 0, 0, 0, 0, 1, 1, 1, 1, 1, 1, 1, 1] p ∧
      (p.phase 0).Finished ∧ (p.phase 1).Finished ∧ p.shared.lock = none :=
    exists_run_performed _ (by decide +kernel)
  obtain ⟨p, hrun, h0, h1, hlock⟩ := hdone
  have hsafe := addresses_distinct hrun
  exact ⟨p, hrun, h0, h1, hlock, hsafe.1 0 1 (by decide) h0 h1, hsafe.2 hlock⟩

/-! ## Runs one after the other -/

omit [Fintype ι] in
/-- A run that finds the lock free and a number in the file can go to its end. -/
theorem exists_solo {s : Host ι} (i : ι) (hfree : s.lock = none) {k : Int}
    (hcounter : counter s.file = some k) :
    ∃ t, Solo getIpRun i (.fresh .opening, s) (.fresh .finished, t) ∧
      t.lock = none ∧ counter t.file = some (k + 1) := by
  obtain ⟨line, hline, hk⟩ := Option.map_eq_some_iff.mp hcounter
  obtain ⟨rest, hlines⟩ := List.head?_eq_some_iff.mp hline
  let stdout := Function.update s.stdout i (s.stdout i ++ address k)
  let held : Host ι := ⟨s.file, some i, s.stdout⟩
  let printed : Host ι := ⟨s.file, some i, stdout⟩
  let written : Host ι := ⟨writeAt s.file 0 (signed (k + 1)), some i, stdout⟩
  have hlock : getIpRun i (.fresh .locking) s = some (⟨.reading, 0, []⟩, held) := by
    rw [getIpRun, Client.fresh, if_pos hfree]
  have hread : getIpRun i ⟨.reading, 0, []⟩ held = some (⟨.printing k, line.length, []⟩, held) := by
    simp [getIpRun, held, hlines, hk]
  have hflush : getIpRun i ⟨.flushing, 0, signed (k + 1)⟩ printed =
      some (⟨.truncating, (signed (k + 1)).length, []⟩, written) := by
    simp [getIpRun, printed, written]
  have htruncate : getIpRun i ⟨.truncating, (signed (k + 1)).length, []⟩ written =
      some (⟨.closing, (signed (k + 1)).length, []⟩, ⟨signed (k + 1), some i, stdout⟩) := by
    simp [getIpRun, written, truncateTo_writeAt]
  refine ⟨⟨signed (k + 1), none, stdout⟩, ?_, rfl, counter_signed (k + 1)⟩
  calc Solo getIpRun i (.fresh .opening, s) (.fresh .locking, s) := .single rfl
    Solo getIpRun i _ (⟨.reading, 0, []⟩, held) := .single hlock
    Solo getIpRun i _ (⟨.printing k, line.length, []⟩, held) := .single hread
    Solo getIpRun i _ (⟨.rewinding k, line.length, []⟩, printed) := .single rfl
    Solo getIpRun i _ (⟨.writing (k + 1), 0, []⟩, printed) := .single rfl
    Solo getIpRun i _ (⟨.flushing, 0, signed (k + 1)⟩, printed) := .single rfl
    Solo getIpRun i _ (⟨.truncating, (signed (k + 1)).length, []⟩, written) := .single hflush
    Solo getIpRun i _ (⟨.closing, (signed (k + 1)).length, []⟩, _) := .single htruncate
    Solo getIpRun i _ (.fresh .finished, _) := .single rfl

/-- **Any number of runs can finish**, and then the counter is one more than their number. -/
theorem exists_run_all_finished : ∃ as p, Run (Pool.Step getIpRun) (beginning ι) as p ∧
    (∀ i, (p.phase i).Finished) ∧ counter p.shared.file = some ((Fintype.card ι : Int) + 1) := by
  obtain ⟨as, p, hrun, ⟨hfree, -⟩, hphase⟩ := exists_run_each
    (Q := fun s : Host ι => s.lock = none ∧ ∃ k, counter s.file = some k)
    (fun i (_ : i ∈ Finset.univ.toList) s hs => by
      obtain ⟨hfree, k, hk⟩ := hs
      obtain ⟨t, hsolo, htfree, htk⟩ := exists_solo i hfree hk
      exact ⟨t, hsolo, htfree, k + 1, htk⟩)
    (Finset.nodup_toList _) (p := beginning ι) (fun _ _ => rfl) ⟨rfl, 1, rfl⟩
  have hall : ∀ i, (p.phase i).Finished := by
    intro i
    rw [hphase i, if_pos (Finset.mem_toList.mpr (Finset.mem_univ i))]
    rfl
  have hcount : p.count Client.Finished = Fintype.card ι := by
    rw [Pool.count, Finset.filter_true_of_mem fun i _ => hall i, Finset.card_univ]
  exact ⟨as, p, hrun, hall, by rw [(Inv.of_run hrun).counter_eq hfree, hcount]⟩

end GexCloud.GetIp
