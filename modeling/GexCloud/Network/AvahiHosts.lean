import GexCloud.Base.EditUtils
import Mathlib.Data.List.Infix

/-! # `/etc/avahi/hosts`: the programs that write it

Three programs keep the address of each container in one file: `network_utils.rb`, when a container is
created or removed, and the two versions of `runslavedocker`, when its service starts. Only what they
do to this file is modelled.

* `Fleet` — the containers of a machine: their names and host names.
* `Op.perform` — one run of one program.
* **`perform_eq`** — what it does to the lines: some go, some come. -/

namespace GexCloud.Avahi

open Texts

/-! ## Containers and addresses -/

/-- The characters of a container name. Docker also wants a letter or a digit in front, which nothing here needs. -/
def IsName (t : Text) : Prop := t ≠ [] ∧ ∀ ch ∈ t, ch.isAlphanum ∨ ch ∈ ['_', '.', '-']

/-- A host name that `assert_hostname` accepts and that is one word of a command. -/
def IsHostName (t : Text) : Prop := ∀ ch ∈ ['.', ' ', '\n'], ch ∉ t

/-- The shape of an address. -/
def IsAddress (t : Text) : Prop := t ≠ [] ∧ ∀ ch ∈ t, ch.isDigit ∨ ch = '.'

instance (t : Text) : Decidable (IsName t) :=
  decidable_of_iff (t ≠ [] ∧ t.all (fun ch => decide (ch.isAlphanum ∨ ch ∈ ['_', '.', '-'])) = true) (by
    simp only [IsName, List.all_eq_true, decide_eq_true_eq])

instance (t : Text) : Decidable (IsHostName t) :=
  decidable_of_iff (['.', ' ', '\n'].all (fun ch => decide (ch ∉ t)) = true) (by
    simp only [IsHostName, List.all_eq_true, decide_eq_true_eq])

instance (t : Text) : Decidable (IsAddress t) :=
  decidable_of_iff (t ≠ [] ∧ t.all (fun ch => decide (ch.isDigit ∨ ch = '.')) = true) (by
    simp only [IsAddress, List.all_eq_true, decide_eq_true_eq])

/-- An address. -/
abbrev Address := { t : Text // IsAddress t }

/-- The containers of a machine. -/
structure Fleet (ι : Type) where
  /-- `$container`, the argument of `runslavedocker`. -/
  name : ι → Text
  /-- The argument `host_name` with which the container is created. -/
  hostName : ι → Text
  name_ok : ∀ c, IsName (name c)
  hostName_ok : ∀ c, IsHostName (hostName c)
  /-- `Regexp.new`. -/
  compile : Text → Except RubyError Regexp
  /-- With the characters of a name, what `delete_string_matches` makes of it is a regular expression. -/
  compile_ok : ∀ c, ∃ re, compile ("^.*".toList ++ name c ++ ".*$".toList) = .ok re

variable {ι : Type} (m : Fleet ι)

/-- `docker exec … hostname`: `host_name.tr('_', '-')`, as the container was created with it. -/
def Fleet.host (c : ι) : Text := (m.hostName c).map fun ch => if ch = '_' then '-' else ch

/-- `/etc/avahi/hosts`. -/
def avahiHosts : Text := "/etc/avahi/hosts".toList

/-! ## `network_utils.rb` -/

/-- `assert_path`. -/
def assertPath (filename : Text) : Except RubyError Unit :=
  assert (!decide ("//".toList <:+: filename) && !decide (['/'] <:+ filename)) "Assert failed".toList

/-- `append_file_with_lines`. -/
def appendFileWithLines (files : Files) (filename : Text) (lines : List Text) :
    Except RubyError Files := do
  assertPath filename
  let added := (lines.map fun line => FileEdit.puts (some line)).flatten
  return Function.update files filename (some ((files filename).getD [] ++ added))

/-- `add_contaner_to_avahi`. -/
def addContanerToAvahi (c : ι) (ip : Text) (files : Files) : Except RubyError Files :=
  appendFileWithLines files avahiHosts [ip ++ ' ' :: (m.name c ++ ".local".toList)]

/-- `remove_contaner_from_avahi`. -/
def removeContanerFromAvahi (c : ι) (files : Files) : Except RubyError Files :=
  deleteStringMatches files avahiHosts (.ofString m.compile ("^.*".toList ++ m.name c ++ ".*$".toList)) .start

/-! ## `runslavedocker` -/

/-- A basic regular expression of name characters at the start of a text: a dot stands for any. -/
def matchesAt : Text → Text → Bool
  | [], _ => true
  | _ :: _, [] => false
  | p :: ps, ch :: cs => (p == '.' || p == ch) && matchesAt ps cs

/-- `grep` and `sed` find the expression anywhere in the line. -/
def breMatch (pattern line : Text) : Bool := line.tails.any (matchesAt pattern)

/-- What a command prints. -/
def printed (t : Text) : Text := t ++ ['\n']

/-- `$(…)` in the shell: the output without the newlines at its end. -/
def substituted (output : Text) : Text := output.rdropWhile (· == '\n')

/-- `sed -i.bak "/…/d"`; its backup is removed. -/
def sedDelete (pattern content : Text) : Text := deleteLines (breMatch pattern) content

/-- The end of `runslavedocker.bash` that writes the file: drop what names the container and append
the address and the host name that `docker exec` prints. -/
def runslavedockerBash (c : ι) (address : Text) (files : Files) : Files :=
  let content := (files avahiHosts).getD []
  let line := (bodies content).filter (breMatch (m.name c))
  let content := if line = [] then content else sedDelete (m.name c) content
  let cip := substituted (printed address)
  let hostName := substituted (printed (m.host c))
  Function.update files avahiHosts
    (some (content ++ (cip ++ ' ' :: (hostName ++ ".local".toList) ++ ['\n'])))

/-- The command that `runslavedocker.rb` hands to the shell, with the backquote at its end. -/
def sedCommand (name : Text) : Text :=
  "sed -i.bak \"/".toList ++ name ++ "/d\"  /etc/avahi/hosts`".toList

/-- `system` of such a command: with a backquote left open it is no command, and nothing runs. -/
def systemSed (name content : Text) : Text :=
  if (sedCommand name).count '\x60' % 2 = 1 then content else sedDelete name content

/-- The part of `runslavedocker.rb` that writes the file. The address is stripped only on AWS, the
host name nowhere. -/
def runslavedockerRuby (c : ι) (address : Text) (aws : Bool) (files : Files) :
    Except RubyError Files :=
  match files avahiHosts with
  | none => .error (.noSuchFile avahiHosts)
  | some content =>
    let content := if m.name c <:+: content then content else systemSed (m.name c) content
    let containerIp := if aws then strip (printed address) else printed address
    let hostname := printed (m.host c)
    .ok (Function.update files avahiHosts
      (some (content ++ (containerIp ++ ' ' :: (hostname ++ ".local".toList) ++ ['\n']))))

/-! ## Operations -/

/-- A run of one of the programs for a container. -/
inductive Op (ι : Type)
  | add (c : ι) (ip : Address)
  | startBash (c : ι) (address : Address)
  | startRuby (c : ι) (address : Address) (aws : Bool)
  | remove (c : ι)

/-- The container of an operation. -/
def Op.container : Op ι → ι
  | .add c _ | .startBash c _ | .startRuby c _ _ | .remove c => c

/-- What an operation does to the files. -/
def Op.perform (files : Files) : Op ι → Except RubyError Files
  | .add c ip => addContanerToAvahi m c ip.1 files
  | .startBash c address => .ok (runslavedockerBash m c address.1 files)
  | .startRuby c address aws => runslavedockerRuby m c address.1 aws files
  | .remove c => removeContanerFromAvahi m c files

/-- The lines that go. -/
def Op.drops (line : Text) : Op ι → Bool
  | .startBash c _ => breMatch (m.name c) line
  | _ => false

/-- The lines that come. -/
def Op.adds : Op ι → List Text
  | .add c ip => [ip.1 ++ ' ' :: (m.name c ++ ".local".toList)]
  | .startBash c address => [address.1 ++ ' ' :: (m.host c ++ ".local".toList)]
  | .startRuby c address false => [address.1, ' ' :: m.host c, ".local".toList]
  | .startRuby c address true => [address.1 ++ ' ' :: m.host c, ".local".toList]
  | .remove _ => []

/-! ## Expressions in a line -/

/-- A name matches itself. -/
theorem matchesAt_append (pattern rest : Text) : matchesAt pattern (pattern ++ rest) = true := by
  induction pattern with
  | nil => rfl
  | cons p ps ih =>
    rw [List.cons_append, matchesAt, ih, beq_self_eq_true, Bool.or_true]
    rfl

/-- What an expression matches, its beginning matches. -/
theorem matchesAt_of_append {pattern more text : Text} (h : matchesAt (pattern ++ more) text = true) :
    matchesAt pattern text = true := by
  induction pattern generalizing text with
  | nil => rfl
  | cons p ps ih =>
    cases text with
    | nil => cases h
    | cons ch cs =>
      rw [List.cons_append, matchesAt, Bool.and_eq_true] at h
      rw [matchesAt, h.1, ih h.2]
      rfl

/-- A name that is in a line is found in it. -/
theorem breMatch_of_isInfix {pattern line : Text} (h : pattern <:+: line) : breMatch pattern line = true := by
  obtain ⟨a, b, rfl⟩ := h
  rw [breMatch, List.any_eq_true]
  refine ⟨pattern ++ b, (List.mem_tails _ _).mpr ⟨a, (List.append_assoc a pattern b).symm⟩, matchesAt_append pattern b⟩

/-- An expression is found at the first character or behind it. -/
theorem breMatch_cons (pattern : Text) (ch : Char) (cs : Text) :
    breMatch pattern (ch :: cs) = (matchesAt pattern (ch :: cs) || breMatch pattern cs) := by
  rw [breMatch, List.tails_cons, List.any_cons, breMatch]

/-- Where the first character of an expression is not found, the expression is not. -/
theorem breMatch_append {p : Char} (hdot : p ≠ '.') (ps : Text) {front : Text} (h : p ∉ front) (line : Text) :
    breMatch (p :: ps) (front ++ line) = breMatch (p :: ps) line := by
  induction front with
  | nil => rfl
  | cons ch front ih =>
    rw [List.mem_cons, not_or] at h
    have hfirst : (p == '.' || p == ch) = false := by simp [hdot, h.1]
    rw [List.cons_append, breMatch_cons, ih h.2, matchesAt, hfirst]
    rfl

/-- An expression is not found in a line without its first character. -/
theorem breMatch_eq_false {p : Char} (hdot : p ≠ '.') (ps : Text) {line : Text} (h : p ∉ line) :
    breMatch (p :: ps) line = false := by
  rw [← List.append_nil line, breMatch_append hdot ps h]
  rfl

/-! ## Names, host names and addresses in a line -/

variable {m} {c : ι}

/-- A name has no character but those Docker accepts. -/
theorem Fleet.not_mem_name {ch : Char} (h : ¬ (ch.isAlphanum ∨ ch ∈ ['_', '.', '-'])) :
    ch ∉ m.name c :=
  fun hmem => h ((m.name_ok c).2 ch hmem)

/-- A host name keeps out what `host_name` keeps out. -/
theorem Fleet.host_ok (m : Fleet ι) (c : ι) : IsHostName (m.host c) := by
  intro ch hch hmem
  obtain ⟨x, hx, heq⟩ := List.mem_map.mp hmem
  by_cases hunder : x = '_'
  · rw [if_pos hunder] at heq
    subst heq
    simp at hch
  · rw [if_neg hunder] at heq
    subst heq
    exact m.hostName_ok c x hch hx

/-- An address is one word. -/
theorem not_mem_address {ch : Char} (h : ¬ (ch.isDigit ∨ ch = '.')) (address : Address) :
    ch ∉ address.1 :=
  fun hmem => h (address.2.2 ch hmem)

/-- What a command prints of a text without newlines is substituted as the text. -/
theorem substituted_printed {t : Text} (h : '\n' ∉ t) : substituted (printed t) = t := by
  have hend : ∀ s : Text, '\n' ∉ s → s.rdropWhile (· == '\n') = s := by
    intro s hs
    rw [List.rdropWhile_eq_self_iff]
    intro hne heq
    rw [beq_iff_eq] at heq
    exact hs (heq ▸ List.getLast_mem hne)
  rw [substituted, printed, List.rdropWhile_concat_pos _ _ _ (by simp), hend t h]

/-- An address is stripped of the newline behind it. -/
theorem strip_printed (address : Address) : strip (printed address.1) = address.1 := by
  refine stripBy_append_singleton (fun ch hch => ?_) (by decide)
  by_contra hspace
  rw [Bool.not_eq_false] at hspace
  -- a character with the code of a space is neither a digit nor a dot
  have hcode : ch.toNat = 0 ∨ (9 ≤ ch.toNat ∧ ch.toNat ≤ 13) ∨ ch.toNat = 32 := by
    simpa [isSpace, or_assoc] using hspace
  rcases address.2.2 ch hch with hdigit | rfl
  · simp only [Char.isDigit, Bool.and_eq_true, decide_eq_true_eq] at hdigit
    have hlow : 48 ≤ ch.toNat := hdigit.1
    omega
  · revert hcode
    decide

/-- No appended line contains a newline. -/
theorem newline_not_mem_adds (op : Op ι) : ∀ line ∈ op.adds m, '\n' ∉ line := by
  have hname : ∀ c, '\n' ∉ m.name c := fun c => Fleet.not_mem_name (by decide)
  have hhost : ∀ c, '\n' ∉ m.host c := fun c => m.host_ok c '\n' (by decide)
  have haddress : ∀ address : Address, '\n' ∉ address.1 := not_mem_address (by decide)
  have hlocal : '\n' ∉ ".local".toList := by decide
  intro line hline
  cases op with
  | add c ip =>
    rw [List.mem_singleton.mp hline]
    simp [hname c, haddress ip]
  | startBash c address =>
    rw [List.mem_singleton.mp hline]
    simp [hhost c, haddress address]
  | startRuby c address aws =>
    cases aws with
    | false =>
      simp only [Op.adds, List.mem_cons, List.not_mem_nil, or_false] at hline
      rcases hline with rfl | rfl | rfl
      · exact haddress address
      · simp [hhost c]
      · exact hlocal
    | true =>
      simp only [Op.adds, List.mem_cons, List.not_mem_nil, or_false] at hline
      rcases hline with rfl | rfl
      · simp [hhost c, haddress address]
      · exact hlocal
  | remove c => simp [Op.adds] at hline

/-- The shell reads the command of `runslavedocker.rb` as one with an open backquote. -/
theorem systemSed_eq (m : Fleet ι) (c : ι) (content : Text) :
    systemSed (m.name c) content = content := by
  have hname : (m.name c).count '\x60' = 0 := List.count_eq_zero.mpr (Fleet.not_mem_name (by decide))
  have hfront : "sed -i.bak \"/".toList.count '\x60' = 0 := by decide
  have hback : "/d\"  /etc/avahi/hosts`".toList.count '\x60' = 1 := by decide
  have hparts : ∀ a b d : Text, (a ++ b ++ d).count '\x60' =
      a.count '\x60' + b.count '\x60' + d.count '\x60' := by simp [Nat.add_assoc]
  have hcount : (sedCommand (m.name c)).count '\x60' = 0 + 0 + 1 :=
    (hparts ..).trans (congrArg₂ (· + ·) (congrArg₂ (· + ·) hfront hname) hback)
  have hodd : (sedCommand (m.name c)).count '\x60' % 2 = 1 := by rw [hcount]
  exact if_pos hodd

/-- `puts` of a text without newlines. -/
theorem puts_eq {line : Text} (h : '\n' ∉ line) : FileEdit.puts (some line) = line ++ ['\n'] := by
  have hlast : line.getLast? ≠ some '\n' := fun hlast => h (List.mem_of_getLast? hlast)
  exact if_neg hlast

/-- Terminated lines in sequence, as the operations append them. -/
def written (ls : List Text) : Text := (ls.map (· ++ ['\n'])).flatten

/-- **What an operation does to the file**: it succeeds, some lines go and some come. -/
theorem perform_eq (op : Op ι) {files : Files} {content : Text}
    (h : files avahiHosts = some content) :
    ∃ files', op.perform m files = .ok files' ∧
      files' avahiHosts = some (deleteLines (fun line => op.drops m line) content ++
        written (op.adds m)) := by
  have hlines := newline_not_mem_adds (m := m) op
  have hkeep : deleteLines (fun _ => false) content = content :=
    deleteLines_eq_self (List.filter_eq_nil_iff.mpr fun _ _ => by simp)
  have hhost : ∀ c, substituted (printed (m.host c)) = m.host c := fun c =>
    substituted_printed (m.host_ok c '\n' (by decide))
  cases op with
  | add c ip =>
    refine ⟨_, rfl, ?_⟩
    show Function.update files avahiHosts _ avahiHosts = _
    have hputs := puts_eq (hlines _ (List.mem_singleton_self _))
    rw [Function.update_self, h]
    show some (content ++ [FileEdit.puts _].flatten) = some (deleteLines (fun _ => false) content ++ _)
    rw [hkeep, hputs]
    rfl
  | startBash c address =>
    have haddress : substituted (printed address.1) = address.1 :=
      substituted_printed (not_mem_address (by decide) address)
    refine ⟨_, rfl, ?_⟩
    show Function.update files avahiHosts _ avahiHosts = _
    rw [Function.update_self, h, hhost c, haddress]
    have hsed : (if (bodies content).filter (breMatch (m.name c)) = [] then content
        else sedDelete (m.name c) content) = deleteLines (breMatch (m.name c)) content := by
      split
      · rename_i hnone
        exact (deleteLines_eq_self hnone).symm
      · rfl
    show some (_ ++ _) = some (deleteLines (breMatch (m.name c)) content ++ _)
    rw [Option.getD_some, hsed]
    simp [written, Op.adds]
  | startRuby c address aws =>
    have hsed : (if m.name c <:+: content then content else systemSed (m.name c) content) =
        deleteLines (fun _ => false) content := by
      rw [systemSed_eq, ite_self, hkeep]
    refine ⟨_, by rw [Op.perform, runslavedockerRuby, h], ?_⟩
    rw [Function.update_self, hsed]
    show some (_ ++ _) = some (deleteLines (fun _ => false) content ++ _)
    cases aws with
    | false => simp [written, printed, Op.adds]
    | true =>
      rw [if_pos rfl, strip_printed]
      simp [written, printed, Op.adds]
  | remove c =>
    obtain ⟨re, hre⟩ := m.compile_ok c
    refine ⟨files, deleteStringMatches_eq h hre .start, ?_⟩
    show files avahiHosts = some (deleteLines (fun _ => false) content ++ [])
    rw [hkeep, List.append_nil, h]

end GexCloud.Avahi
