import GexCloud.Slave.Substitution
import GexCloud.Support.Hosts

/-! # The entry of a container in `/etc/hosts`

Each start of a container puts its address and its host name into `/etc/hosts` of the machine: the two versions of
`runslavedocker` append a line when the host name is not there yet, and rewrite it with `sed` when it is.

* `startBash`, `startRuby` — what a start does to the file.
* `Refreshed` — what a sequence of starts is to leave behind.
* **`spoiled_foldl`** — from the second start on the shell script leaves a bracket in the line.
* **`refreshed_bash_iff`** — the shell script refreshes the entry by one start, of a host name that is nowhere in the
  file.
* **`refreshed_ruby_iff`** — the Ruby script changes the file at most once, on AWS for the better.
* **`refreshed_iff`** — both. -/

namespace GexCloud.Slave

open Texts Avahi Hosts

/-! ## Starts -/

/-- A container whose entry is refreshed: its name does not start with `h`. -/
structure Container where
  name : Text
  hostName : Text
  name_ok : ¬ ['h'] <+: name
  hostName_ok : hostName ≠ [] ∧ ∀ ch ∈ hostName, isHostChar ch = true

/-- The entry of an address and a host name. -/
def hostsLine (address hostName : Text) : Text := address ++ ' ' :: hostName

/-- The part of `runslavedocker.bash` on `/etc/hosts`, for a container at an address. -/
def startBash (c : Container) (hosts : Text) (address : Address) : Text :=
  if ['h'] <+: c.name then hosts
  else
    let cip := substituted (printed address.1)
    let hostName := substituted (printed c.hostName)
    let line := substituted hosts
    if hostName <:+: line then sed hostName (hostsLine cip (hostName ++ [')'])) hosts
    else hosts ++ printed (hostsLine cip hostName)

/-- `sed -i "s/…/…/g"`, with what Ruby puts into the command: a newline in the expression ends the command, and `sed`
does nothing. -/
def sedCommanded (pattern replacement content : Text) : Text :=
  if '\n' ∈ pattern then content else sed pattern replacement content

/-- The part of `runslavedocker.rb` on `/etc/hosts`. The address is stripped only on AWS, the host name nowhere. -/
def startRuby (aws : Bool) (c : Container) (hosts : Text) (address : Address) : Text :=
  let containerIp := if aws then strip (printed address.1) else printed address.1
  let hostname := printed c.hostName
  if ['h'] <+: c.name then hosts
  else if hostname <:+: hosts then sedCommanded hostname (hostsLine containerIp (hostname ++ [')'])) hosts
  else hosts ++ printed (hostsLine containerIp hostname)

/-! ## What is to be left behind -/

/-- **The entry is refreshed**: one line names the host, with this address and nothing else, and the lines that did
not name it are still there. -/
structure Refreshed (c : Container) (address : Address) (before after : Text) : Prop where
  line : (bodies after).filter (fun line => decide (c.hostName ∈ names line)) = [hostsLine address.1 c.hostName]
  others : ((bodies before).filter fun line => decide (c.hostName ∉ names line)).Sublist (bodies after)

/-- The last of some addresses. -/
def latest (address : Address) (addresses : List Address) : Address := (address :: addresses).getLast (by simp)

variable {c : Container} {hosts : Text}

/-! ## Host names and addresses -/

/-- A character that is none of a host name. -/
theorem Container.not_mem_hostName {ch : Char} (h : isHostChar ch = false) : ch ∉ c.hostName := fun hmem => by
  rw [c.hostName_ok.2 ch hmem] at h
  cases h

/-- No host name is found in the line ends behind a text. -/
theorem isInfix_substituted_iff (hosts : Text) : c.hostName <:+: substituted hosts ↔ c.hostName <:+: hosts := by
  induction hosts using List.reverseRecOn with
  | nil => rfl
  | append_singleton s ch ih =>
    unfold substituted at ih ⊢
    by_cases hch : ch = '\n'
    · rw [List.rdropWhile_concat_pos _ _ _ (by simpa using hch), ih]
      refine ⟨fun h => h.trans (List.prefix_append s [ch]).isInfix, fun h => ?_⟩
      rcases List.infix_concat_iff.mp h with hsuffix | hinfix
      · -- the last character of a host name is no newline
        obtain ⟨rest, hrest⟩ := hsuffix
        have hlast := congrArg List.getLast? hrest
        rw [List.getLast?_append_of_ne_nil _ c.hostName_ok.1, List.getLast?_concat] at hlast
        exact absurd (List.mem_of_getLast? hlast) (Container.not_mem_hostName (by rw [hch]; decide))
      · exact hinfix
    · rw [List.rdropWhile_concat_neg _ _ _ (by simpa using hch)]

/-- An address has no white space. -/
theorem isBlank_of_mem_address {address : Address} {ch : Char} (h : ch ∈ address.1) : isBlank ch = false := by
  rw [isBlank, Bool.or_eq_false_iff, beq_eq_false_iff_ne, beq_eq_false_iff_ne]
  exact ⟨fun hch => not_mem_address (by decide) address (hch ▸ h),
    fun hch => not_mem_address (by decide) address (hch ▸ h)⟩

/-- A host name has no white space. -/
theorem Container.isBlank_of_mem {ch : Char} (h : ch ∈ c.hostName) : isBlank ch = false := by
  rw [isBlank, Bool.or_eq_false_iff, beq_eq_false_iff_ne, beq_eq_false_iff_ne]
  exact ⟨fun hch => Container.not_mem_hostName (by decide) (hch ▸ h),
    fun hch => Container.not_mem_hostName (by decide) (hch ▸ h)⟩

/-- A character that is neither in an address nor in a host name is not in the line, unless it is the space. -/
theorem not_mem_hostsLine {ch : Char} (hdigit : ¬ (ch.isDigit ∨ ch = '.')) (hhost : isHostChar ch = false)
    (hblank : ch ≠ ' ') (address : Address) : ch ∉ hostsLine address.1 c.hostName := by
  rw [hostsLine, List.mem_append, List.mem_cons, not_or, not_or]
  exact ⟨not_mem_address hdigit address, hblank, Container.not_mem_hostName hhost⟩

/-- The line is one line. -/
theorem newline_not_mem_hostsLine (address : Address) : '\n' ∉ hostsLine address.1 c.hostName :=
  not_mem_hostsLine (by decide) (by decide) (by decide) address

/-- The line of an address and a host name has these two words. -/
theorem names_hostsLine (address : Address) : names (hostsLine address.1 c.hostName) = [c.hostName] := by
  have hcomment : '#' ∉ hostsLine address.1 c.hostName :=
    not_mem_hostsLine (by decide) (by decide) (by decide) address
  rw [names, entry_of_not_mem hcomment, hostsLine, words_pair (fun _ => isBlank_of_mem_address)
    (fun _ => Container.isBlank_of_mem) address.2.1 c.hostName_ok.1]
  rfl

/-- The host name ends the line. -/
theorem isInfix_hostsLine (address hostName : Text) : hostName <:+: hostsLine address hostName :=
  ⟨address ++ [' '], [], by simp [hostsLine]⟩

/-- The line that a refreshed file has. -/
theorem Refreshed.mem {address : Address} {after : Text} (h : Refreshed c address hosts after) :
    hostsLine address.1 c.hostName ∈ bodies after := by
  have hmem : hostsLine address.1 c.hostName ∈ [hostsLine address.1 c.hostName] := List.mem_singleton_self _
  rw [← h.line] at hmem
  exact List.mem_of_mem_filter hmem

/-! ## The shell script -/

/-- A file that no further start of the shell script refreshes: the host name is in it, and no line is the entry. -/
def Spoiled (c : Container) (hosts : Text) : Prop :=
  c.hostName <:+: hosts ∧ ∀ address : Address, hostsLine address.1 c.hostName ∉ bodies hosts

/-- What a start does to the file. -/
theorem startBash_eq (c : Container) (hosts : Text) (address : Address) :
    startBash c hosts address =
      if c.hostName <:+: hosts then sed c.hostName (hostsLine address.1 (c.hostName ++ [')'])) hosts
      else hosts ++ printed (hostsLine address.1 c.hostName) := by
  have haddress : substituted (printed address.1) = address.1 :=
    substituted_printed (not_mem_address (by decide) address)
  have hhost : substituted (printed c.hostName) = c.hostName :=
    substituted_printed (Container.not_mem_hostName (by decide))
  simp only [startBash, if_neg c.name_ok, haddress, hhost, isInfix_substituted_iff]

/-- A start with the host name in the file puts brackets into the lines. -/
theorem spoiled_start (h : c.hostName <:+: hosts) (address : Address) : Spoiled c (startBash c hosts address) := by
  have hhost : '\n' ∉ c.hostName := Container.not_mem_hostName (by decide)
  have hreplacement : '\n' ∉ hostsLine address.1 (c.hostName ++ [')']) := by
    simp only [hostsLine, List.mem_append, List.mem_cons, not_or]
    exact ⟨not_mem_address (by decide) address, by decide, hhost, by decide, List.not_mem_nil⟩
  rw [startBash_eq, if_pos h]
  refine ⟨?_, fun other hmem => ?_⟩
  · -- the replacement contains the host name
    refine List.IsInfix.trans ?_ (isInfix_sed hreplacement hhost c.hostName_ok.1 h)
    exact (List.prefix_append _ _).isInfix.trans (isInfix_hostsLine _ _)
  · obtain ⟨line, hline⟩ := mem_bodies_sed hreplacement hmem
    obtain hput | ⟨hsame, hno⟩ :=
      @substitute_cases _ (hostsLine address.1 (c.hostName ++ [')'])) c.hostName_ok.1 line
    · rw [← hline] at hput
      exact not_mem_hostsLine (by decide) (by decide) (by decide) other
        (hput.subset (show ')' ∈ hostsLine address.1 (c.hostName ++ [')']) by simp [hostsLine]))
    · rw [hsame] at hline
      exact hno (hline ▸ isInfix_hostsLine _ _)

/-- After the first start with the host name in the file no start makes it good. -/
theorem spoiled_foldl (h : c.hostName <:+: hosts) {addresses : List Address} (hne : addresses ≠ []) :
    Spoiled c (addresses.foldl (startBash c) hosts) := by
  induction addresses generalizing hosts with
  | nil => exact absurd rfl hne
  | cons address addresses ih =>
    have hstart := spoiled_start h address
    cases addresses with
    | nil => exact hstart
    | cons => exact ih hstart.1 (List.cons_ne_nil _ _)

/-- The first start, of a host name that is not in the file. -/
theorem refreshed_append_iff (hno : ¬ c.hostName <:+: hosts) (address : Address) :
    Refreshed c address hosts (hosts ++ printed (hostsLine address.1 c.hostName)) ↔ Terminated hosts := by
  have hline : bodies (printed (hostsLine address.1 c.hostName)) = [hostsLine address.1 c.hostName] :=
    bodies_append_newline_cons (newline_not_mem_hostsLine address) []
  have hnames : ∀ line ∈ bodies hosts, c.hostName ∉ names line := fun line hmem hname =>
    hno ((isInfix_of_mem_names hname).trans (isInfix_of_mem_bodies hmem))
  constructor
  · intro h
    by_contra hopen
    obtain ⟨a, l, rfl, ha, hne, hl⟩ := exists_open_line hopen
    -- the entry would be the open line with the entry behind it
    have hjoined : '\n' ∉ l ++ hostsLine address.1 c.hostName := by
      rw [List.mem_append, not_or]
      exact ⟨hl, newline_not_mem_hostsLine address⟩
    have hmem := h.mem
    rw [printed, List.append_assoc, ← List.append_assoc l, bodies_append ha, bodies_append_newline_cons hjoined,
      List.mem_append] at hmem
    obtain hmem | hmem := hmem
    · refine hno ((isInfix_hostsLine address.1 _).trans ((isInfix_of_mem_bodies hmem).trans ?_))
      exact (List.prefix_append a l).isInfix
    · have hlength := congrArg List.length (List.mem_singleton.mp hmem)
      rw [List.length_append] at hlength
      exact hne (List.length_eq_zero_iff.mp (by omega))
  · intro ht
    have hfilter : (bodies hosts).filter (fun line => decide (c.hostName ∈ names line)) = [] := by
      rw [List.filter_eq_nil_iff]
      intro line hmem
      simpa using hnames line hmem
    constructor
    · rw [bodies_append ht, hline, List.filter_append, hfilter, List.filter_cons_of_pos (by simp [names_hostsLine])]
      rfl
    · rw [bodies_append ht]
      exact List.filter_sublist.trans (List.sublist_append_left _ _)

/-- **The shell script refreshes the entry** exactly by one start, of a host name that is nowhere in the file. -/
theorem refreshed_bash_iff (c : Container) (hosts : Text) (address : Address) (addresses : List Address) :
    Refreshed c (latest address addresses) hosts ((address :: addresses).foldl (startBash c) hosts) ↔
      addresses = [] ∧ ¬ c.hostName <:+: hosts ∧ Terminated hosts := by
  by_cases hhost : c.hostName <:+: hosts
  · refine iff_of_false (fun h => ?_) fun h => h.2.1 hhost
    exact (spoiled_foldl hhost (List.cons_ne_nil address addresses)).2 _ h.mem
  have hfirst : startBash c hosts address = hosts ++ printed (hostsLine address.1 c.hostName) := by
    rw [startBash_eq, if_neg hhost]
  cases addresses with
  | nil =>
    rw [List.foldl_cons, List.foldl_nil, hfirst]
    refine (refreshed_append_iff hhost address).trans ⟨fun h => ⟨rfl, hhost, h⟩, fun h => h.2.2⟩
  | cons second rest =>
    refine iff_of_false (fun h => ?_) fun h => List.cons_ne_nil _ _ h.1
    -- the second start finds what the first one appended
    have hmem : c.hostName <:+: startBash c hosts address := by
      rw [hfirst]
      exact (isInfix_hostsLine address.1 _).trans ⟨hosts, ['\n'], List.append_assoc _ _ _⟩
    exact (spoiled_foldl hmem (List.cons_ne_nil second rest)).2 _ h.mem

/-! ## The Ruby script -/

/-- What a start does to the file. The newline behind the host name is searched for, and printed. -/
theorem startRuby_eq (aws : Bool) (c : Container) (hosts : Text) (address : Address) :
    startRuby aws c hosts address =
      if printed c.hostName <:+: hosts then hosts
      else if aws = true then hosts ++ (hostsLine address.1 c.hostName ++ ['\n', '\n'])
      else hosts ++ (address.1 ++ '\n' :: (' ' :: c.hostName ++ ['\n', '\n'])) := by
  have hnewline : '\n' ∈ printed c.hostName := List.mem_append_right _ (List.mem_singleton_self _)
  simp only [startRuby, if_neg c.name_ok, sedCommanded, if_pos hnewline, strip_printed]
  cases aws <;> simp [printed, hostsLine]

/-- With the host name at the end of a line nothing is changed any more. -/
theorem foldl_startRuby {aws : Bool} (h : printed c.hostName <:+: hosts) (addresses : List Address) :
    addresses.foldl (startRuby aws c) hosts = hosts := by
  induction addresses with
  | nil => rfl
  | cons address addresses ih => rw [List.foldl_cons, startRuby_eq, if_pos h, ih]

/-- Only the first start changes the file. -/
theorem foldl_startRuby_cons (aws : Bool) (c : Container) (hosts : Text) (address : Address)
    (addresses : List Address) :
    (address :: addresses).foldl (startRuby aws c) hosts = startRuby aws c hosts address := by
  refine foldl_startRuby ?_ addresses
  rw [startRuby_eq]
  split
  · assumption
  split
  · exact ⟨hosts ++ (address.1 ++ [' ']), ['\n'], by simp [printed, hostsLine]⟩
  · exact ⟨hosts ++ (address.1 ++ ['\n', ' ']), ['\n'], by simp [printed]⟩

/-- A line that does not begin with white space is none of the other lines that a start prints. -/
theorem hostsLine_not_mem {address : Address} {bs : List Text} (h : ∀ body ∈ bs, ∀ ch ∈ body.head?, ch = ' ') :
    hostsLine address.1 c.hostName ∉ bs := by
  intro hmem
  obtain ⟨ch, rest, haddress⟩ := List.exists_cons_of_ne_nil address.2.1
  have hblank := h _ hmem ch (by simp [hostsLine, haddress])
  subst hblank
  exact not_mem_address (by decide) address (haddress ▸ List.mem_cons_self)

/-- The beginning of an entry does not name the host. -/
theorem not_mem_names_of_append {address : Address} {l d : Text} (h : l ++ d = hostsLine address.1 c.hostName)
    (hd : d ≠ []) : c.hostName ∉ names l := by
  have hcomment : '#' ∉ l := fun hmem =>
    not_mem_hostsLine (by decide) (by decide) (by decide) address (h ▸ List.mem_append_left d hmem)
  -- up to the space there is only the address
  have hfront : ∀ as : Text, address.1 = l ++ as → c.hostName ∉ (words l).tail := by
    intro as has
    rw [words, wordsBy_of_forall fun ch hch => isBlank_of_mem_address (has ▸ List.mem_append_left as hch)]
    split <;> exact List.not_mem_nil
  rw [names, entry_of_not_mem hcomment]
  rw [hostsLine, List.append_eq_append_iff] at h
  obtain ⟨as, has, -⟩ | ⟨bs, rfl, hbs⟩ := h
  · exact hfront as has
  · cases bs with
    | nil => exact hfront [] (by rw [List.append_nil, List.append_nil])
    | cons ch bs =>
      obtain ⟨rfl, hhost⟩ := List.cons_eq_cons.mp hbs
      have hblank : ∀ ch ∈ bs, isBlank ch = false := fun ch hch =>
        Container.isBlank_of_mem (c := c) (by rw [hhost]; exact List.mem_append_left d hch)
      rw [words, wordsBy_cons (fun _ => isBlank_of_mem_address) address.2.1 (by decide), wordsBy_of_forall hblank]
      -- behind it there is not all of the host name
      intro hmem
      have hsame : c.hostName = bs := by
        split at hmem
        · cases hmem
        · exact List.mem_singleton.mp hmem
      rw [hsame] at hhost
      exact hd (List.append_right_eq_self.mp hhost.symm)

/-- **An open line is lost**, when the entry is put behind it. -/
theorem not_refreshed_open {address : Address} {a l d rest : Text} (ha : Terminated a) (hne : l ≠ []) (hl : '\n' ∉ l)
    (hno : ¬ printed c.hostName <:+: a ++ l) (hd : d ≠ []) (hdn : '\n' ∉ d)
    (hrest : ∀ body ∈ bodies rest, ∀ ch ∈ body.head?, ch = ' ') :
    ¬ Refreshed c address (a ++ l) (a ++ l ++ (d ++ '\n' :: rest)) := by
  intro h
  have hjoined : '\n' ∉ l ++ d := by
    rw [List.mem_append, not_or]
    exact ⟨hl, hdn⟩
  have hafter : bodies (a ++ l ++ (d ++ '\n' :: rest)) = bodies a ++ (l ++ d) :: bodies rest := by
    rw [List.append_assoc, ← List.append_assoc l, bodies_append ha, bodies_append_newline_cons hjoined]
  have hmem := h.mem
  rw [hafter, List.mem_append, List.mem_cons] at hmem
  obtain hmem | hmem | hmem := hmem
  · refine hno (List.IsInfix.trans ?_ ((isInfix_append_newline ha hmem).trans (List.prefix_append a l).isInfix))
    exact ⟨address.1 ++ [' '], [], by simp [printed, hostsLine]⟩
  · -- the open line did not name the host, and is not there any more
    have hnames := not_mem_names_of_append hmem.symm hd
    have hopen : l ∉ bodies rest := by
      intro hmem'
      refine @hostsLine_not_mem c address [l ++ d] (fun body hbody ch hch => ?_) (List.mem_singleton.mpr hmem)
      rw [List.mem_singleton.mp hbody, List.head?_append_of_ne_nil _ hne] at hch
      exact hrest l hmem' ch hch
    have hcount := h.others.count_le l
    rw [hafter, List.count_filter (by simpa using hnames), bodies_append ha, bodies_of_not_mem hne hl,
      List.count_append, List.count_append, List.count_cons_self, List.count_nil, List.count_cons_of_ne,
      List.count_eq_zero_of_not_mem hopen] at hcount
    · omega
    · intro heq
      exact hd (List.append_right_eq_self.mp heq)
  · exact hostsLine_not_mem hrest hmem

/-- The first start on AWS, of a host name that ends no line. -/
theorem refreshed_aws_iff (hno : ¬ printed c.hostName <:+: hosts) (address last : Address) :
    Refreshed c last hosts (hosts ++ (hostsLine address.1 c.hostName ++ ['\n', '\n'])) ↔
      Terminated hosts ∧ (∀ line ∈ bodies hosts, c.hostName ∉ names line) ∧ last = address := by
  have hblank : ∀ body ∈ bodies ['\n'], ∀ ch ∈ body.head?, ch = ' ' := by
    intro body hbody ch hch
    rw [List.mem_singleton.mp (show body ∈ [[]] from hbody)] at hch
    cases hch
  by_cases ht : Terminated hosts
  · have hafter : bodies (hosts ++ (hostsLine address.1 c.hostName ++ ['\n', '\n'])) =
        bodies hosts ++ [hostsLine address.1 c.hostName, []] := by
      rw [bodies_append ht, bodies_append_newline_cons (newline_not_mem_hostsLine address)]
      rfl
    have hfilter : (bodies (hosts ++ (hostsLine address.1 c.hostName ++ ['\n', '\n']))).filter
          (fun line => decide (c.hostName ∈ names line)) =
        (bodies hosts).filter (fun line => decide (c.hostName ∈ names line)) ++
          [hostsLine address.1 c.hostName] := by
      rw [hafter, List.filter_append, List.filter_cons_of_pos (by simp [names_hostsLine])]
      rfl
    constructor
    · intro h
      have hline := h.line
      rw [hfilter, List.append_eq_singleton_iff] at hline
      obtain ⟨hnone, hsame⟩ | ⟨-, hnil⟩ := hline
      · refine ⟨ht, fun line hmem => by simpa using List.filter_eq_nil_iff.mp hnone line hmem, ?_⟩
        exact Subtype.ext (List.append_cancel_right (List.singleton_inj.mp hsame)).symm
      · cases hnil
    · rintro ⟨-, hnames, rfl⟩
      constructor
      · rw [hfilter, List.append_left_eq_self, List.filter_eq_nil_iff]
        intro line hline
        simpa using hnames line hline
      · rw [hafter]
        exact List.filter_sublist.trans (List.sublist_append_left _ _)
  · refine iff_of_false (fun h => ?_) fun h => ht h.1
    obtain ⟨a, l, rfl, ha, hne, hl⟩ := exists_open_line ht
    exact not_refreshed_open ha hne hl hno (List.append_ne_nil_of_right_ne_nil _ (List.cons_ne_nil _ _))
      (newline_not_mem_hostsLine address) hblank h

/-- The first start elsewhere breaks the line in two, of which none is the entry. -/
theorem not_refreshed_broken (hno : ¬ printed c.hostName <:+: hosts) (address last : Address) :
    ¬ Refreshed c last hosts (hosts ++ (address.1 ++ '\n' :: (' ' :: c.hostName ++ ['\n', '\n']))) := by
  have haddress : '\n' ∉ address.1 := not_mem_address (by decide) address
  have hhost : '\n' ∉ ' ' :: c.hostName := by
    rw [List.mem_cons, not_or]
    exact ⟨by decide, Container.not_mem_hostName (by decide)⟩
  have hrest : bodies (' ' :: c.hostName ++ ['\n', '\n']) = [' ' :: c.hostName, []] := by
    rw [bodies_append_newline_cons hhost]
    rfl
  have hblank : ∀ body ∈ bodies (' ' :: c.hostName ++ ['\n', '\n']), ∀ ch ∈ body.head?, ch = ' ' := by
    rw [hrest]
    simp
  by_cases ht : Terminated hosts
  · intro h
    have hmem := h.mem
    rw [bodies_append ht, bodies_append_newline_cons haddress, List.mem_append, List.mem_cons] at hmem
    obtain hmem | hmem | hmem := hmem
    · refine hno (List.IsInfix.trans ?_ (isInfix_append_newline ht hmem))
      exact ⟨last.1 ++ [' '], [], by simp [printed, hostsLine]⟩
    · -- the first half has no space in it
      refine not_mem_address (by decide) address (show ' ' ∈ address.1 from ?_)
      rw [← hmem]
      exact List.mem_append_right _ List.mem_cons_self
    · exact hostsLine_not_mem hblank hmem
  · obtain ⟨a, l, rfl, ha, hne, hl⟩ := exists_open_line ht
    exact not_refreshed_open ha hne hl hno address.2.1 haddress hblank

/-- **The Ruby script refreshes the entry** exactly when it changes nothing and the entry is there, or appends it. It
changes the file at most once. -/
theorem refreshed_ruby_iff (aws : Bool) (c : Container) (hosts : Text) (address : Address) (addresses : List Address) :
    Refreshed c (latest address addresses) hosts ((address :: addresses).foldl (startRuby aws c) hosts) ↔
      if printed c.hostName <:+: hosts then
        (bodies hosts).filter (fun line => decide (c.hostName ∈ names line)) =
          [hostsLine (latest address addresses).1 c.hostName]
      else
        aws = true ∧ Terminated hosts ∧ (∀ line ∈ bodies hosts, c.hostName ∉ names line) ∧
          latest address addresses = address := by
  rw [foldl_startRuby_cons, startRuby_eq]
  split
  · exact ⟨fun h => h.line, fun h => ⟨h, List.filter_sublist⟩⟩
  · rename_i hno
    split
    · rename_i haws
      exact (refreshed_aws_iff hno address _).trans (and_iff_right haws).symm
    · rename_i haws
      exact iff_of_false (not_refreshed_broken hno address _) fun h => haws h.1

/-! ## Both -/

/-- **The entry is refreshed** by both scripts, with the condition on the file and the addresses. -/
theorem refreshed_iff (aws : Bool) (c : Container) (hosts : Text) (address : Address) (addresses : List Address) :
    (Refreshed c (latest address addresses) hosts ((address :: addresses).foldl (startBash c) hosts) ↔
      addresses = [] ∧ ¬ c.hostName <:+: hosts ∧ Terminated hosts) ∧
    (Refreshed c (latest address addresses) hosts ((address :: addresses).foldl (startRuby aws c) hosts) ↔
      if printed c.hostName <:+: hosts then
        (bodies hosts).filter (fun line => decide (c.hostName ∈ names line)) =
          [hostsLine (latest address addresses).1 c.hostName]
      else
        aws = true ∧ Terminated hosts ∧ (∀ line ∈ bodies hosts, c.hostName ∉ names line) ∧
          latest address addresses = address) :=
  ⟨refreshed_bash_iff c hosts address addresses, refreshed_ruby_iff aws c hosts address addresses⟩

/-- The container `web`, started twice. -/
def web : Container where
  name := "web".toList
  hostName := "web-node".toList
  name_ok := by decide
  hostName_ok := ⟨by decide, List.all_eq_true.mp (by decide)⟩

/-- **After a second start with another address** neither script has left the entry. -/
theorem second_start_stale :
    let hosts := "127.0.0.1 localhost\n".toList
    let first : Address := ⟨"10.0.0.1".toList, by decide⟩
    let second : Address := ⟨"10.0.0.2".toList, by decide⟩
    ¬ Refreshed web (latest first [second]) hosts ([first, second].foldl (startBash web) hosts) ∧
      ¬ Refreshed web (latest first [second]) hosts ([first, second].foldl (startRuby true web) hosts) := by
  refine ⟨fun h => absurd h.line ?_, fun h => absurd h.line ?_⟩ <;> decide +kernel

end GexCloud.Slave
