import GexCloud.Slave.LocalhostAlias
import Mathlib.Algebra.GroupWithZero.Nat

/-! # Renaming a node in `/etc/hosts`

`setup_environment` and the recipe `node_install` of Chef put the name of the node into `/etc/hosts`, by two
substitutions: of the alias `localhost`, and of the name that the machine had.

* `substituteNames` — the two substitutions.
* `renameLine` — what they are for: only the tokens that are the old name or the alias become the new name.
* `Renames` — each of the substitutions does what it is for, and both do together.
* `NameAlone` — the lines in which the old name is found as a token, and nowhere else.
* **`renames_iff`** — the files that are renamed as they should be. -/

namespace GexCloud.Slave

open Texts Avahi Hosts

/-! ## The substitutions and their purpose -/

/-- The name of a host. -/
abbrev HostName := { t : Text // ∀ ch ∈ t, isHostChar ch = true }

/-- The first substitution. -/
def sedLocalhost (node hosts : Text) : Text :=
  sed "127.0.0.1 localhost".toList ("127.0.0.1 ".toList ++ node) hosts

/-- **The two substitutions.** -/
def substituteNames (hostname node hosts : Text) : Text := sed hostname node (sedLocalhost node hosts)

/-- `setup hostname` of `node_install`, for the content of `/etc/hostname`. -/
def setupHostname (nodeName hostnameFile hosts : Text) : Text := substituteNames (strip hostnameFile) nodeName hosts

/-- The lines of a file are changed. -/
def eachLine (f : Text → Text) (content : Text) : Text := ['\n'].intercalate ((content.splitOn '\n').map f)

/-- A name is renamed. -/
def renameHost (old node name : Text) : Text := if name = old then node else name

/-- **What the second substitution is for**: the names that are the old one become the new one. -/
def hostLine (old node line : Text) : Text := mapNames isBlank (renameHost old node) line

/-- A name in a line, after both substitutions. -/
def renameName (old node line name : Text) : Text :=
  if name = old ∨ ((words line).head? = some loopback ∧ name = localhost) then node else name

/-- **What both are for.** Addresses, and what is between the tokens, stay. -/
def renameLine (old node line : Text) : Text := mapNames isBlank (renameName old node line) line

/-- **A node is renamed**: each substitution does what it is for, and so they do together. -/
structure Renames (old node hosts : Text) : Prop where
  localhost : sedLocalhost node hosts = eachLine (localhostLine node) hosts
  hostname : sed old node (sedLocalhost node hosts) = eachLine (hostLine old node) (sedLocalhost node hosts)
  both : substituteNames old node hosts = eachLine (renameLine old node) hosts

/-- **The lines in which the old name is found as a token, and nowhere else**: no match has white space in it, and in
the address, and in a name that is not the old one, a match is the new name itself. -/
structure NameAlone (old node line : Text) : Prop where
  solid : ∀ m ∈ found old 0 line, Solid isBlank m
  address : ∀ w ∈ (words line).head?, ∀ m ∈ found old 0 w, m = node
  names : ∀ w ∈ (words line).tail, w ≠ old → ∀ m ∈ found old 0 w, m = node

variable {old node line hosts s t u : Text} {c : Char} {f g : Text → Text}

/-- The two scripts do the same to the file. -/
theorem hosts_setupEnvironment (E : Setup) (m : Node) :
    (setupEnvironment.foldl (perform E) ⟨m, []⟩).machine.hosts = setupHostname E.node m.hostname.1 m.hosts := rfl

/-! ## A line -/

/-- Nothing of an empty pattern is found. -/
theorem found_nil (line : Text) : found [] 0 line = [] := by
  induction line with
  | nil => rfl
  | cons c line ih => rw [found, if_neg fun h => h.1 rfl, ih]

/-- White space is put in nowhere. -/
theorem countP_substitute (hne : old ≠ []) (hnode : Solid isBlank node) (line : Text) :
    (substitute old node 0 line).countP isBlank + ((found old 0 line).map (List.countP isBlank)).sum =
      line.countP isBlank := by
  induction line using substituteInduction hne with
  | nil => rfl
  | hit m t hlength hm ih =>
    rw [substitute_hit hne hlength hm, found_hit hne hlength hm, List.countP_append, countP_of_solid hnode,
      List.map_cons, List.sum_cons, List.countP_append]
    omega
  | miss c t hmiss ih =>
    rw [substitute_miss hmiss, found_miss hmiss, List.countP_cons, List.countP_cons]
    omega

/-- **Word by word**: where no match has white space in it, the words are substituted one by one. -/
theorem substitute_eq_mapWords (hne : old ≠ []) (hfound : ∀ m ∈ found old 0 line, Solid isBlank m) :
    substitute old node 0 line = mapWords isBlank (substitute old node 0) line := by
  have hword : ∀ w : Text, onWord (substitute old node 0) w = substitute old node 0 w := by
    intro w
    cases w with
    | nil => rfl
    | cons c w => exact onWord_of_ne_nil (List.cons_ne_nil c w)
  induction line using substituteInduction hne with
  | nil => rfl
  | hit m t hlength hm ih =>
    rw [found_hit hne hlength hm, List.forall_mem_cons] at hfound
    -- the match is in front of the word that comes next
    obtain ⟨w, r, rfl, hw, hr⟩ : ∃ w r, t = w ++ r ∧ Solid isBlank w ∧ Apart isBlank r :=
      ⟨_, _, List.takeWhile_append_dropWhile.symm, solid_takeWhile t, apart_dropWhile t⟩
    rw [substitute_hit hne hlength hm, ih hfound.2, ← List.append_assoc, mapWords_append (solid_append hfound.1 hw) hr,
      mapWords_append hw hr, hword, hword, substitute_hit hne hlength hm, List.append_assoc]
  | miss c t hmiss ih =>
    rw [found_miss hmiss] at hfound
    by_cases hc : isBlank c = true
    · rw [substitute_miss hmiss, ih hfound, mapWords_cons hc]
    · obtain ⟨w, r, rfl, hw, hr⟩ : ∃ w r, t = w ++ r ∧ Solid isBlank w ∧ Apart isBlank r :=
        ⟨_, _, List.takeWhile_append_dropWhile.symm, solid_takeWhile t, apart_dropWhile t⟩
      have hcw : Solid isBlank (c :: w) := List.forall_mem_cons.mpr ⟨by simpa using hc, hw⟩
      have hmissWord : matchesAt old (c :: w) = false := by
        rw [← Bool.not_eq_true]
        intro hmatch
        have hlong := matchesAt_append_of_matchesAt hmatch r
        rw [List.cons_append, hmiss] at hlong
        cases hlong
      rw [substitute_miss hmiss, ih hfound, ← List.cons_append, mapWords_append hcw hr, mapWords_append hw hr, hword,
        hword, substitute_miss hmissWord, List.cons_append]

/-- The old name is replaced where it is all of a token. -/
theorem substitute_old (hne : old ≠ []) : substitute old node 0 old = node := by
  have hmatch := matchesAt_append old []
  rw [List.append_nil] at hmatch
  have hhit := @substitute_hit _ node _ hne rfl hmatch []
  rw [List.append_nil] at hhit
  rw [hhit]
  exact List.append_nil node

/-- A word stays one word. -/
theorem solid_substitute (hnode : Solid isBlank node) (hs : Solid isBlank s) :
    Solid isBlank (substitute old node 0 s) :=
  fun ch hch => (mem_substitute 0 hch).elim (hnode ch) (hs ch)

/-- So does the name of a host. -/
theorem solid_renameHost (hnode : Solid isBlank node) (hs : Solid isBlank s) :
    Solid isBlank (renameHost old node s) := by
  unfold renameHost
  split
  · exact hnode
  · exact hs

/-- **The second substitution does what it is for** exactly in the lines in which the old name is found as a token, and
nowhere else. -/
theorem substitute_eq_hostLine_iff (hnode : Solid isBlank node) (line : Text) :
    substitute old node 0 line = hostLine old node line ↔ NameAlone old node line := by
  by_cases hne : old = []
  · subst hne
    have hkept : hostLine [] node line = line := mapNames_eq_self fun w hw =>
      if_neg (forall_of_mem_wordsBy (List.mem_of_mem_tail hw)).1
    rw [substitute_nil, hkept]
    refine iff_of_true rfl ⟨?_, fun w _ => ?_, fun w _ _ => ?_⟩
    all_goals rw [found_nil]; exact nofun
  · have hwords : ∀ w ∈ words line, Solid isBlank (substitute old node 0 w) := fun w hw =>
      solid_substitute hnode (solid_of_mem_words hw)
    have hnames : ∀ w ∈ (words line).tail, Solid isBlank (renameHost old node w) := fun w hw =>
      solid_renameHost hnode (solid_of_mem_words (List.mem_of_mem_tail hw))
    -- a token that is not the old name stays when each match is the new name
    have hname : ∀ w, substitute old node 0 w = renameHost old node w ↔
        (w ≠ old → ∀ m ∈ found old 0 w, m = node) := by
      intro w
      by_cases hw : w = old
      · rw [hw, substitute_old hne, renameHost, if_pos rfl]
        exact iff_of_true rfl fun h => absurd rfl h
      · rw [renameHost, if_neg hw, substitute_eq_self_iff hne]
        exact ⟨fun h _ => h, fun h => h hw⟩
    have htokens (hsolid : ∀ m ∈ found old 0 line, Solid isBlank m) :
        substitute old node 0 line = hostLine old node line ↔
          (∀ w ∈ (words line).head?, ∀ m ∈ found old 0 w, m = node) ∧
          ∀ w ∈ (words line).tail, w ≠ old → ∀ m ∈ found old 0 w, m = node := by
      rw [substitute_eq_mapWords hne hsolid, hostLine, mapWords_eq_mapNames_iff hwords hnames]
      exact and_congr (forall₂_congr fun w _ => substitute_eq_self_iff hne w) (forall₂_congr fun w _ => hname w)
    constructor
    · intro heq
      have hsolid : ∀ m ∈ found old 0 line, Solid isBlank m := by
        intro m hm
        have hcount := countP_substitute hne hnode line
        rw [heq, hostLine, countP_mapNames hnames, Nat.add_eq_left] at hcount
        exact solid_of_countP (List.sum_eq_zero_iff_forall_eq_nat.mp hcount _ (List.mem_map_of_mem hm))
      exact ⟨hsolid, ((htokens hsolid).mp heq).1, ((htokens hsolid).mp heq).2⟩
    · rintro ⟨hsolid, haddress, hrest⟩
      exact (htokens hsolid).mpr ⟨haddress, hrest⟩

/-! ## A file -/

/-- No character of a host name is white space in a line, or ends one. -/
theorem HostName.not_blank (node : HostName) : Solid isBlank node.1 ∧ '\n' ∉ node.1 := by
  refine ⟨fun ch hch => ?_, fun h => absurd (node.2 '\n' h) (by decide)⟩
  have hhost := node.2 ch hch
  rw [← Bool.not_eq_true]
  intro hblank
  obtain rfl | rfl : ch = ' ' ∨ ch = '\t' := by simpa [isBlank] using hblank
  · cases hhost
  · cases hhost

/-- The lines of a file that is changed line by line. -/
theorem splitOn_eachLine (hf : ∀ line, '\n' ∉ line → '\n' ∉ f line) (content : Text) :
    (eachLine f content).splitOn '\n' = (content.splitOn '\n').map f := by
  refine List.splitOn_intercalate '\n' ?_ (by simp)
  intro piece hpiece
  obtain ⟨line, hline, rfl⟩ := List.mem_map.mp hpiece
  exact hf line (not_mem_of_mem_splitOn hline)

/-- **Two changes line by line give the same file** exactly when they change each line alike. -/
theorem eachLine_eq_iff (hf : ∀ line, '\n' ∉ line → '\n' ∉ f line) (hg : ∀ line, '\n' ∉ line → '\n' ∉ g line)
    (content : Text) : eachLine f content = eachLine g content ↔ ∀ line ∈ content.splitOn '\n', f line = g line := by
  rw [← List.map_inj_left, ← splitOn_eachLine hf, ← splitOn_eachLine hg]
  constructor
  · intro h
    rw [h]
  · intro h
    calc eachLine f content = ['\n'].intercalate ((eachLine f content).splitOn '\n') :=
          (List.intercalate_splitOn '\n').symm
      _ = ['\n'].intercalate ((eachLine g content).splitOn '\n') := by rw [h]
      _ = eachLine g content := List.intercalate_splitOn '\n'

/-- A line stays one line under the first script. -/
theorem newline_not_mem_hostLine (hnode : '\n' ∉ node) (line : Text) (hline : '\n' ∉ line) :
    '\n' ∉ hostLine old node line := by
  intro h
  obtain h | ⟨w, hw, h⟩ := mem_mapNames h
  · exact hline h
  · unfold renameHost at h
    split at h
    · exact hnode h
    · exact hline ((isInfix_of_mem_splitOnP (List.mem_of_mem_filter (List.mem_of_mem_tail hw))).subset h)

/-- And under the second. -/
theorem newline_not_mem_localhostLine (hnode : '\n' ∉ node) (line : Text) (hline : '\n' ∉ line) :
    '\n' ∉ localhostLine node line := by
  intro h
  obtain h | ⟨w, hw, h⟩ := mem_mapNames h
  · exact hline h
  · have hword : '\n' ∉ w := fun hmem =>
      hline ((isInfix_of_mem_splitOnP (List.mem_of_mem_filter (List.mem_of_mem_tail hw))).subset hmem)
    unfold newAlias renameAlias at h
    split_ifs at h
    · exact hnode h
    · exact hword h
    · exact hword h

/-- Both purposes, one after the other, are what both are for. -/
theorem hostLine_localhostLine (hnode : Solid isBlank node) (line : Text) :
    hostLine old node (localhostLine node line) = renameLine old node line := by
  have hnames : ∀ w ∈ (words line).tail, Solid isBlank (newAlias node line w) := fun w hw =>
    solid_newAlias hnode (solid_of_mem_words (List.mem_of_mem_tail hw))
  rw [hostLine, localhostLine, mapNames_mapNames hnames, renameLine]
  refine mapNames_congr fun w hw => ?_
  have hne : w ≠ [] := (forall_of_mem_wordsBy (List.mem_of_mem_tail hw)).1
  have hnode' : onWord (renameHost old node) node = node := by
    unfold onWord renameHost
    split_ifs with hnil
    · exact hnil.symm
    · rfl
    · rfl
  by_cases halias : (words line).head? = some loopback ∧ w = localhost
  · rw [renameName, if_pos (.inr halias), newAlias, if_pos halias.1, renameAlias, if_pos halias.2, hnode']
  · have hkept : newAlias node line w = w := by
      unfold newAlias renameAlias
      split_ifs with hhead hw
      · exact absurd ⟨hhead, hw⟩ halias
      · rfl
      · rfl
    rw [hkept, onWord_of_ne_nil hne, renameHost, renameName]
    by_cases hold : w = old
    · rw [if_pos hold, if_pos (.inl hold)]
    · rw [if_neg hold, if_neg fun h => h.elim hold halias]

/-- The first substitution is done line by line. -/
theorem sedLocalhost_eq (node hosts : Text) : sedLocalhost node hosts = eachLine (substituteLocalhost node) hosts := rfl

/-- **A node is renamed as it should be** exactly in the files in whose lines the alias and the old name are found as
tokens, and nothing else is found. -/
theorem renames_iff (file : HostnameFile) (node : HostName) (hosts : Text) :
    Renames (strip file.1) node.1 hosts ↔ ∀ line ∈ hosts.splitOn '\n',
      AliasAlone node.1 line ∧ NameAlone (strip file.1) node.1 (localhostLine node.1 line) := by
  obtain ⟨hnode, hnewline⟩ := node.not_blank
  have hreplacement : '\n' ∉ "127.0.0.1 ".toList ++ node.1 := by
    rw [List.mem_append, not_or]
    exact ⟨by decide, hnewline⟩
  have hsubstituted : ∀ line, '\n' ∉ line → '\n' ∉ substituteLocalhost node.1 line := fun line =>
    newline_not_mem_substitute hreplacement 0
  have hpurpose := @newline_not_mem_localhostLine node.1 hnewline
  have hlocalhost : sedLocalhost node.1 hosts = eachLine (localhostLine node.1) hosts ↔
      ∀ line ∈ hosts.splitOn '\n', AliasAlone node.1 line := by
    rw [sedLocalhost_eq, eachLine_eq_iff hsubstituted hpurpose]
    exact forall₂_congr fun line _ => substituteLocalhost_eq_iff hnode line
  have hhostname (h : sedLocalhost node.1 hosts = eachLine (localhostLine node.1) hosts) :
      sed (strip file.1) node.1 (sedLocalhost node.1 hosts) =
          eachLine (hostLine (strip file.1) node.1) (sedLocalhost node.1 hosts) ↔
        ∀ line ∈ hosts.splitOn '\n', NameAlone (strip file.1) node.1 (localhostLine node.1 line) := by
    change eachLine (substitute (strip file.1) node.1 0) _ = _ ↔ _
    rw [eachLine_eq_iff (fun line => newline_not_mem_substitute hnewline 0)
      (newline_not_mem_hostLine hnewline), h, splitOn_eachLine hpurpose, List.forall_mem_map]
    exact forall₂_congr fun line _ => substitute_eq_hostLine_iff hnode _
  constructor
  · rintro ⟨hfirst, hsecond, -⟩
    exact fun line hline => ⟨hlocalhost.mp hfirst line hline, (hhostname hfirst).mp hsecond line hline⟩
  · intro h
    have hfirst := hlocalhost.mpr fun line hline => (h line hline).1
    have hsecond := (hhostname hfirst).mpr fun line hline => (h line hline).2
    refine ⟨hfirst, hsecond, ?_⟩
    rw [substituteNames, hsecond, hfirst, eachLine, splitOn_eachLine hpurpose, List.map_map, eachLine]
    congr 1
    exact List.map_congr_left fun line _ => hostLine_localhostLine hnode line

/-- Two changes that are not as they should be can undo each other. -/
example :
    let hosts := "127.0.0.1 localhostlocalhostx".toList
    sedLocalhost "localhostx".toList hosts ≠ hosts ∧
      substituteNames "xlocalhostx".toList "localhostx".toList hosts = hosts ∧
      eachLine (renameLine "xlocalhostx".toList "localhostx".toList) hosts = hosts := by
  decide +kernel

/-- The machine `web` becomes `node-1`, and so does the beginning of another name. -/
theorem webserver_renamed :
    let hosts := "127.0.0.1 localhost\n10.0.0.7 webserver web\n".toList
    substituteNames "web".toList "node-1".toList hosts =
        "127.0.0.1 node-1\n10.0.0.7 node-1server node-1\n".toList ∧
      eachLine (renameLine "web".toList "node-1".toList) hosts =
        "127.0.0.1 node-1\n10.0.0.7 webserver node-1\n".toList ∧
      ¬ Renames "web".toList "node-1".toList hosts := by
  refine ⟨by decide +kernel, by decide +kernel, fun h => absurd h.both ?_⟩
  decide +kernel

end GexCloud.Slave
