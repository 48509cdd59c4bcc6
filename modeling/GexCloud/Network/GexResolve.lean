import GexCloud.Network.AvahiHosts
import GexCloud.Support.Hosts

/-! # `gex_resolve.rb`

The module `GexResolve` keeps five host names in `/etc/hosts` current: every five minutes it asks the resolver for them
and, name by name, replaces a line of the file or appends one.

What `host` prints is a parameter: next to addresses there are aliases, timeouts and other messages, and the
fourth word of the first line is written to the file, whatever it is.

* `resolveHost`, `resolveBasic`, `replaceLine`, `updateHosts` — the functions of the module.
* `sedChange`, `sedAppend` — the commands `c` and `a` of `sed`.
* `readings` — the host names with what is read for them, `Plain` — words that the commands take literally.
* **`bodies_foldl`** — the lines that a run leaves: those in angle brackets are replaced, and what `grep` does not
  find is appended.
* **`current_iff`** — when the file is current after it. -/

namespace GexCloud.GexResolve

open Texts Avahi Hosts

/-! ## The resolver -/

/-- `BASIC_HOSTNAMES`. -/
def BASIC_HOSTNAMES : List Text :=
  ["api.galacticexchange.io".toList, "rabbit.galacticexchange.io".toList, "proxy.galacticexchange.io".toList,
    "webproxy.galacticexchange.io".toList, "hub.galacticexchange.io".toList]

/-- The white space at which `String#split` divides. -/
def isSplitSpace (c : Char) : Bool := c == ' ' || c == '\t' || c == '\n' || c == '\x0b' || c == '\x0c' || c == '\r'

/-- `result.split(' ')`. -/
def split (result : Text) : List Text := wordsBy isSplitSpace result

/-- `resolve_host`, of the first line that `host` prints. There is no fourth word in a short line. -/
def resolveHost (result : Text) : Option Text :=
  if "not found".toList <:+: result then some "none".toList else (split result)[3]?

/-- `resolve_basic`. -/
def resolveBasic (host : Text → Text) : List (Text × Option Text) :=
  BASIC_HOSTNAMES.filterMap fun hostname =>
    let ip := resolveHost (host hostname)
    if ip ≠ some "none".toList then some (hostname, ip) else none

/-! ## `sed` -/

/-- `/pattern/c\text`: the lines with a match become the text. -/
def sedChange (pattern text content : Text) : Text :=
  ((lines content).map fun l => if breMatch pattern (Texts.chomp l) = true then printed text else l).flatten

/-- `$ a\text`: behind the last line, of which the end is put in when it is missing. Without a line there is no last
one. -/
def sedAppend (text content : Text) : Text :=
  if content = [] then []
  else if Terminated content then content ++ printed text
  else printed content ++ printed text

/-! ## The update -/

/-- `"#{ip} #{hostname}"`; `nil` is nothing. -/
def entryLine (hostname : Text) (ip : Option Text) : Text := ip.getD [] ++ ' ' :: hostname

/-- `/<#{hostname}>/`, in which the angle brackets stand for themselves. -/
def bracketed (hostname : Text) : Text := '<' :: hostname ++ ['>']

/-- `replace_line`. -/
def replaceLine (content hostname : Text) (ip : Option Text) : Text :=
  if (bodies content).any (breMatch hostname) = true then
    sedChange (bracketed hostname) (entryLine hostname ip) content
  else sedAppend (entryLine hostname ip) content

/-- `update_hosts`. -/
def updateHosts (host : Text → Text) (hosts : Text) : Text :=
  (resolveBasic host).foldl (fun content r => replaceLine content r.1 r.2) hosts

/-! ## What is asked of it -/

/-- A host name with what is read for it: a word, and nothing for `nil`. -/
abbrev Reading := Text × Text

/-- The host names with what is read for them. -/
def readings (host : Text → Text) : List Reading := (resolveBasic host).map fun r => (r.1, r.2.getD [])

/-- A word that is taken literally: it has no character that the shell, `sed` or a hosts file treats in a special
way, and no host name is found in front of another one because of it. -/
def IsPlain (w : Text) : Prop :=
  (∀ c ∈ w, c ∉ ['<', '#', '\x22', '\x27', '\x60', '$', '\\']) ∧
    ∀ g ∈ BASIC_HOSTNAMES, ∀ h ∈ BASIC_HOSTNAMES, breMatch g (w ++ ' ' :: h) = breMatch g h

instance (w : Text) : Decidable (IsPlain w) :=
  @instDecidableAnd _ _ (List.decidableBAll _ w) (List.decidableBAll _ BASIC_HOSTNAMES)

/-- The fourth words that `host` prints are plain, as addresses and the words of its messages are. -/
def Plain (host : Text → Text) : Prop := ∀ r ∈ readings host, IsPlain r.2

/-- The host names that are resolved, with their addresses. -/
def resolved (answer : Text → Option Address) : List (Text × Address) :=
  BASIC_HOSTNAMES.filterMap fun hostname => (answer hostname).map fun ip => (hostname, ip)

/-- A line maps a host name to an address. -/
def Maps (line hostname ip : Text) : Prop := address line = some ip ∧ hostname ∈ names line

/-- **A file is current**: every host name that is resolved has a line with its address and none with another one, and
the lines that name none of them are those of before. -/
structure Current (resolved : List (Text × Address)) (before after : Text) : Prop where
  mapped : ∀ a ∈ resolved, ∃ line ∈ bodies after, Maps line a.1 a.2.1
  unique : ∀ a ∈ resolved, ∀ line ∈ bodies after, a.1 ∈ names line → address line = some a.2.1
  others : (bodies after).filter (fun line => resolved.all fun a => decide (a.1 ∉ names line)) =
    (bodies before).filter (fun line => resolved.all fun a => decide (a.1 ∉ names line))

/-- The line is replaced for one of the host names: it contains the name in angle brackets. -/
def marked (rs : List Reading) (line : Text) : Bool := rs.any fun r => breMatch (bracketed r.1) line

/-- Some line is replaced by the entry of a host name, or `grep` finds none and the entry is appended. The lines of the
names before have been replaced already. -/
def Put (rs : List Reading) (ls : List Text) (r : Reading) : Prop :=
  ∃ earlier later, rs = earlier ++ r :: later ∧
    ((∃ line ∈ ls, marked earlier line = false ∧ breMatch (bracketed r.1) line = true) ∨
      ∀ line ∈ ls, breMatch r.1 line = true → marked earlier line = true)

/-- **A file that an update makes current**, from the words `rs` that are read. -/
structure Ready (rs : List Reading) (resolved : List (Text × Address)) (hosts : Text) : Prop where
  /-- A name that is resolved is put with its address, or has a line with it that stays. -/
  mapped : ∀ a ∈ resolved, Put rs (bodies hosts) (a.1, a.2.1) ∨
    ∃ line ∈ bodies hosts, marked rs line = false ∧ Maps line a.1 a.2.1
  /-- No line that stays gives it another address. -/
  unique : ∀ a ∈ resolved, ∀ line ∈ bodies hosts, marked rs line = false → a.1 ∈ names line →
    address line = some a.2.1
  /-- A line that is replaced names a host that is resolved. -/
  named : ∀ line ∈ bodies hosts, marked rs line = true → ∃ a ∈ resolved, a.1 ∈ names line
  /-- What is put is a host that is resolved, with its address. -/
  told : ∀ r, Put rs (bodies hosts) r → ∃ a ∈ resolved, r = (a.1, a.2.1)
  /-- The next `grep` finds every name, in a line that stays or in one that is put. -/
  settled : ∀ r ∈ rs, (∃ line ∈ bodies hosts, marked rs line = false ∧ breMatch r.1 line = true) ∨
    ∃ s, Put rs (bodies hosts) s ∧ breMatch r.1 s.1 = true

/-! ## What `host` says -/

/-- A basic host name is made of small letters and dots, without an `f`, and does not begin as an address does. -/
def isBasic (hostname : Text) : Bool :=
  hostname.head?.any (fun c => !(c.isDigit || c == '.')) && hostname.all fun c => (c.isLower || c == '.') && c != 'f'

/-- The five names are such. -/
theorem isBasic_of_mem {hostname : Text} (h : hostname ∈ BASIC_HOSTNAMES) : isBasic hostname = true := by
  have hall : BASIC_HOSTNAMES.all isBasic = true := by decide +kernel
  exact List.all_eq_true.mp hall hostname h

/-- A character that is none of a basic host name. -/
theorem not_mem_of_isBasic {hostname : Text} (h : isBasic hostname = true) {c : Char}
    (hc : ((c.isLower || c == '.') && c != 'f') = false) : c ∉ hostname := by
  intro hmem
  rw [isBasic, Bool.and_eq_true, List.all_eq_true] at h
  rw [h.2 c hmem] at hc
  cases hc

/-- A basic host name is not empty. -/
theorem ne_nil_of_isBasic {hostname : Text} (h : isBasic hostname = true) : hostname ≠ [] := by
  rintro rfl
  cases h

/-- A text that is a word for `String#split`. -/
def IsWord (s : Text) : Prop := s ≠ [] ∧ ∀ c ∈ s, isSplitSpace c = false

/-- A text without the separating characters is a word. -/
theorem isWord_of_not_mem {s : Text} (hne : s ≠ []) (h : ∀ c, isSplitSpace c = true → c ∉ s) : IsWord s := by
  refine ⟨hne, fun c hc => ?_⟩
  by_contra hspace
  exact h c (by simpa using hspace) hc

/-- The separating characters. -/
theorem eq_of_isSplitSpace {c : Char} (h : isSplitSpace c = true) :
    c = ' ' ∨ c = '\t' ∨ c = '\n' ∨ c = '\x0b' ∨ c = '\x0c' ∨ c = '\r' := by
  rw [isSplitSpace] at h
  simpa only [Bool.or_eq_true, beq_iff_eq, or_assoc] using h

/-- The fourth word. -/
theorem split_fourth {a b c d : Text} (ha : IsWord a) (hb : IsWord b) (hc : IsWord c) (hd : IsWord d) :
    (split (a ++ ' ' :: b ++ ' ' :: c ++ ' ' :: d ++ ['\n']))[3]? = some d := by
  have hshape : a ++ ' ' :: b ++ ' ' :: c ++ ' ' :: d ++ ['\n'] =
      a ++ ' ' :: (b ++ ' ' :: (c ++ ' ' :: (d ++ '\n' :: []))) := by simp
  rw [split, hshape, wordsBy_cons ha.2 ha.1 rfl, wordsBy_cons hb.2 hb.1 rfl, wordsBy_cons hc.2 hc.1 rfl,
    wordsBy_cons hd.2 hd.1 rfl]
  rfl

/-- The address is the fourth word of the answer. -/
theorem resolveHost_found {hostname : Text} (h : isBasic hostname = true) (ip : Address) :
    resolveHost (hostname ++ ' ' :: "has".toList ++ ' ' :: "address".toList ++ ' ' :: ip.1 ++ ['\n']) =
      some ip.1 := by
  have hname : IsWord hostname := isWord_of_not_mem (ne_nil_of_isBasic h) fun c hc => by
    rcases eq_of_isSplitSpace hc with rfl | rfl | rfl | rfl | rfl | rfl <;> exact not_mem_of_isBasic h (by decide)
  have hip : IsWord ip.1 := isWord_of_not_mem ip.2.1 fun c hc => by
    rcases eq_of_isSplitSpace hc with rfl | rfl | rfl | rfl | rfl | rfl <;> exact not_mem_address (by decide) ip
  have hhas : IsWord "has".toList := ⟨by decide, by simp [isSplitSpace]⟩
  have haddress : IsWord "address".toList := ⟨by decide, by simp [isSplitSpace]⟩
  have hfound : ¬ "not found".toList <:+:
      hostname ++ ' ' :: "has".toList ++ ' ' :: "address".toList ++ ' ' :: ip.1 ++ ['\n'] := by
    intro hinfix
    have hmem := hinfix.subset (show 'f' ∈ "not found".toList by decide)
    simp only [List.mem_append, List.mem_cons] at hmem
    have hlast : 'f' ∉ ip.1 := not_mem_address (by decide) ip
    have hfirst : 'f' ∉ hostname := not_mem_of_isBasic h (by decide)
    simp [hlast, hfirst] at hmem
  exact (if_neg hfound).trans (split_fourth hname hhas haddress hip)

/-- A name that is not found has no address. -/
theorem resolveHost_not_found (hostname : Text) :
    resolveHost ("Host ".toList ++ hostname ++ " not found: 3(NXDOMAIN)\n".toList) = some "none".toList :=
  if_pos ⟨"Host ".toList ++ hostname ++ [' '], ": 3(NXDOMAIN)\n".toList, by simp⟩

/-- The first line that `host` prints for a name with an address, and for one that is not found. -/
def firstLine (answer : Text → Option Address) (hostname : Text) : Text :=
  match answer hostname with
  | some ip => hostname ++ ' ' :: "has".toList ++ ' ' :: "address".toList ++ ' ' :: ip.1 ++ ['\n']
  | none => "Host ".toList ++ hostname ++ " not found: 3(NXDOMAIN)\n".toList

/-- From such lines the addresses are read. -/
theorem readings_firstLine (answer : Text → Option Address) :
    readings (firstLine answer) = (resolved answer).map fun a => (a.1, a.2.1) := by
  rw [readings, resolveBasic, resolved, List.map_filterMap, List.map_filterMap]
  refine List.filterMap_congr fun hostname hmem => ?_
  cases hanswer : answer hostname with
  | none =>
    have hresolve : resolveHost (firstLine answer hostname) = some "none".toList := by
      rw [firstLine, hanswer]
      exact resolveHost_not_found hostname
    rw [hresolve]
    rfl
  | some ip =>
    have hresolve : resolveHost (firstLine answer hostname) = some ip.1 := by
      rw [firstLine, hanswer]
      exact resolveHost_found (isBasic_of_mem hmem) ip
    have hne : some ip.1 ≠ some "none".toList := by
      intro heq
      exact not_mem_address (by decide) ip (show 'n' ∈ ip.1 by rw [Option.some.inj heq]; decide)
    rw [hresolve]
    exact congrArg (Option.map fun r : Text × Option Text => (r.1, r.2.getD [])) (if_pos hne)

/-- The update of one host name. -/
def update (content : Text) (r : Reading) : Text := replaceLine content r.1 (some r.2)

/-- A run of updates. -/
theorem updateHosts_eq (host : Text → Text) (hosts : Text) :
    updateHosts host hosts = (readings host).foldl update hosts := by
  have hsame : ∀ (content : Text) (r : Text × Option Text),
      replaceLine content r.1 r.2 = update content (r.1, r.2.getD []) := by
    intro content r
    rw [update, replaceLine, replaceLine, entryLine, entryLine]
    rfl
  rw [updateHosts, readings, List.foldl_map]
  exact congrFun (congrFun (congrArg List.foldl (funext fun content => funext (hsame content))) hosts) _

/-! ## Lines of `sed` -/

/-- The lines are changed one by one. -/
theorem bodies_sedChange {pattern text : Text} (h : '\n' ∉ text) (content : Text) :
    bodies (sedChange pattern text content) =
      (bodies content).map fun body => if breMatch pattern body = true then text else body := by
  have hprinted : bodies (printed text) = [text] := bodies_append_newline_cons h []
  -- of a terminated text every line is changed to a line
  have hclosed : ∀ a : Text, Terminated a → Terminated (sedChange pattern text a) ∧
      bodies (sedChange pattern text a) =
        (bodies a).map fun body => if breMatch pattern body = true then text else body := by
    intro a ha
    have hlines : ∀ l ∈ (lines a).map (fun l => if breMatch pattern (Texts.chomp l) = true then printed text else l),
        IsLine l := by
      intro l hl
      obtain ⟨l', hl', rfl⟩ := List.mem_map.mp hl
      split
      · exact ⟨text, h, rfl⟩
      · exact isLine_of_mem_lines ha hl'
    refine ⟨terminated_flatten hlines, ?_⟩
    rw [bodies, sedChange, lines_flatten_of_isLine hlines, bodies, List.map_map, List.map_map]
    refine List.map_congr_left fun l hl => ?_
    simp only [Function.comp_apply]
    split
    · exact chomp_append_newline h
    · rfl
  by_cases ht : Terminated content
  · exact (hclosed content ht).2
  · obtain ⟨a, l, rfl, ha, hne, hl⟩ := exists_open_line ht
    obtain ⟨hterm, hbodies⟩ := hclosed a ha
    have hopen : sedChange pattern text (a ++ l) =
        sedChange pattern text a ++ if breMatch pattern l = true then printed text else l := by
      have hchomp : Texts.chomp l = l := by
        have hbodies := bodies_of_not_mem hne hl
        rw [bodies, lines_of_not_mem hne hl, List.map_singleton] at hbodies
        exact List.singleton_inj.mp hbodies
      rw [sedChange, lines_append ha, List.map_append, List.flatten_append, lines_of_not_mem hne hl,
        List.map_singleton, List.flatten_singleton, hchomp, sedChange]
    rw [hopen, bodies_append hterm, hbodies, bodies_append ha, List.map_append, bodies_of_not_mem hne hl]
    congr 1
    rw [List.map_singleton]
    split
    · exact hprinted
    · exact bodies_of_not_mem hne hl

/-- A line is added. -/
theorem bodies_sedAppend {text content : Text} (h : '\n' ∉ text) (hne : content ≠ []) :
    bodies (sedAppend text content) = bodies content ++ [text] := by
  rw [sedAppend, if_neg hne]
  split
  · rename_i ht
    rw [bodies_append ht, printed, bodies_append_newline_cons h]
    rfl
  · rename_i ht
    obtain ⟨a, l, rfl, ha, hlne, hl⟩ := exists_open_line ht
    rw [printed, printed, List.append_assoc, List.append_assoc, List.singleton_append, bodies_append ha,
      bodies_append_newline_cons hl, bodies_append_newline_cons h, bodies_append ha, bodies_of_not_mem hlne hl,
      List.append_assoc]
    rfl

/-- Without a match nothing is changed. -/
theorem sedChange_eq_self {pattern text content : Text} (h : ∀ body ∈ bodies content, breMatch pattern body = false) :
    sedChange pattern text content = content := by
  have hsame : (lines content).map (fun l => if breMatch pattern (Texts.chomp l) = true then printed text else l) =
      lines content := by
    refine (List.map_congr_left fun l hl => ?_).trans (List.map_id _)
    rw [h _ (List.mem_map_of_mem hl)]
    rfl
  rw [sedChange, hsame, lines_flatten]

/-! ## Entries -/

/-- The line of a host name. -/
def record (r : Reading) : Text := r.2 ++ ' ' :: r.1

/-- A host name with a word that can be read for it. -/
structure Proper (r : Reading) : Prop where
  basic : r.1 ∈ BASIC_HOSTNAMES
  word : ∀ c ∈ r.2, isSplitSpace c = false
  plain : IsPlain r.2

variable {r : Reading} {rs earlier rest : List Reading}

/-- A character that is none of a basic host name and cannot be in the word. -/
theorem Proper.not_mem_record (h : Proper r) {c : Char} (hname : ((c.isLower || c == '.') && c != 'f') = false)
    (hspace : c ≠ ' ') (hword : c ∉ r.2) : c ∉ record r := by
  rw [record, List.mem_append, List.mem_cons, not_or, not_or]
  exact ⟨hword, hspace, not_mem_of_isBasic (isBasic_of_mem h.basic) hname⟩

/-- White space is not in the word. -/
theorem Proper.not_mem_word (h : Proper r) {c : Char} (hc : isSplitSpace c = true) : c ∉ r.2 := by
  intro hmem
  rw [h.word c hmem] at hc
  cases hc

/-- The entry is one line. -/
theorem Proper.newline_not_mem_record (h : Proper r) : '\n' ∉ record r :=
  h.not_mem_record (by decide) (by decide) (h.not_mem_word (by decide))

/-- The entry has two words, or one where nothing was read. -/
theorem Proper.entry_record (h : Proper r) : entry (record r) = if r.2 = [] then [r.1] else [r.2, r.1] := by
  have hbasic := isBasic_of_mem h.basic
  have hcomment : '#' ∉ record r :=
    h.not_mem_record (by decide) (by decide) fun hmem => h.plain.1 '#' hmem (by decide)
  have hblank : ∀ s : Text, ' ' ∉ s → '\t' ∉ s → ∀ c ∈ s, isBlank c = false := by
    intro s hspace htab c hc
    rw [isBlank, Bool.or_eq_false_iff, beq_eq_false_iff_ne, beq_eq_false_iff_ne]
    exact ⟨fun heq => hspace (heq ▸ hc), fun heq => htab (heq ▸ hc)⟩
  have hname := hblank r.1 (not_mem_of_isBasic hbasic (by decide)) (not_mem_of_isBasic hbasic (by decide))
  have hword := hblank r.2 (h.not_mem_word (by decide)) (h.not_mem_word (by decide))
  rw [entry_of_not_mem hcomment, record]
  split
  · rename_i hnil
    rw [hnil, List.nil_append, words, ← List.nil_append (' ' :: r.1), wordsBy_append_cons [] _ (by decide),
      wordsBy_of_forall hname, if_neg (ne_nil_of_isBasic hbasic)]
    rfl
  · rename_i hne
    exact words_pair hword hname hne (ne_nil_of_isBasic hbasic)

/-- The entry names its host, if there is something in front. -/
theorem Proper.mem_names_record_iff (h : Proper r) {hostname : Text} :
    hostname ∈ names (record r) ↔ hostname = r.1 ∧ r.2 ≠ [] := by
  rw [names, h.entry_record]
  split
  · rename_i hnil
    simp [hnil]
  · rename_i hne
    simp [hne]

/-- The entry begins with what was read. -/
theorem Proper.address_record (h : Proper r) (hne : r.2 ≠ []) : address (record r) = some r.2 := by
  rw [address, h.entry_record, if_neg hne]
  rfl

/-- The entry maps its host to what was read. -/
theorem Proper.maps_record_iff (h : Proper r) {hostname : Text} {ip : Address} :
    Maps (record r) hostname ip.1 ↔ r = (hostname, ip.1) := by
  rw [Maps, h.mem_names_record_iff]
  constructor
  · rintro ⟨haddress, rfl, hne⟩
    rw [h.address_record hne] at haddress
    exact Prod.ext rfl (Option.some.inj haddress)
  · rintro rfl
    exact ⟨h.address_record ip.2.1, rfl, ip.2.1⟩

/-- No entry is marked: there are no angle brackets in it. -/
theorem Proper.breMatch_bracketed_record (h : Proper r) (hostname : Text) :
    breMatch (bracketed hostname) (record r) = false :=
  breMatch_eq_false (by decide) _
    (h.not_mem_record (by decide) (by decide) fun hmem => h.plain.1 '<' hmem (by decide))

/-- A basic host name is found in an entry only in the host name. -/
theorem Proper.breMatch_record (h : Proper r) {hostname : Text} (hhost : hostname ∈ BASIC_HOSTNAMES) :
    breMatch hostname (record r) = breMatch hostname r.1 := h.plain.2 hostname hhost r.1 h.basic

/-- An address is plain. -/
theorem isPlain_address (ip : Address) : IsPlain ip.1 := by
  refine ⟨fun c hc hmem => ?_, fun g hg h _ => ?_⟩
  · have hspecial : ∀ c ∈ ['<', '#', '\x22', '\x27', '\x60', '$', '\\'], ¬ (c.isDigit ∨ c = '.') := by simp
    exact not_mem_address (hspecial c hmem) ip hc
  · -- no basic host name begins as an address does
    have hbasic := isBasic_of_mem hg
    cases g with
    | nil => cases hbasic
    | cons p ps =>
      have hspace : p ≠ ' ' := by
        rintro rfl
        exact not_mem_of_isBasic hbasic (by decide) List.mem_cons_self
      rw [isBasic, Bool.and_eq_true] at hbasic
      have hfirst : p.isDigit = false ∧ p ≠ '.' := by simpa using hbasic.1
      have hfront : p ∉ ip.1 ++ [' '] := by
        rw [List.mem_append, List.mem_singleton, not_or]
        exact ⟨not_mem_address (by simp [hfirst]) ip, hspace⟩
      rw [List.append_cons]
      exact breMatch_append hfirst.2 ps hfront h

/-! ## One update -/

/-- What one update does to the lines of a file that is not empty. -/
theorem bodies_update (h : Proper r) {content : Text} (hne : content ≠ []) :
    bodies (update content r) =
      if (bodies content).any (breMatch r.1) = true then
        (bodies content).map fun body => if breMatch (bracketed r.1) body = true then record r else body
      else bodies content ++ [record r] := by
  rw [update, replaceLine]
  split
  · exact bodies_sedChange h.newline_not_mem_record content
  · exact bodies_sedAppend h.newline_not_mem_record hne

/-! ## A run of updates -/

/-- What becomes of a line: the entry of the first host name that it has in angle brackets. -/
def changed (rs : List Reading) (line : Text) : Text :=
  match rs.find? fun r => breMatch (bracketed r.1) line with
  | some r => record r
  | none => line

/-- The host names that are appended, after some that have been updated before. -/
def missing (ls : List Text) : List Reading → List Reading → List Reading
  | _, [] => []
  | earlier, r :: rest =>
    (if ls.any (fun line => !marked earlier line && breMatch r.1 line) = true then [] else [r]) ++
      missing ls (earlier ++ [r]) rest

/-- The host names of a run of updates: no entry is found by a name that comes later. -/
structure Ordered (rs : List Reading) : Prop where
  proper : ∀ r ∈ rs, Proper r
  later : rs.Pairwise fun r s => breMatch s.1 r.1 = false

/-- A line that is not marked is left. -/
theorem changed_of_not_marked {line : Text} (h : marked rs line = false) : changed rs line = line := by
  have hnone : rs.find? (fun r => breMatch (bracketed r.1) line) = none := by
    rw [List.find?_eq_none]
    intro r hr
    simpa using List.any_eq_false.mp h r hr
  rw [changed, hnone]

/-- A marked line becomes an entry. -/
theorem changed_of_marked {line : Text} (h : marked rs line = true) :
    ∃ earlier r later, rs = earlier ++ r :: later ∧ marked earlier line = false ∧
      breMatch (bracketed r.1) line = true ∧ changed rs line = record r := by
  obtain ⟨s, hs, hmatch⟩ := List.any_eq_true.mp h
  have hsome : (rs.find? fun r => breMatch (bracketed r.1) line).isSome = true :=
    List.find?_isSome.mpr ⟨s, hs, hmatch⟩
  obtain ⟨r, hr⟩ := Option.isSome_iff_exists.mp hsome
  obtain ⟨hfound, earlier, later, hrs, hbefore⟩ := List.find?_eq_some_iff_append.mp hr
  refine ⟨earlier, r, later, hrs, ?_, hfound, by rw [changed, hr]⟩
  rw [marked, List.any_eq_false]
  intro s hs
  simpa using hbefore s hs

/-- The first mark decides what a line becomes. -/
theorem changed_of_first {line : Text} {later : List Reading} (h : marked earlier line = false)
    (hr : breMatch (bracketed r.1) line = true) : changed (earlier ++ r :: later) line = record r := by
  have hfind : (earlier ++ r :: later).find? (fun s => breMatch (bracketed s.1) line) = some r := by
    rw [List.find?_eq_some_iff_append]
    refine ⟨hr, earlier, later, rfl, fun s hs => ?_⟩
    simpa using List.any_eq_false.mp h s hs
  rw [changed, hfind]

/-- One more update changes the lines that are still there. -/
theorem changed_append (hproper : ∀ s ∈ earlier, Proper s) (r : Reading) (line : Text) :
    changed (earlier ++ [r]) line =
      if breMatch (bracketed r.1) (changed earlier line) = true then record r else changed earlier line := by
  by_cases hmarked : marked earlier line = true
  · obtain ⟨front, s, back, rfl, hfirst, hs, hchanged⟩ := changed_of_marked hmarked
    have hentry : breMatch (bracketed r.1) (record s) = false :=
      (hproper s (List.mem_append_right _ List.mem_cons_self)).breMatch_bracketed_record r.1
    rw [hchanged, hentry, List.append_assoc, List.cons_append, changed_of_first hfirst hs]
    rfl
  · rw [Bool.not_eq_true] at hmarked
    rw [changed_of_not_marked hmarked]
    split
    · rename_i hr
      exact changed_of_first hmarked hr
    · rename_i hr
      refine changed_of_not_marked ?_
      rw [marked, List.any_append, List.any_cons, Bool.or_eq_false_iff]
      exact ⟨hmarked, by simpa using hr⟩

/-- A name in angle brackets is found where the marked name is. -/
theorem breMatch_of_bracketed {hostname line : Text} (h : breMatch (bracketed hostname) line = true) :
    breMatch hostname line = true := by
  induction line with
  | nil => cases h
  | cons ch cs ih =>
    rw [breMatch_cons, Bool.or_eq_true] at h ⊢
    obtain h | h := h
    · rw [bracketed, List.cons_append, matchesAt, Bool.and_eq_true] at h
      have hbehind : breMatch hostname cs = true := by
        rw [breMatch, List.any_eq_true]
        exact ⟨cs, (List.mem_tails _ _).mpr (List.suffix_refl cs), matchesAt_of_append h.2⟩
      exact .inr hbehind
    · exact .inr (ih h)

/-- What `grep` finds after some updates. -/
theorem any_updated {ls : List Text} {put : List Reading} (hproper : ∀ s ∈ earlier ++ [r], Proper s)
    (hlater : ∀ s ∈ earlier, breMatch r.1 s.1 = false) (hput : put ⊆ earlier) :
    (ls.map (changed earlier) ++ put.map record).any (breMatch r.1) =
      ls.any fun line => !marked earlier line && breMatch r.1 line := by
  have hrecord : ∀ s ∈ earlier, breMatch r.1 (record s) = false := fun s hs => by
    rw [(hproper s (List.mem_append_left _ hs)).breMatch_record
      (hproper r (List.mem_append_right _ (List.mem_singleton_self r))).basic, hlater s hs]
  have hnone : (put.map record).any (breMatch r.1) = false := by
    rw [List.any_map, List.any_eq_false]
    intro s hs
    rw [Function.comp_apply, hrecord s (hput hs)]
    decide
  rw [List.any_append, hnone, Bool.or_false, List.any_map]
  congr 1
  funext line
  rw [Function.comp_apply]
  by_cases hmarked : marked earlier line = true
  · obtain ⟨front, s, back, hearlier, -, -, hchanged⟩ := changed_of_marked hmarked
    rw [hchanged, hmarked, hrecord s (hearlier ▸ List.mem_append_right _ List.mem_cons_self)]
    rfl
  · rw [Bool.not_eq_true] at hmarked
    rw [changed_of_not_marked hmarked, hmarked]
    rfl

/-- An update leaves lines in the file. -/
theorem update_ne_nil (h : Proper r) {content : Text} (hne : content ≠ []) : update content r ≠ [] := by
  intro hnil
  have hbodies := bodies_update h hne
  rw [hnil] at hbodies
  have hlines : bodies content ≠ [] := fun hmap => lines_ne_nil hne (List.map_eq_nil_iff.mp hmap)
  split at hbodies
  · exact hlines (List.map_eq_nil_iff.mp hbodies.symm)
  · exact List.append_ne_nil_of_left_ne_nil hlines _ hbodies.symm

/-- **One update**, line by line. -/
theorem bodies_update_of_updated {ls : List Text} {put : List Reading} {content : Text} (hne : content ≠ [])
    (hput : put ⊆ earlier) (h : bodies content = ls.map (changed earlier) ++ put.map record)
    (hproper : ∀ s ∈ earlier ++ [r], Proper s) (hlater : ∀ s ∈ earlier, breMatch r.1 s.1 = false) :
    bodies (update content r) =
      ls.map (changed (earlier ++ [r])) ++ (put ++
        if ls.any (fun line => !marked earlier line && breMatch r.1 line) = true then [] else [r]).map record := by
  have hearlier : ∀ s ∈ earlier, Proper s := fun s hs => hproper s (List.mem_append_left _ hs)
  have hr : Proper r := hproper r (List.mem_append_right _ (List.mem_singleton_self r))
  have hany : (ls.map (changed earlier) ++ put.map record).any (breMatch r.1) =
      ls.any fun line => !marked earlier line && breMatch r.1 line := any_updated hproper hlater hput
  rw [bodies_update hr hne, h, hany]
  split
  · -- the entries are left, and the lines become what the next update makes of them
    rw [List.append_nil, List.map_append, List.map_map, List.map_map]
    congr 1
    · refine List.map_congr_left fun line _ => ?_
      rw [changed_append hearlier]
      rfl
    · refine List.map_congr_left fun s hs => ?_
      rw [Function.comp_apply, (hearlier s (hput hs)).breMatch_bracketed_record]
      rfl
  · rename_i hno
    rw [List.map_append, ← List.append_assoc]
    congr 2
    refine List.map_congr_left fun line hline => ?_
    rw [changed_append hearlier, if_neg]
    intro hmatch
    rw [← hany] at hno
    refine hno (List.any_eq_true.mpr ⟨changed earlier line, ?_, breMatch_of_bracketed hmatch⟩)
    exact List.mem_append_left _ (List.mem_map_of_mem hline)

/-- **A run of updates, line by line**: each marked line has become an entry, and what `grep` did not find is
appended. -/
theorem bodies_foldl {ls : List Text} {put : List Reading} {content : Text} (hne : content ≠ [])
    (hput : put ⊆ earlier) (h : bodies content = ls.map (changed earlier) ++ put.map record)
    (hordered : Ordered (earlier ++ rest)) :
    bodies (rest.foldl update content) =
      ls.map (changed (earlier ++ rest)) ++ (put ++ missing ls earlier rest).map record := by
  induction rest generalizing earlier put content with
  | nil => rw [missing, List.append_nil, List.append_nil, List.foldl_nil, h]
  | cons r rest ih =>
    have hsplit : earlier ++ r :: rest = earlier ++ [r] ++ rest := List.append_cons earlier r rest
    rw [hsplit] at hordered ⊢
    have hproper : ∀ s ∈ earlier ++ [r], Proper s := fun s hs =>
      hordered.proper s (List.mem_append_left _ hs)
    have hlater : ∀ s ∈ earlier, breMatch r.1 s.1 = false := fun s hs =>
      (List.pairwise_append.mp (List.pairwise_append.mp hordered.later).1).2.2 s hs r (List.mem_singleton_self r)
    have hstep := bodies_update_of_updated hne hput h hproper hlater
    rw [List.foldl_cons, missing, ← List.append_assoc put]
    refine ih (update_ne_nil (hproper r (List.mem_append_right _ (List.mem_singleton_self r))) hne) ?_ hstep hordered
    intro s hs
    obtain hs | hs := List.mem_append.mp hs
    · exact List.mem_append_left _ (hput hs)
    · split at hs
      · cases hs
      · exact List.mem_append_right _ hs

/-- The host names that are appended: `grep` finds them in no line that is still there. -/
theorem mem_missing_iff {ls : List Text} :
    r ∈ missing ls earlier rest ↔ ∃ front later, rest = front ++ r :: later ∧
      ∀ line ∈ ls, breMatch r.1 line = true → marked (earlier ++ front) line = true := by
  induction rest generalizing earlier with
  | nil => simp [missing]
  | cons s rest ih =>
    have hhead : r ∈ (if ls.any (fun line => !marked earlier line && breMatch s.1 line) = true then [] else [s]) ↔
        r = s ∧ ∀ line ∈ ls, breMatch s.1 line = true → marked earlier line = true := by
      split
      · rename_i hany
        refine iff_of_false List.not_mem_nil fun h => ?_
        obtain ⟨line, hline, hmatch⟩ := List.any_eq_true.mp hany
        rw [Bool.and_eq_true, Bool.not_eq_true'] at hmatch
        rw [h.2 line hline hmatch.2] at hmatch
        cases hmatch.1
      · rename_i hany
        rw [List.mem_singleton]
        refine (and_iff_left fun line hline hmatch => ?_).symm
        by_contra hmarked
        exact hany (List.any_eq_true.mpr ⟨line, hline, by simp [hmarked, hmatch]⟩)
    rw [missing, List.mem_append, hhead, ih]
    constructor
    · rintro (⟨rfl, h⟩ | ⟨front, later, rfl, h⟩)
      · exact ⟨[], rest, rfl, by rwa [List.append_nil]⟩
      · refine ⟨s :: front, later, rfl, ?_⟩
        rwa [List.append_cons]
    · rintro ⟨front, later, hsplit, h⟩
      cases front with
      | nil =>
        obtain ⟨rfl, rfl⟩ := List.cons_eq_cons.mp hsplit
        rw [List.append_nil] at h
        exact .inl ⟨rfl, h⟩
      | cons t front =>
        obtain ⟨rfl, rfl⟩ := List.cons_eq_cons.mp hsplit
        rw [List.append_cons] at h
        exact .inr ⟨front, later, rfl, h⟩

/-- What is put is among what is read. -/
theorem Put.mem {ls : List Text} (h : Put rs ls r) : r ∈ rs := by
  obtain ⟨earlier, later, rfl, -⟩ := h
  exact List.mem_append_right _ List.mem_cons_self

/-- A run leaves lines in the file. -/
theorem foldl_update_ne_nil (hproper : ∀ r ∈ rs, Proper r) {content : Text} (hne : content ≠ []) :
    rs.foldl update content ≠ [] := by
  induction rs generalizing content with
  | nil => exact hne
  | cons r rs ih =>
    exact ih (fun s hs => hproper s (List.mem_cons_of_mem _ hs)) (update_ne_nil (hproper r List.mem_cons_self) hne)

/-- How many lines of a kind there are when some lines have been replaced: the marked ones were none of the kind. -/
theorem countP_changed {other : Text → Bool} {ls : List Text}
    (h : ∀ line ∈ ls, marked rs line = true → other line = false) :
    ls.countP (other ∘ changed rs) =
      ls.countP other + ls.countP fun line => marked rs line && other (changed rs line) := by
  induction ls with
  | nil => rfl
  | cons line ls ih =>
    have hrest := ih fun l hl => h l (List.mem_cons_of_mem _ hl)
    rw [List.countP_cons, List.countP_cons, List.countP_cons, hrest, Function.comp_apply]
    cases hm : marked rs line with
    | true =>
      rw [h line List.mem_cons_self hm, Bool.true_and, if_neg Bool.false_ne_true]
      omega
    | false =>
      rw [changed_of_not_marked hm, Bool.false_and, if_neg Bool.false_ne_true]
      omega

section
variable {hosts : Text} (hordered : Ordered rs) (hne : hosts ≠ [])
include hordered hne

/-- The lines after a run from the start. -/
theorem bodies_run :
    bodies (rs.foldl update hosts) =
      (bodies hosts).map (changed rs) ++ (missing (bodies hosts) [] rs).map record := by
  have hstart : bodies hosts = (bodies hosts).map (changed []) ++ ([] : List Reading).map record := by
    have hid : changed [] = id := by
      funext line
      rfl
    rw [hid, List.map_id, List.map_nil, List.append_nil]
  have hrun := @bodies_foldl [] rs (bodies hosts) [] hosts hne (List.nil_subset _) hstart hordered
  rwa [List.nil_append, List.nil_append] at hrun

/-- **The lines that a run leaves**: those that are not marked, and entries. -/
theorem mem_bodies_run_iff {line : Text} :
    line ∈ bodies (rs.foldl update hosts) ↔
      (line ∈ bodies hosts ∧ marked rs line = false) ∨ ∃ r, Put rs (bodies hosts) r ∧ line = record r := by
  rw [bodies_run hordered hne, List.mem_append, List.mem_map, List.mem_map]
  constructor
  · rintro (⟨old, hold, rfl⟩ | ⟨r, hr, rfl⟩)
    · by_cases hmarked : marked rs old = true
      · obtain ⟨earlier, r, later, hrs, hfirst, hmatch, hchanged⟩ := changed_of_marked hmarked
        exact .inr ⟨r, ⟨earlier, later, hrs, .inl ⟨old, hold, hfirst, hmatch⟩⟩, hchanged⟩
      · rw [Bool.not_eq_true] at hmarked
        rw [changed_of_not_marked hmarked]
        exact .inl ⟨hold, hmarked⟩
    · obtain ⟨front, later, hrs, hno⟩ := mem_missing_iff.mp hr
      exact .inr ⟨r, ⟨front, later, hrs, .inr hno⟩, rfl⟩
  · rintro (⟨hold, hmarked⟩ | ⟨r, ⟨earlier, later, hrs, hput⟩, rfl⟩)
    · exact .inl ⟨line, hold, changed_of_not_marked hmarked⟩
    · obtain ⟨old, hold, hfirst, hmatch⟩ | hno := hput
      · exact .inl ⟨old, hold, hrs ▸ changed_of_first hfirst hmatch⟩
      · exact .inr ⟨r, mem_missing_iff.mpr ⟨earlier, later, hrs, hno⟩, rfl⟩

/-- Every host name has its line after a run, when it is put or was there. -/
theorem mapped_run_iff {resolved : List (Text × Address)} :
    (∀ a ∈ resolved, ∃ line ∈ bodies (rs.foldl update hosts), Maps line a.1 a.2.1) ↔
      ∀ a ∈ resolved, Put rs (bodies hosts) (a.1, a.2.1) ∨
        ∃ line ∈ bodies hosts, marked rs line = false ∧ Maps line a.1 a.2.1 := by
  refine forall₂_congr fun a _ => ?_
  constructor
  · rintro ⟨line, hline, hmaps⟩
    obtain ⟨hold, hmarked⟩ | ⟨r, hput, rfl⟩ := (mem_bodies_run_iff hordered hne).mp hline
    · exact .inr ⟨line, hold, hmarked, hmaps⟩
    · rw [(hordered.proper r hput.mem).maps_record_iff] at hmaps
      exact .inl (hmaps ▸ hput)
  · rintro (hput | ⟨line, hold, hmarked, hmaps⟩)
    · exact ⟨_, (mem_bodies_run_iff hordered hne).mpr (.inr ⟨_, hput, rfl⟩),
        (hordered.proper _ hput.mem).maps_record_iff.mpr rfl⟩
    · exact ⟨line, (mem_bodies_run_iff hordered hne).mpr (.inl ⟨hold, hmarked⟩), hmaps⟩

/-- No host name has another address after a run, when none had in a line that stays, and none is put with one. -/
theorem unique_run_iff {resolved : List (Text × Address)} :
    (∀ a ∈ resolved, ∀ line ∈ bodies (rs.foldl update hosts), a.1 ∈ names line → address line = some a.2.1) ↔
      (∀ a ∈ resolved, ∀ line ∈ bodies hosts, marked rs line = false → a.1 ∈ names line →
        address line = some a.2.1) ∧
      ∀ a ∈ resolved, ∀ r, Put rs (bodies hosts) r → r.1 = a.1 → r.2 ≠ [] → r.2 = a.2.1 := by
  rw [← forall₂_and]
  refine forall₂_congr fun a _ => ?_
  constructor
  · intro h
    refine ⟨fun line hold hmarked => h line ((mem_bodies_run_iff hordered hne).mpr (.inl ⟨hold, hmarked⟩)), ?_⟩
    intro r hput hname hword
    have hproper := hordered.proper r hput.mem
    have haddress := h (record r) ((mem_bodies_run_iff hordered hne).mpr (.inr ⟨r, hput, rfl⟩))
      (hproper.mem_names_record_iff.mpr ⟨hname.symm, hword⟩)
    rw [hproper.address_record hword] at haddress
    exact Option.some.inj haddress
  · rintro ⟨hstay, hput⟩ line hline hname
    obtain ⟨hold, hmarked⟩ | ⟨r, hr, rfl⟩ := (mem_bodies_run_iff hordered hne).mp hline
    · exact hstay line hold hmarked hname
    · have hproper := hordered.proper r hr.mem
      obtain ⟨heq, hword⟩ := hproper.mem_names_record_iff.mp hname
      rw [hproper.address_record hword, hput r hr heq.symm hword]

/-- When the other lines are left by a run, none of them is marked. -/
theorem other_of_marked {other : Text → Bool}
    (h : (bodies (rs.foldl update hosts)).filter other = (bodies hosts).filter other) :
    ∀ line ∈ bodies hosts, marked rs line = true → other line = false := by
  intro line hline hmarked
  by_contra hother
  rw [Bool.not_eq_false] at hother
  have hmem : line ∈ (bodies hosts).filter other := List.mem_filter.mpr ⟨hline, hother⟩
  rw [← h] at hmem
  obtain ⟨-, hnot⟩ | ⟨r, hput, rfl⟩ :=
    (mem_bodies_run_iff hordered hne).mp (List.mem_of_mem_filter hmem)
  · rw [hmarked] at hnot
    cases hnot
  · -- an entry is not marked
    obtain ⟨s, -, hs⟩ := List.any_eq_true.mp hmarked
    rw [(hordered.proper r hput.mem).breMatch_bracketed_record s.1] at hs
    cases hs

/-- Nor is an entry that is put one of them, as there would be more of them than before. -/
theorem other_of_put {other : Text → Bool}
    (h : (bodies (rs.foldl update hosts)).filter other = (bodies hosts).filter other) {r : Reading}
    (hput : Put rs (bodies hosts) r) : other (record r) = false := by
  obtain ⟨earlier, later, hrs, hput⟩ := hput
  by_contra hother
  rw [Bool.not_eq_false] at hother
  have hlength := congrArg List.length h
  rw [bodies_run hordered hne, List.filter_append, List.length_append, ← List.countP_eq_length_filter,
    ← List.countP_eq_length_filter, ← List.countP_eq_length_filter, List.countP_map,
    countP_changed (other_of_marked hordered hne h)] at hlength
  obtain ⟨line, hline, hfirst, hmatch⟩ | hno := hput
  · have hreplaced : 0 < (bodies hosts).countP fun line => marked rs line && other (changed rs line) := by
      refine List.countP_pos_iff.mpr ⟨line, hline, ?_⟩
      rw [hrs, changed_of_first hfirst hmatch, hother, Bool.and_true, marked, List.any_append, List.any_cons,
        hmatch, Bool.true_or, Bool.or_true]
    omega
  · have hmissing : 0 < ((missing (bodies hosts) [] rs).map record).countP other := by
      refine List.countP_pos_iff.mpr ⟨record r, List.mem_map_of_mem ?_, hother⟩
      exact mem_missing_iff.mpr ⟨earlier, later, hrs, hno⟩
    omega

/-- A run leaves the lines of which none is marked and none is put. -/
theorem filter_run {other : Text → Bool}
    (hmarked : ∀ line ∈ bodies hosts, marked rs line = true → other line = false)
    (hput : ∀ r, Put rs (bodies hosts) r → other (record r) = false) :
    (bodies (rs.foldl update hosts)).filter other = (bodies hosts).filter other := by
  have hmissing : ((missing (bodies hosts) [] rs).map record).filter other = [] := by
    refine List.filter_eq_nil_iff.mpr fun line hline => ?_
    obtain ⟨r, hr, rfl⟩ := List.mem_map.mp hline
    obtain ⟨front, later, hrs, hno⟩ := mem_missing_iff.mp hr
    rw [hput r ⟨front, later, hrs, .inr hno⟩]
    exact Bool.false_ne_true
  rw [bodies_run hordered hne, List.filter_append, hmissing, List.append_nil, List.filter_map]
  -- a line that is replaced was none of them and is none of them
  have hsame : (bodies hosts).filter (other ∘ changed rs) = (bodies hosts).filter other := by
    refine List.filter_congr fun line hline => ?_
    rw [Function.comp_apply]
    by_cases hm : marked rs line = true
    · obtain ⟨earlier, r, later, hrs, hfirst, hmatch, heq⟩ := changed_of_marked hm
      rw [heq, hmarked line hline hm, hput r ⟨earlier, later, hrs, .inl ⟨line, hline, hfirst, hmatch⟩⟩]
    · rw [changed_of_not_marked (by simpa using hm)]
  rw [hsame]
  refine (List.map_congr_left fun line hline => ?_).trans (List.map_id _)
  obtain ⟨hmem, hother⟩ := List.mem_filter.mp hline
  refine changed_of_not_marked ?_
  by_contra hm
  rw [hmarked line hmem (by simpa using hm)] at hother
  cases hother

/-- **The other lines are left by a run** exactly when no mark is in one of them and nothing that is put is one. -/
theorem filter_run_iff {other : Text → Bool} :
    (bodies (rs.foldl update hosts)).filter other = (bodies hosts).filter other ↔
      (∀ line ∈ bodies hosts, marked rs line = true → other line = false) ∧
        ∀ r, Put rs (bodies hosts) r → other (record r) = false :=
  ⟨fun h => ⟨other_of_marked hordered hne h, fun _ => other_of_put hordered hne h⟩,
    fun ⟨hmarked, hput⟩ => filter_run hordered hne hmarked hput⟩

/-- What a name is found in after a run. -/
theorem found_run_iff (hr : r ∈ rs) :
    (∃ line ∈ bodies (rs.foldl update hosts), breMatch r.1 line = true) ↔
      (∃ line ∈ bodies hosts, marked rs line = false ∧ breMatch r.1 line = true) ∨
        ∃ s, Put rs (bodies hosts) s ∧ breMatch r.1 s.1 = true := by
  have hbasic := (hordered.proper r hr).basic
  constructor
  · rintro ⟨line, hline, hmatch⟩
    obtain ⟨hold, hmarked⟩ | ⟨s, hput, rfl⟩ := (mem_bodies_run_iff hordered hne).mp hline
    · exact .inl ⟨line, hold, hmarked, hmatch⟩
    · rw [(hordered.proper s hput.mem).breMatch_record hbasic] at hmatch
      exact .inr ⟨s, hput, hmatch⟩
  · rintro (⟨line, hold, hmarked, hmatch⟩ | ⟨s, hput, hmatch⟩)
    · exact ⟨line, (mem_bodies_run_iff hordered hne).mpr (.inl ⟨hold, hmarked⟩), hmatch⟩
    · refine ⟨record s, (mem_bodies_run_iff hordered hne).mpr (.inr ⟨s, hput, rfl⟩), ?_⟩
      rwa [(hordered.proper s hput.mem).breMatch_record hbasic]

/-! ## A second run -/

/-- **A second run changes nothing** exactly when every name is found after the first one. -/
theorem twice_iff :
    rs.foldl update (rs.foldl update hosts) = rs.foldl update hosts ↔
      ∀ r ∈ rs, ∃ line ∈ bodies (rs.foldl update hosts), breMatch r.1 line = true := by
  -- no line is marked any more
  have hmarked : ∀ r ∈ rs, ∀ line ∈ bodies (rs.foldl update hosts), breMatch (bracketed r.1) line = false := by
    intro r hr line hline
    obtain ⟨-, hmarked⟩ | ⟨s, hput, rfl⟩ := (mem_bodies_run_iff hordered hne).mp hline
    · simpa using List.any_eq_false.mp hmarked r hr
    · exact (hordered.proper s hput.mem).breMatch_bracketed_record r.1
  constructor
  · intro heq r hr
    have hbodies := bodies_run hordered (foldl_update_ne_nil hordered.proper hne)
    have hlength := congrArg List.length hbodies
    rw [heq, List.length_append, List.length_map, List.length_map] at hlength
    have hnone : missing (bodies (rs.foldl update hosts)) [] rs = [] := List.eq_nil_of_length_eq_zero (by omega)
    by_contra hfound
    obtain ⟨front, later, hrs⟩ := List.append_of_mem hr
    have hmem : r ∈ missing (bodies (rs.foldl update hosts)) [] rs :=
      mem_missing_iff.mpr ⟨front, later, hrs, fun line hline hmatch => absurd ⟨line, hline, hmatch⟩ hfound⟩
    rw [hnone] at hmem
    cases hmem
  · intro hfound
    -- step by step the file stays as it is
    have hsteps : ∀ part : List Reading, part ⊆ rs → part.foldl update (rs.foldl update hosts) =
        rs.foldl update hosts := by
      intro part hpart
      induction part with
      | nil => rfl
      | cons r part ih =>
        have hr := hpart List.mem_cons_self
        have hany := List.any_eq_true.mpr (hfound r hr)
        have hupdate : update (rs.foldl update hosts) r = rs.foldl update hosts := by
          rw [update, replaceLine, if_pos hany]
          exact sedChange_eq_self (hmarked r hr)
        rw [List.foldl_cons, hupdate]
        exact ih fun s hs => hpart (List.mem_cons_of_mem _ hs)
    exact hsteps rs (List.Subset.refl rs)

end

/-! ## The five host names -/

/-- What is read is a word. -/
theorem word_of_resolveHost {result w : Text} (h : resolveHost result = some w) : ∀ c ∈ w, isSplitSpace c = false := by
  unfold resolveHost at h
  split at h
  · have hnone : ∀ c ∈ "none".toList, isSplitSpace c = false := by simp [isSplitSpace]
    exact Option.some.inj h ▸ hnone
  · exact (forall_of_mem_wordsBy (List.mem_of_getElem? h)).2

/-- The host names come in an order in which none is found in an entry before. -/
theorem ordered_readings {host : Text → Text} (hplain : Plain host) : Ordered (readings host) := by
  have hpairs : BASIC_HOSTNAMES.Pairwise fun g h => breMatch h g = false := by decide +kernel
  have hread : ∀ r ∈ readings host, r.1 ∈ BASIC_HOSTNAMES ∧ ∀ c ∈ r.2, isSplitSpace c = false := by
    intro r hr
    obtain ⟨x, hx, rfl⟩ := List.mem_map.mp hr
    obtain ⟨hostname, hhost, hsome⟩ := List.mem_filterMap.mp hx
    obtain ⟨-, heq⟩ := Option.ite_none_right_eq_some.mp hsome
    cases heq
    refine ⟨hhost, fun c hc => ?_⟩
    cases hword : resolveHost (host hostname) with
    | none =>
      rw [hword] at hc
      cases hc
    | some w =>
      rw [hword] at hc
      exact word_of_resolveHost hword c hc
  refine ⟨fun r hr => ⟨(hread r hr).1, (hread r hr).2, hplain r hr⟩, ?_⟩
  rw [readings, List.pairwise_map, resolveBasic, List.pairwise_filterMap]
  refine hpairs.imp fun hno r hr s hs => ?_
  obtain ⟨-, heq⟩ := Option.ite_none_right_eq_some.mp hr
  obtain ⟨-, heq'⟩ := Option.ite_none_right_eq_some.mp hs
  cases heq
  cases heq'
  exact hno

/-- A host name is resolved to one address. -/
theorem resolved_functional {answer : Text → Option Address} {a b : Text × Address} (ha : a ∈ resolved answer)
    (hb : b ∈ resolved answer) (h : a.1 = b.1) : a = b := by
  have hanswer : ∀ a ∈ resolved answer, answer a.1 = some a.2 := by
    intro a ha
    obtain ⟨hostname, -, hsome⟩ := List.mem_filterMap.mp ha
    obtain ⟨ip, hip, rfl⟩ := Option.map_eq_some_iff.mp hsome
    exact hip
  have hsame : some a.2 = some b.2 := by rw [← hanswer a ha, h, hanswer b hb]
  exact Prod.ext h (Option.some.inj hsame)

/-- A file in which none of the names is found is made current, from their addresses. -/
theorem ready_of_absent {resolved : List (Text × Address)} {hosts : Text}
    (h : ∀ a ∈ resolved, ∀ line ∈ bodies hosts, breMatch a.1 line = false) :
    Ready (resolved.map fun a => (a.1, a.2.1)) resolved hosts := by
  have hput : ∀ a ∈ resolved, Put (resolved.map fun a => (a.1, a.2.1)) (bodies hosts) (a.1, a.2.1) := by
    intro a ha
    obtain ⟨earlier, later, hrs⟩ := List.append_of_mem (List.mem_map_of_mem (f := fun a => (a.1, a.2.1)) ha)
    refine ⟨earlier, later, hrs, .inr fun line hline hmatch => ?_⟩
    rw [h a ha line hline] at hmatch
    cases hmatch
  refine ⟨fun a ha => .inl (hput a ha), fun a ha line hline _ hname => ?_, fun line hline hmarked => ?_,
    fun r hr => ?_, fun r hr => .inr ?_⟩
  · have hfound := breMatch_of_isInfix (isInfix_of_mem_names hname)
    rw [h a ha line hline] at hfound
    cases hfound
  · obtain ⟨r, hr, hmatch⟩ := List.any_eq_true.mp hmarked
    obtain ⟨a, ha, rfl⟩ := List.mem_map.mp hr
    have hfound := breMatch_of_bracketed hmatch
    rw [h a ha line hline] at hfound
    cases hfound
  · obtain ⟨a, ha, rfl⟩ := List.mem_map.mp hr.mem
    exact ⟨a, ha, rfl⟩
  · obtain ⟨a, ha, rfl⟩ := List.mem_map.mp hr
    exact ⟨(a.1, a.2.1), hput a ha, breMatch_of_isInfix (List.infix_refl _)⟩

/-- **When an update makes the file current**, for every file, all that the resolver has and all that `host`
prints. -/
theorem current_iff (host : Text → Text) (answer : Text → Option Address) (hplain : Plain host) {hosts : Text}
    (hne : hosts ≠ []) :
    (Current (resolved answer) hosts (updateHosts host hosts) ∧
      updateHosts host (updateHosts host hosts) = updateHosts host hosts) ↔
      Ready (readings host) (resolved answer) hosts := by
  have hordered := ordered_readings hplain
  rw [updateHosts_eq, updateHosts_eq, twice_iff hordered hne]
  have hentry : ∀ r, Put (readings host) (bodies hosts) r →
      (((resolved answer).all fun a => decide (a.1 ∉ names (record r))) = false ↔
        ∃ a ∈ resolved answer, a.1 = r.1 ∧ r.2 ≠ []) := by
    intro r hput
    have hproper := hordered.proper r hput.mem
    simp only [List.all_eq_false, decide_eq_true_eq, not_not, hproper.mem_names_record_iff]
  constructor
  · rintro ⟨h, hfound⟩
    obtain ⟨hstay, hword⟩ := (unique_run_iff hordered hne).mp h.unique
    obtain ⟨hmarked, hput⟩ := (filter_run_iff hordered hne).mp h.others
    refine ⟨(mapped_run_iff hordered hne).mp h.mapped, hstay, fun line hline hm => ?_, fun r hr => ?_,
      fun r hr => (found_run_iff hordered hne hr).mp (hfound r hr)⟩
    · simpa using hmarked line hline hm
    · obtain ⟨a, ha, hname, hne⟩ := (hentry r hr).mp (hput r hr)
      exact ⟨a, ha, Prod.ext hname.symm (hword a ha r hr hname.symm hne)⟩
  · intro h
    refine ⟨⟨(mapped_run_iff hordered hne).mpr h.mapped, (unique_run_iff hordered hne).mpr ⟨h.unique, ?_⟩,
      (filter_run_iff hordered hne).mpr ⟨fun line hline hm => ?_, fun r hr => ?_⟩⟩,
      fun r hr => (found_run_iff hordered hne hr).mpr (h.settled r hr)⟩
    · intro a ha r hput hname _
      obtain ⟨b, hb, rfl⟩ := h.told r hput
      rw [resolved_functional hb ha hname]
    · simpa using h.named line hline hm
    · obtain ⟨a, ha, rfl⟩ := h.told r hr
      exact (hentry _ hr).mpr ⟨a, ha, rfl, a.2.2.1⟩

/-- All names have one address. -/
def always (ip : Address) : Text → Option Address := fun _ => some ip

/-- What `host` prints first for a name that is an alias. -/
def aliasLine (hostname : Text) : Text := hostname ++ " is an alias for lb.galacticexchange.io.\n".toList

/-- The first update of a machine. -/
theorem current_first :
    let answer := always ⟨"10.0.0.2".toList, by decide⟩
    let hosts := "127.0.0.1 localhost\n".toList
    Current (resolved answer) hosts (updateHosts (firstLine answer) hosts) ∧
      updateHosts (firstLine answer) (updateHosts (firstLine answer) hosts) =
        updateHosts (firstLine answer) hosts := by
  intro answer hosts
  have hplain : Plain (firstLine answer) := by
    intro r hr
    rw [readings_firstLine] at hr
    obtain ⟨a, -, rfl⟩ := List.mem_map.mp hr
    exact isPlain_address a.2
  refine (current_iff _ _ hplain (by decide)).mpr ?_
  rw [readings_firstLine]
  exact ready_of_absent (by decide +kernel)

/-- **A new address is not written**: the line is found, and not replaced. For an alias the word `alias` is written in
place of an address. -/
theorem old_address_stays :
    let answer := always ⟨"10.0.0.2".toList, by decide⟩
    let hosts := "10.0.0.1 api.galacticexchange.io\n".toList
    let fresh := "127.0.0.1 localhost\n".toList
    ¬ Current (resolved answer) hosts (updateHosts (firstLine answer) hosts) ∧
      "alias api.galacticexchange.io".toList ∈ bodies (updateHosts aliasLine fresh) ∧
      ¬ Current (resolved answer) fresh (updateHosts aliasLine fresh) := by
  intro answer hosts fresh
  have hresolved : ("api.galacticexchange.io".toList, ⟨"10.0.0.2".toList, by decide⟩) ∈ resolved answer := by
    decide +kernel
  have hold : "10.0.0.1 api.galacticexchange.io".toList ∈ bodies (updateHosts (firstLine answer) hosts) := by
    decide +kernel
  have halias : "alias api.galacticexchange.io".toList ∈ bodies (updateHosts aliasLine fresh) := by
    decide +kernel
  refine ⟨fun h => ?_, halias, fun h => ?_⟩
  · have haddress := h.unique _ hresolved _ hold (by decide +kernel)
    revert haddress
    decide +kernel
  · have haddress := h.unique _ hresolved _ halias (by decide +kernel)
    revert haddress
    decide +kernel

end GexCloud.GexResolve
