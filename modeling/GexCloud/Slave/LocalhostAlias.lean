import GexCloud.Slave.Substitution
import GexCloud.Support.WordMaps

/-! # The alias `localhost` of a node

The first of the two substitutions with which a machine gets a new name: `s/127.0.0.1 localhost/127.0.0.1 …/g`.

* `substituteLocalhost` — what it does to a line; `localhostLine` — what it is for.
* `Entry` — a place of a line that it changes.
* `AliasAlone` — the lines in which these places are the aliases.
* **`substituteLocalhost_eq_iff`** — they are those that it changes as it should. -/

namespace GexCloud.Slave

open Texts Avahi Hosts

/-! ## The substitution and its purpose -/

/-- The address of `localhost`. -/
def loopback : Text := "127.0.0.1".toList

/-- The alias. -/
def localhost : Text := "localhost".toList

/-- The first substitution, in a line. -/
def substituteLocalhost (node : Text) (line : Text) : Text :=
  substitute "127.0.0.1 localhost".toList ("127.0.0.1 ".toList ++ node) 0 line

/-- The alias is renamed. -/
def renameAlias (node name : Text) : Text := if name = localhost then node else name

/-- A name in a line: the alias is renamed in a line of `127.0.0.1`. -/
def newAlias (node line name : Text) : Text :=
  if (words line).head? = some loopback then renameAlias node name else name

/-- **What the first substitution is for**: in a line of `127.0.0.1` the name `localhost` becomes that of the node. -/
def localhostLine (node line : Text) : Text := mapNames isBlank (newAlias node line) line

/-- What looks like the address to the pattern, in which a dot stands for any character. -/
def IsLoopback (a : Text) : Prop := a.length = loopback.length ∧ matchesAt loopback a = true

/-- What the substitution finds, and what is behind it. -/
def entry (a t : Text) : Text := a ++ ' ' :: (localhost ++ t)

/-- **The lines in which the aliases are found, and nothing else**: what is found is the entry itself, and, unless
the node is called `localhost`, it is in a line of `127.0.0.1` and ends there; and each alias in such a line is
behind the address and a space. -/
structure AliasAlone (node line : Text) : Prop where
  entries : ∀ b a t, line = b ++ entry a t → IsLoopback a →
    a = loopback ∧ (node = localhost ∨ ((words line).head? = some loopback ∧ Apart isBlank t))
  aliases : node = localhost ∨ ((words line).head? = some loopback →
    ∀ b c t, line = b ++ c :: (localhost ++ t) → isBlank c = true → Apart isBlank t → c = ' ' ∧ loopback <:+ b)

variable {node line a b s t u v w : Text} {c : Char}

/-! ## Entries -/

/-- What `sed` looks for is an address, a blank and the alias. -/
theorem entry_eq : "127.0.0.1 localhost".toList = entry loopback [] := by decide

/-- It is not empty. -/
theorem ne_nil_entry : entry loopback [] ≠ [] := by decide

/-- The blank between them is one. -/
theorem isBlank_space : isBlank ' ' = true := rfl

/-- The address is one word. -/
theorem solid_loopback : Solid isBlank loopback := forall_of_all (by decide)

/-- So is the alias. -/
theorem solid_localhost : Solid isBlank localhost := forall_of_all (by decide)

/-- The address stands for itself. -/
theorem isLoopback_loopback : IsLoopback loopback := ⟨rfl, by decide⟩

/-- The command is a substitution, in which each dot stands for any character. -/
theorem substituteLocalhost_eq (node line : Text) :
    substituteLocalhost node line = substitute (entry loopback []) (loopback ++ ' ' :: node) 0 line := by
  have hreplacement : "127.0.0.1 ".toList = loopback ++ [' '] := by decide
  rw [substituteLocalhost, entry_eq, hreplacement, List.append_assoc, List.singleton_append]

/-- **A match is an entry.** -/
theorem matchesAt_entry_iff : matchesAt (entry loopback []) line = true ↔ ∃ a t, line = entry a t ∧ IsLoopback a := by
  have hdot : '.' ∉ ' ' :: (localhost ++ []) := by decide
  rw [entry, matchesAt_append_iff]
  constructor
  · rintro ⟨x, y, rfl, hlength, hx, hy⟩
    obtain ⟨t, rfl⟩ := isPrefix_of_matchesAt hdot hy
    exact ⟨x, t, by simp [entry], hlength, hx⟩
  · rintro ⟨x, t, rfl, hlength, hx⟩
    refine ⟨x, _, rfl, hlength, hx, ?_⟩
    have hy := matchesAt_append (' ' :: (localhost ++ [])) t
    rwa [List.append_nil, List.cons_append] at hy

/-- All that is found is of one length. -/
theorem length_entry (h : IsLoopback a) : (entry a []).length = (entry loopback []).length := by
  rw [entry, List.length_append, h.1, entry, List.length_append]

/-- What follows an entry can be taken as part of it. -/
theorem entry_append (a t u : Text) : entry a t ++ u = entry a (t ++ u) := by simp [entry]

/-- An entry and what follows it. -/
theorem entry_nil_append (a t : Text) : entry a [] ++ t = entry a t := entry_append a [] t

/-- A match ends with the alias. -/
theorem eq_nil_of_length_entry (h : IsLoopback a) (hlength : (entry a t).length = (entry loopback []).length) :
    t = [] := by
  rw [← entry_nil_append, List.length_append, length_entry h] at hlength
  exact List.length_eq_zero_iff.mp (by omega)

/-- No entry starts here. -/
def NoEntry (line : Text) : Prop := ∀ a t, line = entry a t → ¬ IsLoopback a

/-- Where nothing is found, there is no entry. -/
theorem noEntry_iff : NoEntry line ↔ matchesAt (entry loopback []) line = false := by
  rw [← Bool.not_eq_true, matchesAt_entry_iff]
  exact ⟨fun h ⟨a, t, hline, ha⟩ => h a t hline ha, fun h a t hline ha => h ⟨a, t, hline, ha⟩⟩

/-- An entry is replaced. -/
theorem substituteLocalhost_entry (h : IsLoopback a) (t : Text) :
    substituteLocalhost node (entry a t) = loopback ++ ' ' :: (node ++ substituteLocalhost node t) := by
  have hmatch : matchesAt (entry loopback []) (entry a []) = true := matchesAt_entry_iff.mpr ⟨a, [], rfl, h⟩
  rw [substituteLocalhost_eq, ← entry_nil_append a t, substitute_hit ne_nil_entry (length_entry h) hmatch,
    substituteLocalhost_eq, List.append_assoc, List.cons_append]

/-- Where no entry starts, the character is kept. -/
theorem substituteLocalhost_cons (h : NoEntry (c :: t)) :
    substituteLocalhost node (c :: t) = c :: substituteLocalhost node t := by
  rw [substituteLocalhost_eq, substitute_miss (noEntry_iff.mp h), substituteLocalhost_eq]

/-- **A line is gone through** entry by entry. -/
theorem entryInduction {motive : Text → Prop} (nil : motive [])
    (hit : ∀ a t, IsLoopback a → motive t → motive (entry a t))
    (miss : ∀ c t, NoEntry (c :: t) → motive t → motive (c :: t)) (line : Text) : motive line := by
  induction line using substituteInduction ne_nil_entry with
  | nil => exact nil
  | hit m t hlength hm ih =>
    obtain ⟨a, rest, rfl, ha⟩ := matchesAt_entry_iff.mp hm
    rw [eq_nil_of_length_entry ha hlength, entry_nil_append]
    exact hit a t ha ih
  | miss c t hmiss ih => exact miss c t (noEntry_iff.mpr hmiss) ih

/-- A line that is substituted in two parts. -/
theorem substituteLocalhost_append
    (hcut : ∀ v, v <:+ s → v ≠ [] → ∀ a' t', v ++ t = entry a' t' → IsLoopback a' →
      (entry loopback []).length ≤ v.length) :
    substituteLocalhost node (s ++ t) = substituteLocalhost node s ++ substituteLocalhost node t := by
  rw [substituteLocalhost_eq, substituteLocalhost_eq, substituteLocalhost_eq]
  refine substitute_append ne_nil_entry fun v hv hne hmatch => ?_
  obtain ⟨a', t', hentry, ha'⟩ := matchesAt_entry_iff.mp hmatch
  exact hcut v hv hne a' t' hentry ha'

/-- **No two entries overlap**, wherever the second one starts. -/
theorem length_le_of_entry (ha : IsLoopback a) (hs : IsLoopback s) (hne : v ≠ []) (h : v ++ entry a t = entry s u) :
    (entry loopback []).length ≤ v.length := by
  by_contra hshort
  -- some character of the pattern is not the one that the pattern has so much further on
  have hconflict : ∀ n < (entry loopback []).length, 0 < n → ∃ i < (entry loopback []).length,
      ((entry loopback [])[n + i]?.any fun x => x ≠ '.' ∧ (entry loopback [])[i]?.any fun y => y ≠ '.' ∧ x ≠ y) := by
    decide
  obtain ⟨i, -, hi⟩ := hconflict v.length (by omega) (List.length_pos_iff.mpr hne)
  obtain ⟨x, hx, hi⟩ := (Option.any_eq_true _ _).mp hi
  obtain ⟨hxdot, hi⟩ := of_decide_eq_true hi
  obtain ⟨y, hy, hi⟩ := (Option.any_eq_true _ _).mp hi
  obtain ⟨hydot, hxy⟩ := of_decide_eq_true hi
  have hsecond := getElem?_of_matchesAt (matchesAt_entry_iff.mpr ⟨a, t, rfl, ha⟩) hy hydot
  have hfirst := getElem?_of_matchesAt (matchesAt_entry_iff.mpr ⟨s, u, h, hs⟩) hx hxdot
  rw [List.getElem?_append_right (Nat.le_add_right _ _), Nat.add_sub_cancel_left, hsecond] at hfirst
  exact hxy (Option.some.inj hfirst).symm

/-- In front of an entry the line is substituted on its own. -/
theorem substituteLocalhost_append_entry (ha : IsLoopback a) (b t : Text) :
    substituteLocalhost node (b ++ entry a t) =
      substituteLocalhost node b ++ (loopback ++ ' ' :: (node ++ substituteLocalhost node t)) := by
  rw [substituteLocalhost_append fun v _ hne a' t' h ha' => length_le_of_entry ha ha' hne h,
    substituteLocalhost_entry ha]

/-! ## What is kept -/

/-- An entry starts with a `1`. -/
theorem IsLoopback.exists_cons (h : IsLoopback a) : ∃ rest, a = '1' :: rest := by
  have hfirst := getElem?_of_matchesAt h.2 (i := 0) (c := '1') (by decide) (by decide)
  cases a with
  | nil => cases hfirst
  | cons c rest => exact ⟨rest, by rw [Option.some.inj hfirst]⟩

/-- An entry starts with a `1`. -/
theorem noEntry_cons (hc : c ≠ '1') (t : Text) : NoEntry (c :: t) := by
  intro a rest h ha
  obtain ⟨a', rfl⟩ := ha.exists_cons
  exact hc (List.cons_eq_cons.mp h).1

/-- Without a `1` a text is kept. -/
theorem substituteLocalhost_append_of_not_mem (hu : '1' ∉ u) (t : Text) :
    substituteLocalhost node (u ++ t) = u ++ substituteLocalhost node t := by
  induction u with
  | nil => rfl
  | cons c u ih =>
    rw [List.mem_cons, not_or] at hu
    rw [List.cons_append, substituteLocalhost_cons (noEntry_cons (Ne.symm hu.1) _), ih hu.2, List.cons_append]

/-- A blank is none. -/
theorem ne_one_of_isBlank (hc : isBlank c = true) : c ≠ '1' := by
  rintro rfl
  cases hc

/-- A substitution leaves the start of a word where it is. -/
theorem apart_substituteLocalhost (ht : Apart isBlank t) : Apart isBlank (substituteLocalhost node t) := by
  cases t with
  | nil => exact apart_nil
  | cons c t =>
    have hc := apart_cons.mp ht
    rw [substituteLocalhost_cons (noEntry_cons (ne_one_of_isBlank hc) t)]
    exact apart_cons.mpr hc

/-- There are no blanks in a word. -/
theorem countP_of_solid (h : Solid isBlank w) : w.countP isBlank = 0 :=
  List.countP_eq_zero.mpr fun ch hch => by simp [h ch hch]

/-- Where there are no blanks, there is one word. -/
theorem solid_of_countP (h : w.countP isBlank = 0) : Solid isBlank w := fun ch hch => by
  simpa using List.countP_eq_zero.mp h ch hch

/-- The blanks of an entry: one, and those of its parts. -/
theorem countP_entry (a t : Text) : (entry a t).countP isBlank = a.countP isBlank + 1 + t.countP isBlank := by
  rw [entry, List.countP_append, List.countP_cons_of_pos (by decide), List.countP_append,
    countP_of_solid solid_localhost]
  omega

/-- White space is not put in. -/
theorem countP_substituteLocalhost_le (hnode : Solid isBlank node) (line : Text) :
    (substituteLocalhost node line).countP isBlank ≤ line.countP isBlank := by
  induction line using entryInduction with
  | nil => exact Nat.le_refl 0
  | hit a t ha ih =>
    rw [substituteLocalhost_entry ha, countP_entry, List.countP_append, List.countP_cons_of_pos (by decide),
      List.countP_append, countP_of_solid solid_loopback, countP_of_solid hnode]
    omega
  | miss c t hno ih =>
    rw [substituteLocalhost_cons hno, List.countP_cons, List.countP_cons]
    omega

/-- The first word of what is substituted is as long as it was, when no white space is lost. -/
theorem exists_firstWord (hnode : Solid isBlank node) (hs : Solid isBlank s) (ht : Apart isBlank t)
    (hcount : (substituteLocalhost node (s ++ t)).countP isBlank = (s ++ t).countP isBlank) :
    ∃ s' t', substituteLocalhost node (s ++ t) = s' ++ t' ∧ s'.length = s.length ∧ Solid isBlank s' ∧
      Apart isBlank t' := by
  induction s with
  | nil => exact ⟨[], _, rfl, rfl, nofun, apart_substituteLocalhost ht⟩
  | cons c s ih =>
    by_cases hno : NoEntry (c :: (s ++ t))
    · have hc : isBlank c = false := hs c List.mem_cons_self
      rw [List.cons_append, substituteLocalhost_cons hno, List.countP_cons, List.countP_cons,
        Nat.add_right_cancel_iff] at hcount
      obtain ⟨s', t', hsub, hlength, hs', ht'⟩ := ih (fun d hd => hs d (List.mem_cons_of_mem c hd)) hcount
      refine ⟨c :: s', t', ?_, congrArg Nat.succ hlength, List.forall_mem_cons.mpr ⟨hc, hs'⟩, ht'⟩
      rw [List.cons_append, substituteLocalhost_cons hno, hsub, List.cons_append]
    · -- the entry starts with the word, and its first white space is where the word ends
      unfold NoEntry at hno
      push Not at hno
      obtain ⟨a, rest, hentry, ha⟩ := hno
      have hrest := countP_substituteLocalhost_le hnode rest
      rw [List.cons_append, hentry, substituteLocalhost_entry ha, countP_entry, List.countP_append,
        List.countP_cons_of_pos (by decide), List.countP_append, countP_of_solid solid_loopback,
        countP_of_solid hnode] at hcount
      have hsolid : Solid isBlank a := solid_of_countP (by omega)
      obtain ⟨hword, -⟩ := append_inj_of_apart hs hsolid ht (apart_cons.mpr (by decide)) hentry
      refine ⟨loopback, ' ' :: (node ++ substituteLocalhost node rest), ?_, ?_, solid_loopback,
        apart_cons.mpr isBlank_space⟩
      · rw [List.cons_append, hentry, substituteLocalhost_entry ha]
      · rw [hword, ha.1]

/-! ## Where the substitution does what it is for -/

/-- A new alias is one word. -/
theorem solid_newAlias (hnode : Solid isBlank node) (hw : Solid isBlank w) : Solid isBlank (newAlias node line w) := by
  unfold newAlias renameAlias
  split
  · split
    · exact hnode
    · exact hw
  · exact hw

/-- The words of a line are words. -/
theorem solid_of_mem_words (h : w ∈ words s) : Solid isBlank w := (forall_of_mem_wordsBy h).2

/-- Other words are kept. -/
theorem newAlias_of_ne (h : w ≠ localhost) : newAlias node line w = w := by
  rw [newAlias, renameAlias, if_neg h, ite_self]

/-- No word that ends with an address is the alias. -/
theorem ne_localhost_of_isSuffix (ha : IsLoopback a) (h : a <:+ w) : w ≠ localhost := by
  rintro rfl
  obtain ⟨rest, rfl⟩ := ha.exists_cons
  exact absurd (h.subset List.mem_cons_self) (by decide)

/-- Two words without a blank between them are one. -/
theorem solid_append (hu : Solid isBlank u) (hv : Solid isBlank v) : Solid isBlank (u ++ v) := fun ch hch =>
  (List.mem_append.mp hch).elim (hu ch) (hv ch)

/-- The names of a new line are words. -/
theorem solid_names (hnode : Solid isBlank node) (s : Text) :
    ∀ w ∈ (words s).tail, Solid isBlank (newAlias node line w) := fun _ hw =>
  solid_newAlias hnode (solid_of_mem_words (List.mem_of_mem_tail hw))

/-- The white space is the same, where the line comes out as it should. -/
theorem countP_of_eq (hnode : Solid isBlank node) (heq : substituteLocalhost node line = localhostLine node line) :
    (substituteLocalhost node line).countP isBlank = line.countP isBlank := by
  rw [heq, localhostLine, countP_mapNames (solid_names hnode line)]

/-- What is behind a space is renamed on its own. -/
theorem localhostLine_append_cons (hline : line = s ++ c :: t) (hc : isBlank c = true) (hwords : words s ≠ []) :
    localhostLine node line =
      mapNames isBlank (newAlias node line) s ++ c :: mapWords isBlank (newAlias node line) t := by
  rw [← mapNames_append_cons hc hwords, ← hline, localhostLine]

/-- **An entry is one of those that should be replaced**, where the line comes out as it should. -/
theorem entry_of_eq (hnode : Solid isBlank node) (heq : substituteLocalhost node line = localhostLine node line)
    (hline : line = b ++ entry a t) (ha : IsLoopback a) :
    a = loopback ∧ (node = localhost ∨ ((words line).head? = some loopback ∧ Apart isBlank t)) := by
  have hne : a ≠ [] := by
    obtain ⟨rest, rfl⟩ := ha.exists_cons
    exact List.cons_ne_nil _ _
  have hbefore := countP_substituteLocalhost_le hnode b
  have hafter := countP_substituteLocalhost_le hnode t
  have hcount := countP_of_eq hnode heq
  rw [hline, substituteLocalhost_append_entry ha, List.countP_append, List.countP_append,
    List.countP_cons_of_pos isBlank_space, List.countP_append, countP_of_solid solid_loopback, countP_of_solid hnode,
    List.countP_append, countP_entry] at hcount
  -- there is no white space in the address
  have hsolid : Solid isBlank a := solid_of_countP (by omega)
  have hwords : words (b ++ a) ≠ [] := by
    obtain ⟨ch, hch⟩ := List.exists_mem_of_ne_nil a hne
    exact wordsBy_ne_nil (List.mem_append_right b hch) (hsolid ch hch)
  have hsplit : line = (b ++ a) ++ ' ' :: (localhost ++ t) := by rw [hline, entry, List.append_assoc]
  have hleft : substituteLocalhost node line =
      (substituteLocalhost node b ++ loopback) ++ ' ' :: (node ++ substituteLocalhost node t) := by
    rw [hline, substituteLocalhost_append_entry ha, List.append_assoc]
  have hfrontCount : (substituteLocalhost node b ++ loopback).countP isBlank =
      (mapNames isBlank (newAlias node line) (b ++ a)).countP isBlank := by
    rw [countP_mapNames (solid_names hnode _), List.countP_append, List.countP_append, countP_of_solid solid_loopback,
      countP_of_solid hsolid]
    omega
  obtain ⟨hfront, hback⟩ := append_cons_inj_of_countP isBlank_space isBlank_space hfrontCount
    (hleft.symm.trans (heq.trans (localhostLine_append_cons hsplit isBlank_space hwords)))
  constructor
  · -- the word that ends with the address stays
    have hsuffix := isSuffix_mapNames hne hsolid
      (fun w hw => @newAlias_of_ne node line w (ne_localhost_of_isSuffix ha hw)) b
    rw [← hfront] at hsuffix
    exact (List.suffix_of_suffix_length_le hsuffix (List.suffix_append _ _) ha.1.le).eq_of_length ha.1
  · -- the word that starts with the alias either is it, or stays
    obtain ⟨s, r, rfl, hs, hr⟩ : ∃ s r, t = s ++ r ∧ Solid isBlank s ∧ Apart isBlank r :=
      ⟨_, _, List.takeWhile_append_dropWhile.symm, solid_takeWhile t, apart_dropWhile t⟩
    obtain ⟨s', r', hsub, hlength, hs', hr'⟩ := exists_firstWord hnode hs hr (by omega)
    have hword : Solid isBlank (localhost ++ s) := solid_append solid_localhost hs
    rw [hsub, ← List.append_assoc, ← List.append_assoc, mapWords_append hword hr,
      onWord_of_ne_nil (List.append_ne_nil_of_left_ne_nil (by decide) s)] at hback
    obtain ⟨hsame, -⟩ := append_inj_of_apart (solid_append hnode hs') (solid_newAlias hnode hword) hr'
      (apart_mapWords hr) hback
    have hkept : node ++ s' = localhost ++ s → node = localhost := fun h => (List.append_inj' h hlength).1
    unfold newAlias renameAlias at hsame
    split at hsame
    · rename_i hhead
      split at hsame
      · rename_i halias
        rw [List.append_right_eq_self.mp halias]
        exact .inr ⟨hhead, hr⟩
      · exact .inl (hkept hsame)
    · exact .inl (hkept hsame)

/-- A beginning of an entry that ends with white space is the address with the space. -/
theorem eq_of_isPrefix_entry (hv : v <+: entry loopback t) (hlength : v.length ≤ (entry loopback []).length)
    (hlast : v.getLast? = some c) (hc : isBlank c = true) : v = loopback ++ [' '] := by
  have hends : ∀ n ≤ (entry loopback []).length, ((entry loopback []).take n).getLast?.any isBlank = true →
      n = (loopback ++ [' ']).length := by decide
  have hentry : entry loopback [] <+: entry loopback t := ⟨t, entry_nil_append loopback t⟩
  have htake := List.prefix_iff_eq_take.mp (List.prefix_of_prefix_length_le hv hentry hlength)
  have hten := hends v.length hlength (by rw [← htake, hlast]; exact hc)
  rw [htake, hten]
  decide

/-- No entry ends with white space. -/
theorem substituteLocalhost_append_blank (hc : isBlank c = true) (b : Text) :
    substituteLocalhost node (b ++ [c]) = substituteLocalhost node b ++ [c] := by
  have hcut : ∀ v, v <:+ b → v ≠ [] → ∀ a' t', v ++ [c] = entry a' t' → IsLoopback a' →
      (entry loopback []).length ≤ v.length := by
    intro v _ _ a' t' hentry ha'
    by_contra hshort
    have hlength := congrArg List.length hentry
    rw [← entry_nil_append, List.length_append, List.length_append, length_entry ha', List.length_singleton] at hlength
    obtain rfl : t' = [] := List.length_eq_zero_iff.mp (by omega)
    have hlast := congrArg List.getLast? hentry
    rw [List.getLast?_concat, entry, List.getLast?_append_of_ne_nil _ (List.cons_ne_nil _ _)] at hlast
    obtain rfl : c = 't' := Option.some.inj hlast
    cases hc
  have hspace : substituteLocalhost node [c] = [c] := substituteLocalhost_cons (noEntry_cons (ne_one_of_isBlank hc) [])
  rw [substituteLocalhost_append hcut, hspace]

/-- **No entry reaches to an alias** that is not behind the address and a space. -/
theorem substituteLocalhost_append_localhost (hentries : ∀ b a t, line = b ++ entry a t → IsLoopback a → a = loopback)
    (hline : line = b ++ c :: (localhost ++ t)) (hc : isBlank c = true) (hno : ¬ (c = ' ' ∧ loopback <:+ b)) :
    substituteLocalhost node line =
      substituteLocalhost node b ++ c :: (localhost ++ substituteLocalhost node t) := by
  have hcut : ∀ v, v <:+ b ++ [c] → v ≠ [] → ∀ a' t', v ++ (localhost ++ t) = entry a' t' → IsLoopback a' →
      (entry loopback []).length ≤ v.length := by
    rintro v ⟨x, hx⟩ hvne a' t' hentry ha'
    by_contra hshort
    have hplace : line = x ++ entry a' t' := by
      rw [hline, ← hentry, ← List.append_assoc, hx, List.append_assoc, List.singleton_append]
    obtain rfl := hentries x a' t' hplace ha'
    have hlast : v.getLast? = some c := by
      rw [← List.getLast?_append_of_ne_nil x hvne, hx, List.getLast?_concat]
    have hv := eq_of_isPrefix_entry ⟨_, hentry⟩ (by omega) hlast hc
    rw [hv, ← List.append_assoc] at hx
    obtain ⟨hb, hspace⟩ := List.append_inj' hx rfl
    exact hno ⟨(List.singleton_inj.mp hspace).symm, x, hb⟩
  have hsplit : line = (b ++ [c]) ++ (localhost ++ t) := by
    rw [hline, List.append_assoc, List.singleton_append]
  rw [hsplit, substituteLocalhost_append hcut, substituteLocalhost_append_blank hc,
    substituteLocalhost_append_of_not_mem (by decide), List.append_assoc, List.singleton_append]

/-- **An alias is found**, where the line comes out as it should. -/
theorem alias_of_eq (hnode : Solid isBlank node) (heq : substituteLocalhost node line = localhostLine node line)
    (hne : node ≠ localhost) (hhead : (words line).head? = some loopback) (hline : line = b ++ c :: (localhost ++ t))
    (hc : isBlank c = true) (ht : Apart isBlank t) : c = ' ' ∧ loopback <:+ b := by
  by_contra hno
  have hleft : substituteLocalhost node line =
      substituteLocalhost node b ++ c :: (localhost ++ substituteLocalhost node t) :=
    substituteLocalhost_append_localhost (fun b a t hline ha => (entry_of_eq hnode heq hline ha).1) hline hc hno
  have hwords : words b ≠ [] := by
    intro hnil
    have hfirst : words line = localhost :: words t := by
      rw [hline, words, wordsBy_append_cons b _ hc, ← words, hnil, List.nil_append,
        wordsBy_append (by decide) solid_localhost ht, ← words]
    rw [hfirst] at hhead
    exact absurd (Option.some.inj hhead) (by decide)
  have hright : localhostLine node line = mapNames isBlank (newAlias node line) b ++
      c :: (node ++ mapWords isBlank (newAlias node line) t) := by
    rw [localhostLine_append_cons hline hc hwords, mapWords_append solid_localhost ht, onWord_of_ne_nil (by decide),
      newAlias, if_pos hhead, renameAlias, if_pos rfl]
  have hcount : (substituteLocalhost node b).countP isBlank =
      (mapNames isBlank (newAlias node line) b).countP isBlank := by
    have hbefore := countP_substituteLocalhost_le hnode b
    have hafter := countP_substituteLocalhost_le hnode t
    have hall := countP_of_eq hnode heq
    rw [hleft, hline, List.countP_append, List.countP_cons_of_pos hc, List.countP_append, List.countP_append,
      List.countP_cons_of_pos hc, List.countP_append] at hall
    rw [countP_mapNames (solid_names hnode b)]
    omega
  obtain ⟨-, hback⟩ := append_cons_inj_of_countP hc hc hcount (hleft.symm.trans (heq.trans hright))
  exact hne (append_inj_of_apart solid_localhost hnode (apart_substituteLocalhost ht) (apart_mapWords ht) hback).1.symm

/-! ## Where the aliases are found, and nothing else -/

/-- Without an entry a line stays. -/
theorem substituteLocalhost_of_noEntry (h : ∀ v, v <:+ line → NoEntry v) : substituteLocalhost node line = line := by
  rw [substituteLocalhost_eq]
  exact substitute_of_forall fun v hv _ => noEntry_iff.mp (h v hv)

/-- **The first entry of a line**, if there is one. -/
theorem exists_first_entry (line : Text) : (∀ v, v <:+ line → NoEntry v) ∨
    ∃ b a t, line = b ++ entry a t ∧ IsLoopback a ∧ ∀ v, v <:+ b → v ≠ [] → NoEntry (v ++ entry a t) := by
  induction line with
  | nil =>
    refine .inl fun v hv a t hentry _ => ?_
    rw [List.suffix_nil.mp hv] at hentry
    exact List.append_ne_nil_of_right_ne_nil a (List.cons_ne_nil _ _) hentry.symm
  | cons c line ih =>
    by_cases hno : NoEntry (c :: line)
    · obtain hnone | ⟨b, a, t, rfl, ha, hfirst⟩ := ih
      · refine .inl fun v hv => ?_
        obtain rfl | hv := List.suffix_cons_iff.mp hv
        · exact hno
        · exact hnone v hv
      · refine .inr ⟨c :: b, a, t, rfl, ha, fun v hv hne => ?_⟩
        obtain rfl | hv := List.suffix_cons_iff.mp hv
        · exact hno
        · exact hfirst v hv hne
    · unfold NoEntry at hno
      push Not at hno
      obtain ⟨a, t, hentry, ha⟩ := hno
      exact .inr ⟨[], a, t, hentry, ha, fun v hv hne => absurd (List.suffix_nil.mp hv) hne⟩

/-- Nothing behind an alias ends with the address. -/
theorem isSuffix_of_isSuffix_entry (ht : Apart isBlank (u ++ t)) (h : loopback <:+ b ++ entry a u) :
    loopback <:+ u := by
  have hu : u <:+ b ++ entry a u := ⟨b ++ (a ++ ' ' :: localhost), by simp [entry]⟩
  obtain hsuffix | hsuffix := List.suffix_or_suffix_of_suffix h hu
  · exact hsuffix
  · cases u with
    | nil =>
      have hlocalhost : localhost <:+ b ++ entry a [] := ⟨b ++ (a ++ [' ']), by simp [entry]⟩
      have hsame := (List.suffix_of_suffix_length_le h hlocalhost (by decide)).eq_of_length (by decide)
      exact absurd hsame (by decide)
    | cons c u =>
      have hsolid := solid_loopback c (hsuffix.subset List.mem_cons_self)
      rw [apart_cons.mp ht] at hsolid
      cases hsolid

/-- In front of the first entry nothing is replaced. -/
theorem substituteLocalhost_front (hbefore : ∀ v, v <:+ b → v ≠ [] → NoEntry (v ++ entry a t)) :
    substituteLocalhost node b = b := by
  refine substituteLocalhost_of_noEntry fun v hv a' t' hentry ha' => ?_
  have hne : v ≠ [] := by
    rw [hentry]
    exact List.append_ne_nil_of_right_ne_nil a' (List.cons_ne_nil _ _)
  exact hbefore v hv hne a' _ (by rw [hentry, entry_append]) ha'

/-- **In front of the first entry there is no alias**, when each alias is behind the address and a space. -/
theorem localhost_not_mem_front (hfirst : ∀ r, b ++ entry loopback t = localhost ++ r → ¬ Apart isBlank r)
    (haliases : ∀ b' c r, b ++ entry loopback t = b' ++ c :: (localhost ++ r) → isBlank c = true → Apart isBlank r →
      c = ' ' ∧ loopback <:+ b')
    (hbefore : ∀ v, v <:+ b → v ≠ [] → NoEntry (v ++ entry loopback t)) : localhost ∉ words (b ++ loopback) := by
  intro hw
  have hsplit : b ++ entry loopback t = (b ++ loopback) ++ ' ' :: (localhost ++ t) :=
    (List.append_assoc b loopback _).symm
  obtain ⟨b', c, r, hplace, hc, hr⟩ := exists_of_mem_wordsBy hw fun x hx hapart =>
    hfirst (x ++ ' ' :: (localhost ++ t)) (by rw [hsplit, hx, List.append_assoc])
      (apart_append hapart (apart_cons.mpr isBlank_space))
  obtain ⟨rfl, x, rfl⟩ := haliases b' c (r ++ ' ' :: (localhost ++ t)) (by rw [hsplit, hplace]; simp) hc
    (apart_append hr (apart_cons.mpr isBlank_space))
  -- the address and the alias are an entry that starts earlier
  have hearlier : b ++ loopback = x ++ entry loopback r := by
    rw [hplace, entry, List.append_assoc]
  have hlong : (entry loopback r).length = loopback.length + 1 + localhost.length + r.length := by
    rw [entry, List.length_append, List.length_cons, List.length_append]
    omega
  obtain ⟨y, -, hy⟩ | ⟨y, hb, hy⟩ := List.append_eq_append_iff.mp hearlier
  · have hlength := congrArg List.length hy
    rw [List.length_append, hlong] at hlength
    omega
  · have hne : y ≠ [] := by
      rintro rfl
      have hlength := congrArg List.length hy
      rw [hlong, List.nil_append] at hlength
      omega
    refine hbefore y ⟨x, hb.symm⟩ hne loopback (r ++ ' ' :: (localhost ++ t)) ?_ isLoopback_loopback
    rw [← entry_append, hy, entry, List.append_assoc]

/-- **The aliases are renamed**, in a text in which they are found and nothing else is. -/
theorem substituteLocalhost_eq_mapWords (hfirst : ∀ r, t = localhost ++ r → ¬ Apart isBlank r)
    (hentries : ∀ b a r, t = b ++ entry a r → IsLoopback a → a = loopback ∧ Apart isBlank r)
    (haliases : ∀ b c r, t = b ++ c :: (localhost ++ r) → isBlank c = true → Apart isBlank r →
      c = ' ' ∧ loopback <:+ b) : substituteLocalhost node t = mapWords isBlank (renameAlias node) t := by
  induction hlength : t.length using Nat.strong_induction_on generalizing t with
  | _ n ih =>
    subst hlength
    obtain hnone | ⟨b, a, r, rfl, ha, hbefore⟩ := exists_first_entry t
    · rw [substituteLocalhost_of_noEntry hnone, mapWords_eq_self]
      intro w hw
      refine if_neg ?_
      rintro rfl
      obtain ⟨b, c, r, rfl, hc, hr⟩ := exists_of_mem_wordsBy hw hfirst
      obtain ⟨rfl, x, rfl⟩ := haliases b c r rfl hc hr
      exact hnone (entry loopback r) ⟨x, by simp [entry]⟩ loopback r rfl isLoopback_loopback
    · obtain ⟨rfl, hr⟩ := hentries b a r rfl ha
      have hsplit : b ++ entry loopback r = (b ++ loopback) ++ ' ' :: (localhost ++ r) :=
        (List.append_assoc b loopback _).symm
      have hkept : mapWords isBlank (renameAlias node) (b ++ loopback) = b ++ loopback := by
        refine mapWords_eq_self fun w hw => if_neg ?_
        rintro rfl
        exact localhost_not_mem_front hfirst haliases hbefore hw
      -- the same holds of what is behind the entry
      have hrest : substituteLocalhost node r = mapWords isBlank (renameAlias node) r := by
        refine ih r.length ?_ (fun x hx _ => ?_) (fun b' a' r' hx ha' => ?_) (fun b' c r' hx hc hr' => ?_) rfl
        · rw [List.length_append, entry, List.length_append, List.length_cons, List.length_append]
          omega
        · rw [hx] at hr
          exact absurd (apart_cons.mp hr) (by decide)
        · exact hentries (b ++ entry loopback b') a' r' (by rw [hx, List.append_assoc, entry_append]) ha'
        · obtain ⟨hspace, hsuffix⟩ := haliases (b ++ entry loopback b') c r'
            (by rw [hx, List.append_assoc, entry_append]) hc hr'
          exact ⟨hspace, isSuffix_of_isSuffix_entry (hx ▸ hr) hsuffix⟩
      rw [substituteLocalhost_append_entry ha, substituteLocalhost_front hbefore, hrest, hsplit,
        mapWords_append_cons isBlank_space, hkept, mapWords_append solid_localhost hr, onWord_of_ne_nil (by decide),
        renameAlias, if_pos rfl, List.append_assoc]

/-- A node that is called `localhost` keeps the alias. -/
theorem localhostLine_localhost (line : Text) : localhostLine localhost line = line := by
  refine mapNames_eq_self fun w _ => ?_
  unfold newAlias renameAlias
  split_ifs with _ halias
  · exact halias.symm
  · rfl
  · rfl

/-- What is found is put in again. -/
theorem substituteLocalhost_localhost (hentries : ∀ b a t, line = b ++ entry a t → IsLoopback a → a = loopback) :
    substituteLocalhost localhost line = line := by
  rw [substituteLocalhost_eq, substitute_eq_self_iff ne_nil_entry]
  intro m hm
  obtain ⟨b, t, rfl, hlength, hmatch⟩ := exists_of_mem_found ne_nil_entry hm
  obtain ⟨a, r, rfl, ha⟩ := matchesAt_entry_iff.mp hmatch
  rw [eq_nil_of_length_entry ha hlength, hentries b a (r ++ t) (by rw [entry_append]) ha]
  rfl

/-- **The first substitution does what it is for** exactly in the lines in which the aliases are found, and nothing
else is. -/
theorem substituteLocalhost_eq_iff (hnode : Solid isBlank node) (line : Text) :
    substituteLocalhost node line = localhostLine node line ↔ AliasAlone node line := by
  constructor
  · intro heq
    refine ⟨fun b a t hline ha => entry_of_eq hnode heq hline ha, ?_⟩
    by_cases hne : node = localhost
    · exact .inl hne
    · exact .inr fun hhead b c t hline hc ht => alias_of_eq hnode heq hne hhead hline hc ht
  · rintro ⟨hentries, haliases⟩
    by_cases hne : node = localhost
    · subst hne
      rw [localhostLine_localhost]
      exact substituteLocalhost_localhost fun b a t hline ha => (hentries b a t hline ha).1
    · by_cases hhead : (words line).head? = some loopback
      · have hnames : newAlias node line = renameAlias node := by
          funext name
          rw [newAlias, if_pos hhead]
        have hsolid : ∀ w ∈ words line, Solid isBlank (renameAlias node w) := fun w hw => by
          rw [← hnames]
          exact solid_newAlias hnode (solid_of_mem_words hw)
        -- the address is no alias, so that all the words can be renamed
        have hall : mapWords isBlank (renameAlias node) line = mapNames isBlank (renameAlias node) line := by
          refine (mapWords_eq_mapNames_iff hsolid fun w hw => hsolid w (List.mem_of_mem_tail hw)).mpr
            ⟨?_, fun _ _ => rfl⟩
          intro w hw
          obtain rfl : loopback = w := Option.some.inj (hhead.symm.trans hw)
          exact if_neg (by decide)
        rw [localhostLine, hnames, ← hall]
        refine substituteLocalhost_eq_mapWords (fun r hline hr => ?_) (fun b a r hline ha => ?_)
          (haliases.resolve_left hne hhead)
        · rw [hline, words, wordsBy_append (by decide) solid_localhost hr] at hhead
          exact absurd (Option.some.inj hhead) (by decide)
        · obtain ⟨hsame, hplace⟩ := hentries b a r hline ha
          exact ⟨hsame, (hplace.resolve_left hne).2⟩
      · -- nothing is found in a line of another address
        have hkept : localhostLine node line = line := mapNames_eq_self fun w _ => if_neg hhead
        rw [hkept]
        refine substituteLocalhost_of_noEntry fun v hv a t hentry ha => ?_
        obtain ⟨b, rfl⟩ := hv
        obtain ⟨-, hplace⟩ := hentries b a t (by rw [hentry]) ha
        exact hhead (hplace.resolve_left hne).1

end GexCloud.Slave
