import GexCloud.Support.Texts

/-! # Reading a page

How a page is cut into tags and characters, as the tokenizer of HTML does it. Comments and what stands for one are
left out, the values of attributes are taken as they are written, and elements whose content is text are read up to
their end tag; for a script that has the three levels of its comments.

* `Level`, `Level.next` — where a script is inside a comment, or inside a script inside a comment.
* `step`, `run` — one character, a whole text.
* `scan` — a piece of a script that nothing ends, by the levels before and behind it.
* **`run_raw_append`** — such a piece is read as its characters.
* **`scan_of_run_raw`** — a piece that is read as its characters is such a piece.
* **`head_run_of_tag`** — what is first read behind the start of a tag is that tag. -/

namespace Html

open Texts

/-! ## Tokens -/

/-- A tag. -/
structure Tag where
  closing : Bool
  name : Text
  attributes : List (Text × Text)
  deriving DecidableEq

/-- What a page is made of. -/
inductive Token
  | char (c : Char)
  | tag (t : Tag)
  deriving DecidableEq

/-- The tag with one more attribute. -/
def Tag.add (t : Tag) (name value : Text) : Tag := { t with attributes := t.attributes ++ [(name, value)] }

/-- White space in a tag. -/
def isWs (c : Char) : Bool := c == ' ' || c == '\t' || c == '\n' || c == '\r' || c == '\x0c'

/-- What can stand behind the name of a tag. -/
def isNameEnd (c : Char) : Bool := isWs c || c == '/' || c == '>'

/-- The text starts with this lower-case mark, in any case, as the name of a tag. -/
def opens : Text → Text → Bool
  | [], [] => false
  | [], c :: _ => isNameEnd c
  | _ :: _, [] => false
  | m :: mark, c :: s => (c == m || c == m.toUpper) && opens mark s

/-! ## Scripts -/

/-- Where a script is: in itself, in a comment, in a script in a comment. -/
inductive Level
  | plain
  | comment
  | nested
  deriving DecidableEq

/-- The level behind the first character of a text. -/
def Level.next : Level → Text → Level
  | .plain, s => if ['<', '!', '-', '-'].isPrefixOf s then .comment else .plain
  | .comment, s =>
    if ['-', '-', '>'].isPrefixOf s then .plain
    else if opens ['<', 's', 'c', 'r', 'i', 'p', 't'] s then .nested
    else .comment
  | .nested, s =>
    if ['-', '-', '>'].isPrefixOf s then .plain
    else if opens ['<', '/', 's', 'c', 'r', 'i', 'p', 't'] s then .comment
    else .nested

/-- The name of a script. -/
def script : Text := ['s', 'c', 'r', 'i', 'p', 't']

/-- The text starts with the end tag of the element. -/
def closes (name : Text) (l : Level) (s : Text) : Bool := decide (l ≠ .nested) && opens ('<' :: '/' :: name) s

/-! ## The tokenizer -/

/-- The state of the tokenizer. -/
inductive State
  | data
  | tagOpen
  | endTagOpen
  | tagName (t : Tag)
  | beforeName (t : Tag)
  | attributeName (t : Tag) (name : Text)
  | afterName (t : Tag) (name : Text)
  | beforeValue (t : Tag) (name : Text)
  | value (t : Tag) (name : Text) (quote : Option Char) (v : Text)
  | markup
  | commentStart
  | comment
  | bogus
  | raw (name : Text) (l : Level)
  deriving DecidableEq

/-- The elements whose content is text. -/
def rawNames : List Text :=
  ["script".toList, "style".toList, "title".toList, "textarea".toList, "xmp".toList, "iframe".toList,
    "noembed".toList, "noframes".toList]

/-- The state behind a tag. -/
def Tag.content (t : Tag) : State := if t.closing = false ∧ t.name ∈ rawNames then .raw t.name .plain else .data

/-- A tag is complete. -/
def Tag.finish (t : Tag) : List Token × State := ([.tag t], t.content)

/-- A character in a comment. -/
def commentStep (s : Text) : State :=
  -- the rest of the end of a comment is read as what stands for one
  if ['-', '-', '>'].isPrefixOf s || ['-', '-', '!', '>'].isPrefixOf s then .bogus else .comment

/-- One of the two dashes with which a comment starts. They can be those of its end, unless that has a `!`. -/
def commentStartStep (next : State) (s : Text) : State := if ['-', '-', '>'].isPrefixOf s then .bogus else next

/-- A character in what stands for a comment. -/
def bogusStep (c : Char) : State := if c = '>' then .data else .bogus

/-- One character, with the text behind it. -/
def step : State → Char → Text → List Token × State
  | .data, c, _ => if c = '<' then ([], .tagOpen) else ([.char c], .data)
  | .tagOpen, c, _ =>
    if c = '/' then ([], .endTagOpen)
    else if c = '!' then ([], .markup)
    else if c = '?' then ([], .bogus)
    else if c.isAlpha then ([], .tagName ⟨false, [c.toLower], []⟩)
    else if c = '<' then ([.char '<'], .tagOpen)
    else ([.char '<', .char c], .data)
  | .endTagOpen, c, _ =>
    if c.isAlpha then ([], .tagName ⟨true, [c.toLower], []⟩)
    else if c = '>' then ([], .data)
    else ([], .bogus)
  | .tagName t, c, _ =>
    if isWs c || c == '/' then ([], .beforeName t)
    else if c = '>' then t.finish
    else ([], .tagName { t with name := t.name ++ [c.toLower] })
  | .beforeName t, c, _ =>
    if isWs c || c == '/' then ([], .beforeName t)
    else if c = '>' then t.finish
    else ([], .attributeName t [c.toLower])
  | .attributeName t name, c, _ =>
    if isWs c then ([], .afterName t name)
    else if c = '/' then ([], .beforeName (t.add name []))
    else if c = '>' then (t.add name []).finish
    else if c = '=' then ([], .beforeValue t name)
    else ([], .attributeName t (name ++ [c.toLower]))
  | .afterName t name, c, _ =>
    if isWs c then ([], .afterName t name)
    else if c = '/' then ([], .beforeName (t.add name []))
    else if c = '>' then (t.add name []).finish
    else if c = '=' then ([], .beforeValue t name)
    else ([], .attributeName (t.add name []) [c.toLower])
  | .beforeValue t name, c, _ =>
    if isWs c then ([], .beforeValue t name)
    else if c = '"' ∨ c = '\'' then ([], .value t name (some c) [])
    else if c = '>' then (t.add name []).finish
    else ([], .value t name none [c])
  | .value t name (some quote) v, c, _ =>
    if c = quote then ([], .beforeName (t.add name v)) else ([], .value t name (some quote) (v ++ [c]))
  | .value t name none v, c, _ =>
    if isWs c then ([], .beforeName (t.add name v))
    else if c = '>' then (t.add name v).finish
    else ([], .value t name none (v ++ [c]))
  | .markup, c, s =>
    ([], if ['-', '-'].isPrefixOf (c :: s) then commentStartStep .commentStart (c :: s) else bogusStep c)
  | .commentStart, c, s => ([], commentStartStep .comment (c :: s))
  | .comment, c, s => ([], commentStep (c :: s))
  | .bogus, c, _ => ([], bogusStep c)
  | .raw name l, c, s =>
    if closes name l (c :: s) then ([], .tagOpen)
    else ([.char c], .raw name (if name = script then l.next (c :: s) else l))

/-- What is left at the end of the page. -/
def State.rest : State → List Token
  | .tagOpen => [.char '<']
  | .endTagOpen => [.char '<', .char '/']
  | _ => []

/-- **The tokens of a text.** -/
def run : State → Text → List Token
  | st, [] => st.rest
  | st, c :: s => (step st c s).1 ++ run (step st c s).2 s

/-- **The tokens of a page.** -/
def tokens (page : Text) : List Token := run .data page

/-! ## Pieces that are known -/

/-- The states in which the text behind matters. -/
def State.looksAhead : State → Bool
  | .markup => true
  | .commentStart => true
  | .comment => true
  | .raw _ _ => true
  | _ => false

/-- What a text is read as, whatever stands behind it; nothing is said where that matters. -/
def advance : State → Text → Option (List Token × State)
  | st, [] => some ([], st)
  | st, c :: s =>
    if st.looksAhead then none
    else (advance (step st c []).2 s).map fun r => ((step st c []).1 ++ r.1, r.2)

/-- Elsewhere it does not matter. -/
theorem step_of_not_looksAhead {st : State} (h : st.looksAhead = false) (c : Char) (s : Text) :
    step st c s = step st c [] := by
  cases st with
  | markup => cases h
  | commentStart => cases h
  | comment => cases h
  | raw name l => cases h
  | value t name quote v => cases quote <;> rfl
  | _ => rfl

/-- **A known piece in front of anything.** -/
theorem run_of_advance {st st' : State} {p : Text} {ts : List Token} (h : advance st p = some (ts, st'))
    (s : Text) : run st (p ++ s) = ts ++ run st' s := by
  induction p generalizing st ts with
  | nil =>
    obtain ⟨rfl, rfl⟩ := Prod.mk.inj (Option.some.inj h)
    rfl
  | cons c p ih =>
    rw [advance] at h
    split at h
    · cases h
    · rename_i hahead
      obtain ⟨⟨ts', st''⟩, hrest, heq⟩ := Option.map_eq_some_iff.mp h
      obtain ⟨rfl, rfl⟩ := Prod.mk.inj heq
      rw [List.cons_append, run, step_of_not_looksAhead (Bool.eq_false_iff.mpr hahead), ih hrest, List.append_assoc]

/-! ## Marks -/

/-- A quotation mark behind a text completes no mark. -/
theorem isPrefixOf_append_quote {mark : Text} (hmark : '"' ∉ mark) (s r : Text) :
    mark.isPrefixOf (s ++ '"' :: r) = mark.isPrefixOf s := by
  induction mark generalizing s with
  | nil => rfl
  | cons m mark ih =>
    rw [List.mem_cons, not_or] at hmark
    cases s with
    | nil =>
      have hm : (m == '"') = false := by simpa using fun h => hmark.1 h.symm
      simp [List.isPrefixOf, hm]
    | cons c s => simp [List.isPrefixOf, ih hmark.2 s]

/-- No letter of a mark is a quotation mark in another case. -/
def Markable (mark : Text) : Prop := ∀ m ∈ mark, '"' ≠ m ∧ '"' ≠ m.toUpper

/-- The characters are checked one by one. -/
theorem markable_of_all {mark : Text} (h : mark.all (fun m => '"' != m && '"' != m.toUpper) = true) :
    Markable mark := by
  intro m hm
  simpa using List.all_eq_true.mp h m hm

/-- Nor the name of a tag. -/
theorem opens_append_quote {mark : Text} (hmark : Markable mark) (s r : Text) :
    opens mark (s ++ '"' :: r) = opens mark s := by
  induction mark generalizing s with
  | nil => cases s <;> rfl
  | cons m mark ih =>
    have hm := hmark m List.mem_cons_self
    cases s with
    | nil => simp [opens, hm.1, hm.2]
    | cons c s =>
      rw [List.cons_append, opens, opens, ih fun m' hm' => hmark m' (List.mem_cons_of_mem _ hm')]

/-- A tag name that is complete stays, whatever stands behind it. -/
theorem opens_append {mark s : Text} (h : opens mark s = true) (r : Text) : opens mark (s ++ r) = true := by
  induction mark generalizing s with
  | nil =>
    cases s with
    | nil => cases h
    | cons c s => exact h
  | cons m mark ih =>
    cases s with
    | nil => cases h
    | cons c s =>
      rw [opens, Bool.and_eq_true] at h
      rw [List.cons_append, opens, h.1, ih h.2]
      rfl

/-! ## Text in elements -/

/-- A piece of a script that nothing ends: the level behind it. -/
def scan : Level → Text → Option Level
  | l, [] => some l
  | l, c :: s => if closes script l (c :: s) then none else scan (l.next (c :: s)) s

variable {l l' : Level} {s r : Text}

/-- A quotation mark ends no script. -/
theorem closes_append_quote (l : Level) (s r : Text) : closes script l (s ++ '"' :: r) = closes script l s := by
  have hmark : Markable ('<' :: '/' :: script) := markable_of_all (by decide)
  rw [closes, closes, opens_append_quote hmark]

/-- It opens and ends no comment. -/
theorem next_append_quote (l : Level) (s r : Text) : l.next (s ++ '"' :: r) = l.next s := by
  have hopen : Markable ['<', 's', 'c', 'r', 'i', 'p', 't'] := markable_of_all (by decide)
  have hclose : Markable ['<', '/', 's', 'c', 'r', 'i', 'p', 't'] := markable_of_all (by decide)
  cases l with
  | plain => simp only [Level.next, @isPrefixOf_append_quote ['<', '!', '-', '-'] (by decide)]
  | comment =>
    simp only [Level.next, @isPrefixOf_append_quote ['-', '-', '>'] (by decide), opens_append_quote hopen]
  | nested =>
    simp only [Level.next, @isPrefixOf_append_quote ['-', '-', '>'] (by decide), opens_append_quote hclose]

/-- **A piece of a script that nothing ends is read as its characters.** -/
theorem run_raw_append (h : scan l s = some l') (r : Text) :
    run (.raw script l) (s ++ '"' :: r) = s.map .char ++ run (.raw script l') ('"' :: r) := by
  induction s generalizing l with
  | nil =>
    obtain rfl := Option.some.inj h
    rfl
  | cons c s ih =>
    rw [scan] at h
    split at h
    · cases h
    · rename_i hcloses
      rw [Bool.not_eq_true, ← closes_append_quote l (c :: s) r] at hcloses
      rw [List.cons_append] at hcloses ⊢
      rw [run, step, if_neg (Bool.eq_false_iff.mp hcloses), if_pos rfl, ← List.cons_append, next_append_quote, ih h]
      rfl

/-- Without angle brackets and hyphens a text is read as its characters, and stays at its level. -/
theorem run_raw_of_not_mem {name : Text} (hless : '<' ∉ s) (hhyphen : '-' ∉ s) (r : Text) :
    run (.raw name l) (s ++ r) = s.map .char ++ run (.raw name l) r := by
  induction s with
  | nil => rfl
  | cons c s ih =>
    rw [List.mem_cons, not_or] at hless hhyphen
    have hc : ('<' == c) = false := by simpa using hless.1
    have hc' : (c == '<') = false := by simpa using fun h => hless.1 h.symm
    have hh : ('-' == c) = false := by simpa using hhyphen.1
    have hcloses : closes name l (c :: (s ++ r)) = false := by simp [closes, opens, hc']
    have hnext : l.next (c :: (s ++ r)) = l := by
      cases l <;> simp [Level.next, List.isPrefixOf, opens, hc, hc', hh]
    rw [List.cons_append, run, step, hcloses, hnext, ite_self]
    simp only [Bool.false_eq_true, if_false]
    rw [ih hless.2 hhyphen.2]
    rfl

/-- An end tag stays one, whatever stands behind it. -/
theorem closes_append {name : Text} (h : closes name l s = true) (r : Text) : closes name l (s ++ r) = true := by
  rw [closes, Bool.and_eq_true] at h ⊢
  exact ⟨h.1, opens_append h.2 r⟩

/-- The text of an element ends with its end tag. -/
theorem run_raw_of_closes {name : Text} {c : Char} (h : closes name l (c :: s) = true) :
    run (.raw name l) (c :: s) = run .tagOpen s := by
  rw [run, step, if_pos h]
  rfl

/-! ## Tags -/

/-- The tag that is being read. -/
def State.tag? : State → Option Tag
  | .tagName t => some t
  | .beforeName t => some t
  | .attributeName t _ => some t
  | .afterName t _ => some t
  | .beforeValue t _ => some t
  | .value t _ _ _ => some t
  | _ => none

/-- The tag is this one, read further: the attributes so far stay. -/
def Tag.Extends (t' t : Tag) : Prop := t'.closing = t.closing ∧ t.attributes <+: t'.attributes

/-- A tag is part of itself. -/
theorem Tag.Extends.refl (t : Tag) : t.Extends t := ⟨rfl, List.prefix_rfl⟩

/-- And of what its parts are part of. -/
theorem Tag.Extends.trans {t t' t'' : Tag} (h' : t''.Extends t') (h : t'.Extends t) : t''.Extends t :=
  ⟨h'.1.trans h.1, h.2.trans h'.2⟩

/-- With one more attribute it is longer. -/
theorem Tag.extends_add (t : Tag) (name value : Text) : (t.add name value).Extends t :=
  ⟨rfl, List.prefix_append _ _⟩

/-- A tag ends with this tag, read further, or goes on with it. -/
def Onward (t : Tag) (r : List Token × State) : Prop :=
  (r.1 = [] ∧ ∃ t', r.2.tag? = some t' ∧ t'.Extends t) ∨ ∃ t', r.1 = [.tag t'] ∧ t'.Extends t

/-- A state inside of the tag. -/
theorem Onward.goes {t t' : Tag} {st : State} (h : st.tag? = some t') (ht : t'.Extends t) : Onward t ([], st) :=
  .inl ⟨rfl, t', h, ht⟩

/-- The tag is complete. -/
theorem Onward.ends {t t' : Tag} (ht : t'.Extends t) : Onward t t'.finish := .inr ⟨t', rfl, ht⟩

/-- **One character of a tag.** -/
theorem onward_step {st : State} {t : Tag} (h : st.tag? = some t) (c : Char) (s : Text) :
    Onward t (step st c s) := by
  have hsame := Tag.Extends.refl t
  have hadd := Tag.extends_add t
  cases st with
  | tagName t' =>
    obtain rfl := Option.some.inj h
    rw [step]
    split_ifs
    · exact .goes rfl hsame
    · exact .ends hsame
    · exact .goes rfl ⟨rfl, List.prefix_rfl⟩
  | beforeName t' =>
    obtain rfl := Option.some.inj h
    rw [step]
    split_ifs
    · exact .goes rfl hsame
    · exact .ends hsame
    · exact .goes rfl hsame
  | attributeName t' name =>
    obtain rfl := Option.some.inj h
    rw [step]
    split_ifs
    · exact .goes rfl hsame
    · exact .goes rfl (hadd _ _)
    · exact .ends (hadd _ _)
    · exact .goes rfl hsame
    · exact .goes rfl hsame
  | afterName t' name =>
    obtain rfl := Option.some.inj h
    rw [step]
    split_ifs
    · exact .goes rfl hsame
    · exact .goes rfl (hadd _ _)
    · exact .ends (hadd _ _)
    · exact .goes rfl hsame
    · exact .goes rfl (hadd _ _)
  | beforeValue t' name =>
    obtain rfl := Option.some.inj h
    rw [step]
    split_ifs
    · exact .goes rfl hsame
    · exact .goes rfl hsame
    · exact .ends (hadd _ _)
    · exact .goes rfl hsame
  | value t' name quote v =>
    obtain rfl := Option.some.inj h
    cases quote with
    | some quote =>
      rw [step]
      split_ifs
      · exact .goes rfl (hadd _ _)
      · exact .goes rfl hsame
    | none =>
      rw [step]
      split_ifs
      · exact .goes rfl (hadd _ _)
      · exact .ends (hadd _ _)
      · exact .goes rfl hsame
  | _ => cases h

/-- **What is first read behind the start of a tag** is that tag, if anything. -/
theorem head_run_of_tag {st : State} {t : Tag} (h : st.tag? = some t) (s : Text) :
    ∀ token ∈ (run st s).head?, ∃ t', token = .tag t' ∧ t'.Extends t := by
  induction s generalizing st t with
  | nil =>
    have hrest : st.rest = [] := by
      cases st <;> first | rfl | cases h
    rw [run, hrest]
    rintro token ⟨⟩
  | cons c s ih =>
    rw [run]
    rcases onward_step h c s with ⟨hnone, t', ht', hextends⟩ | ⟨t', htag, hextends⟩
    · -- the tag goes on
      rw [hnone, List.nil_append]
      intro token htoken
      obtain ⟨t'', htag, hextends'⟩ := ih ht' token htoken
      exact ⟨t'', htag, hextends'.trans hextends⟩
    · rw [htag]
      rintro token htoken
      obtain rfl := Option.some.inj htoken
      exact ⟨t', rfl, hextends⟩

/-- A value in quotation marks goes on up to the next one. -/
theorem run_value_append (h : '"' ∉ s) (t : Tag) (name v r : Text) :
    run (.value t name (some '"') v) (s ++ r) = run (.value t name (some '"') (v ++ s)) r := by
  induction s generalizing v with
  | nil => rw [List.nil_append, List.append_nil]
  | cons c s ih =>
    rw [List.mem_cons, not_or] at h
    rw [List.cons_append, run, step, if_neg fun hc => h.1 hc.symm, ih h.2, List.append_assoc]
    rfl

/-- **What is first read behind the start of such a value** is a tag in which it ends with its first quotation
mark. -/
theorem head_run_of_value (t : Tag) (name v s r : Text) :
    ∀ token ∈ (run (.value t name (some '"') v) (s ++ '"' :: r)).head?,
      ∃ t', token = .tag t' ∧ t'.Extends (t.add name (v ++ s.takeWhile (· != '"'))) := by
  induction s generalizing v with
  | nil =>
    rw [List.nil_append, run, step, if_pos rfl, List.takeWhile_nil, List.append_nil]
    exact @head_run_of_tag (.beforeName (t.add name v)) _ rfl r
  | cons c s ih =>
    rw [List.cons_append, run, step]
    by_cases hc : c = '"'
    · rw [if_pos hc, List.takeWhile_cons_of_neg (by simpa using hc), List.append_nil]
      exact @head_run_of_tag (.beforeName (t.add name v)) _ rfl _
    · have hgo := ih (v ++ [c])
      rw [List.append_assoc, List.singleton_append] at hgo
      rw [if_neg hc, List.takeWhile_cons_of_pos (by simpa using hc)]
      exact hgo

/-- Behind the end of a script no character is read first. -/
theorem head_run_of_closes {c : Char} (h : closes script l (c :: s) = true) (r : Text) :
    ∀ token ∈ (run .tagOpen (s ++ r)).head?, ∃ t, token = .tag t := by
  rw [closes, Bool.and_eq_true] at h
  -- behind the slash there is the first letter of the name
  obtain ⟨x, s', hs, hx⟩ : ∃ x s', s = '/' :: x :: s' ∧ (x = 's' ∨ x = 'S') := by
    have hopens := h.2
    rw [opens, Bool.and_eq_true] at hopens
    cases s with
    | nil => cases hopens.2
    | cons y s =>
      rw [opens, Bool.and_eq_true] at hopens
      obtain ⟨-, hy, hopens⟩ := hopens
      have hslash : y = '/' := by
        have hupper : Char.toUpper '/' = '/' := by decide
        simpa [hupper] using hy
      cases s with
      | nil => cases hopens
      | cons x s =>
        rw [script, opens, Bool.and_eq_true] at hopens
        have hupper : Char.toUpper 's' = 'S' := by decide
        exact ⟨x, s, by rw [hslash], by simpa [hupper] using hopens.1⟩
  have halpha : x.isAlpha = true := by
    rcases hx with rfl | rfl <;> decide
  have hrun : run .tagOpen (s ++ r) = run (.tagName ⟨true, [x.toLower], []⟩) (s' ++ r) := by
    rw [hs, List.cons_append, List.cons_append, run, step, if_pos rfl, run, step, if_pos halpha]
    rfl
  rw [hrun]
  intro token htoken
  obtain ⟨t, ht, -⟩ := @head_run_of_tag (.tagName ⟨true, [x.toLower], []⟩) _ rfl (s' ++ r) token htoken
  exact ⟨t, ht⟩

/-- **A piece that is read as its characters is a piece of a script that nothing ends.** -/
theorem scan_of_run_raw (h : s.map Token.char <+: run (.raw script l) (s ++ '"' :: r)) :
    ∃ l', scan l s = some l' := by
  induction s generalizing l with
  | nil => exact ⟨l, rfl⟩
  | cons c s ih =>
    have hquote := closes_append_quote l (c :: s) r
    rw [List.cons_append] at h hquote
    cases hcloses : closes script l (c :: s) with
    | true =>
      rw [run_raw_of_closes (hquote.trans hcloses)] at h
      obtain ⟨rest, hrest⟩ := h
      obtain ⟨t, ht⟩ := head_run_of_closes hcloses ('"' :: r) (.char c) (by rw [← hrest]; rfl)
      cases ht
    | false =>
      rw [run, step, if_neg (Bool.eq_false_iff.mp (hquote.trans hcloses)), if_pos rfl, ← List.cons_append,
        next_append_quote, List.map_cons, List.cons_append, List.nil_append, List.cons_prefix_cons] at h
      obtain ⟨l', hl'⟩ := ih h.2
      exact ⟨l', by rw [scan, hcloses]; exact hl'⟩

end Html
