import GexCloud.Support.Queries

/-! # Reading a script

How a script is cut into string literals and the characters of its code, with its comments left out. Regular
expressions, templates and comments in the style of HTML are not told apart from code.

* `LiteralState`, `inLiteral` — the escapes and line ends in a string literal.
* `IsContent` — a text that can stand in a literal.
* `step`, `advance`, `pieces` — one character, a text, a whole script.
* **`advance_literal`** — a text without the quotation mark in a literal.
* **`advance_content`**, **`isContent_of_advance`** — between quotation marks it is read as a literal when it is the
  content of one, and where the line ends behind the literal, only then. -/

namespace JavaScript

open Texts

/-! ## String literals -/

/-- Where a string literal is: in its text, behind a backslash, with so many hexadecimal digits to come, behind `\u`,
in the braces behind it with the value so far, behind a carriage return that is escaped. -/
inductive LiteralState
  | text
  | escape
  | hex (n : Nat)
  | unicode
  | point (v : Option Nat)
  | continued
  deriving DecidableEq

/-- A character of the text of a literal. -/
def inText (quote c : Char) : Option LiteralState :=
  if c = '\\' then some .escape
  else if c = quote ∨ c = '\n' ∨ c = '\r' then none
  else some .text

/-- **A character in a literal**; none for one that cannot stand there. -/
def inLiteral (quote : Char) : LiteralState → Char → Option LiteralState
  | .text, c => inText quote c
  | .escape, c =>
    if c = 'x' then some (.hex 2)
    else if c = 'u' then some .unicode
    else if c = '\r' then some .continued
    else some .text
  | .hex n, c => (Queries.hexValue c).map fun _ => if n ≤ 1 then .text else .hex (n - 1)
  | .unicode, c => if c = '{' then some (.point none) else (Queries.hexValue c).map fun _ => .hex 3
  | .point none, c => (Queries.hexValue c).map fun d => .point (some d)
  | .point (some v), c =>
    if c = '}' then some .text
    else (Queries.hexValue c).bind fun d => if 16 * v + d ≤ 0x10FFFF then some (.point (some (16 * v + d))) else none
  | .continued, c => if c = '\n' then some .text else inText quote c

/-- Where the quotation mark ends the literal. -/
def LiteralState.closable : LiteralState → Bool
  | .text => true
  | .continued => true
  | _ => false

/-- **The text can stand in a literal**: its line ends are escaped and its escapes are complete. -/
def IsContent (quote : Char) (s : Text) : Prop :=
  (s.foldlM (inLiteral quote) .text).any LiteralState.closable = true

instance (quote : Char) (s : Text) : Decidable (IsContent quote s) := by unfold IsContent; infer_instance

/-! ## Scripts -/

/-- What a script is made of. -/
inductive Piece
  | code (c : Char)
  | literal (s : Text)
  deriving DecidableEq

/-- The state of the reader: in code, behind a slash, in a comment of a line, in a comment, behind a star in it, in a
literal. -/
inductive State
  | code
  | slash
  | line
  | block
  | star
  | literal (quote : Char) (st : LiteralState) (content : Text)
  deriving DecidableEq

/-- A character of the code. -/
def codeStep (c : Char) : List Piece × State :=
  if c = '"' ∨ c = '\'' then ([], .literal c .text [])
  else if c = '/' then ([], .slash)
  else ([.code c], .code)

/-- One character; none where a literal cannot go on. -/
def step : State → Char → Option (List Piece × State)
  | .code, c => some (codeStep c)
  | .slash, c =>
    if c = '/' then some ([], .line)
    else if c = '*' then some ([], .block)
    else some (.code '/' :: (codeStep c).1, (codeStep c).2)
  | .line, c => if c = '\n' ∨ c = '\r' then some ([.code c], .code) else some ([], .line)
  | .block, c => some ([], if c = '*' then .star else .block)
  | .star, c => some ([], if c = '/' then .code else if c = '*' then .star else .block)
  | .literal quote st content, c =>
    if c = quote ∧ st.closable = true then some ([.literal content], .code)
    else (inLiteral quote st c).map fun st' => ([], .literal quote st' (content ++ [c]))

/-- A text. -/
def advance : State → Text → Option (List Piece × State)
  | st, [] => some ([], st)
  | st, c :: s => (step st c).bind fun r => (advance r.2 s).map fun r' => (r.1 ++ r'.1, r'.2)

/-- What is left at the end of the script; none in a literal or a comment. -/
def State.rest : State → Option (List Piece)
  | .code => some []
  | .slash => some [.code '/']
  | .line => some []
  | _ => none

/-- **The pieces of a script.** -/
def pieces (s : Text) : Option (List Piece) := (advance .code s).bind fun r => r.2.rest.map (r.1 ++ ·)

/-- One text behind another. -/
theorem advance_append (st : State) (s t : Text) :
    advance st (s ++ t) = (advance st s).bind fun r => (advance r.2 t).map fun r' => (r.1 ++ r'.1, r'.2) := by
  induction s generalizing st with
  | nil =>
    show advance st t = (advance st t).map _
    simp
  | cons c s ih =>
    rw [List.cons_append, advance, advance]
    cases step st c with
    | none => rfl
    | some r =>
      rw [Option.bind_some, Option.bind_some, ih]
      cases advance r.2 s with
      | none => rfl
      | some r' =>
        rw [Option.bind_some, Option.map_some, Option.bind_some]
        cases advance r'.2 t <;> simp [List.append_assoc]

/-- **A text without the quotation mark in a literal.** -/
theorem advance_literal {quote : Char} {s : Text} (h : quote ∉ s) (st : LiteralState) (content : Text) :
    advance (.literal quote st content) s =
      (s.foldlM (inLiteral quote) st).map fun st' => ([], .literal quote st' (content ++ s)) := by
  induction s generalizing st content with
  | nil =>
    rw [List.append_nil]
    rfl
  | cons c s ih =>
    rw [List.mem_cons, not_or] at h
    rw [advance, step, if_neg fun hc => h.1 hc.1.symm, List.foldlM_cons]
    cases inLiteral quote st c with
    | none => rfl
    | some st' =>
      rw [Option.map_some, Option.bind_some, ih h.2, List.append_assoc]
      show _ = (s.foldlM (inLiteral quote) st').map _
      cases s.foldlM (inLiteral quote) st' <;> rfl

/-- Where the quotation mark does not end the literal, it does not end it before the line does. -/
theorem advance_of_not_closable {st : LiteralState} (h : st.closable = false) (content s : Text) :
    advance (.literal '"' st content) ('"' :: ';' :: '\n' :: s) = none := by
  have hhex : Queries.hexValue '"' = none := by decide
  rw [advance, step, if_neg fun hc => by rw [h] at hc; cases hc.2]
  cases st with
  | text => cases h
  | continued => cases h
  | escape => rfl
  | hex n => rw [inLiteral, hhex]; rfl
  | unicode => rw [inLiteral, hhex]; rfl
  | point v => cases v <;> rw [inLiteral, hhex] <;> rfl

/-- **The content of a literal between its quotation marks.** -/
theorem advance_content {s : Text} (hquote : '"' ∉ s) (h : IsContent '"' s) (r : Text) :
    advance (.literal '"' .text []) (s ++ '"' :: r) =
      (advance .code r).map fun r' => (.literal s :: r'.1, r'.2) := by
  obtain ⟨st, hst, hclosable⟩ := (Option.any_eq_true _ _).mp h
  rw [advance_append, advance_literal hquote, hst, Option.map_some, Option.bind_some, List.nil_append, advance, step,
    if_pos ⟨rfl, hclosable⟩, Option.bind_some, Option.map_map]
  rfl

/-- **Where the line ends behind the literal**, what stands in it is the content of one. -/
theorem isContent_of_advance {s r : Text} (hquote : '"' ∉ s)
    (h : advance (.literal '"' .text []) (s ++ '"' :: ';' :: '\n' :: r) ≠ none) : IsContent '"' s := by
  rw [advance_append, advance_literal hquote] at h
  unfold IsContent
  cases hfold : s.foldlM (inLiteral '"') .text with
  | none =>
    rw [hfold] at h
    exact absurd rfl h
  | some st =>
    rw [Option.any_some]
    cases hclosable : st.closable with
    | true => rfl
    | false =>
      rw [hfold, Option.map_some, Option.bind_some, advance_of_not_closable hclosable] at h
      exact absurd rfl h

end JavaScript
