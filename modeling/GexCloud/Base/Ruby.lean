import GexCloud.Support.Decimal

/-! # What the Ruby scripts take from the language

The errors a script can end with, stores of files, white space, replacing a string, and regular
expressions. A regular expression is known by what the scripts do with it: whether it matches a line and
what replacing all its matches makes of the line. -/

namespace GexCloud

open Texts

/-- The ways a Ruby script is cut short. -/
inductive RubyError
  /-- `throw Exception.new message` (`assert` and the scripts themselves). -/
  | exception (message : Text)
  /-- `raise ArgumentError, message`. -/
  | argumentError (message : Text)
  /-- A method called on `nil`. -/
  | noMethodError
  /-- `texec` of a command that reports failure. -/
  | commandFailed (command : Text)
  /-- `Errno::ENOENT`. -/
  | noSuchFile (path : Text)
  /-- `Errno::EISDIR`: a directory is read as a file. -/
  | isDirectory (path : Text)
  /-- `Regexp.new` of a string that is no regular expression. -/
  | regexpError (source : Text)
  /-- A replacement names a group that the expression does not have. -/
  | indexError (name : Text)
  /-- `raise RuntimeError, message`. -/
  | runtimeError (message : Text)
  deriving DecidableEq

/-- `assert expression, message`. -/
def assert (expression : Bool) (message : Text) : Except RubyError Unit :=
  if expression then .ok () else .error (.exception message)

/-- An assertion passes exactly when its expression is true. -/
@[simp] theorem assert_eq_ok_iff {expression : Bool} {message : Text} :
    assert expression message = .ok () ↔ expression = true := by
  cases expression <;> simp [assert]

/-- A store of regular files: the content at each path. -/
abbrev Files := Text → Option Text

/-- The white space of `String#strip`. -/
def isSpace (code : Nat) : Bool := code == 0 || (decide (9 ≤ code) && decide (code ≤ 13)) || code == 32

/-- `String#strip`. -/
def strip (s : Text) : Text := stripBy (fun c => isSpace c.toNat) s

/-- A digit is no white space. -/
theorem isSpace_of_isDigit {c : Char} (h : c.isDigit = true) : isSpace c.toNat = false := by
  have hge := le_toNat_of_isDigit h
  have h0 : c.toNat ≠ 0 := by omega
  have h13 : ¬ c.toNat ≤ 13 := by omega
  have h32 : c.toNat ≠ 32 := by omega
  simp [isSpace, h0, h13, h32]

/-! ## Replacing a string -/

/-- `text.sub! pattern, replacement` with a string as pattern and a replacement without backslashes: the
changed text, or nil. -/
def sub (pattern replacement : Text) : Text → Option Text
  | [] => if pattern = [] then some replacement else none
  | c :: s =>
    if pattern <+: c :: s then some (replacement ++ (c :: s).drop pattern.length)
    else (sub pattern replacement s).map (c :: ·)

/-- What a replacement is made of, once its backslashes are read. -/
inductive Piece
  /-- A character that stands for itself. -/
  | letter (c : Char)
  /-- The text that is replaced. -/
  | matched
  /-- The text before it. -/
  | before
  /-- The text behind it. -/
  | after
  deriving DecidableEq

/-- A backslash and `c` in the replacement of a string, which has no groups: `\1` to `\9` are empty. -/
def backslash (c : Char) : List Piece :=
  if c = '0' ∨ c = '&' then [.matched]
  else if c = '\x60' then [.before]
  else if c = '\x27' then [.after]
  else if c = '\\' then [.letter c]
  else if '1' ≤ c ∧ c ≤ '9' then []
  else [.letter '\\', .letter c]

/-- The pieces of a replacement. `\k<name>` names a group, and a string has none. -/
def pieces : Text → Except RubyError (List Piece)
  | '\\' :: 'k' :: '<' :: rest =>
    if '>' ∈ rest then .error (.indexError (rest.takeWhile (· != '>')))
    else .error (.runtimeError "invalid group name reference format".toList)
  | '\\' :: c :: rest => do return backslash c ++ (← pieces rest)
  | c :: rest => do return .letter c :: (← pieces rest)
  | [] => .ok []

/-- What a piece stands for at a match. -/
def Piece.text (before matched after : Text) : Piece → Text
  | .letter c => [c]
  | .matched => matched
  | .before => before
  | .after => after

/-- The scan of `gsub`: `passed` is what lies before the text, and `skip` characters of a match are still
to be passed over. An empty pattern is found before each character and at the end. -/
def substituteFrom (pattern : Text) (replacement : List Piece) : Text → Nat → Text → Text
  | passed, _, [] => if pattern = [] then replacement.flatMap (Piece.text passed [] []) else []
  | passed, skip + 1, c :: s => substituteFrom pattern replacement (passed ++ [c]) skip s
  | passed, 0, c :: s =>
    if pattern <+: c :: s then
      replacement.flatMap (Piece.text passed pattern ((c :: s).drop pattern.length)) ++
        (if pattern = [] then [c] else []) ++
          substituteFrom pattern replacement (passed ++ [c]) (pattern.length - 1) s
    else c :: substituteFrom pattern replacement (passed ++ [c]) 0 s

/-- `text.gsub pattern, replacement` with a string as pattern and a replacement whose pieces are known. -/
def substitute (pattern : Text) (replacement : List Piece) (text : Text) : Text :=
  substituteFrom pattern replacement [] 0 text

/-- `text.gsub pattern, replacement` with a string as pattern. -/
def gsub (pattern replacement text : Text) : Except RubyError Text :=
  if pattern <:+: text then (pieces replacement).map fun replacement => substitute pattern replacement text
  else .ok text

/-- `text[start ... stop]`; `none` for nil. -/
def slice (start stop : Nat) (text : Text) : Option Text :=
  if start ≤ text.length then some ((text.take stop).drop start) else none

/-- Nothing is replaced in a text without a letter of the pattern. -/
theorem sub_eq_none {pattern replacement text : Text} {c : Char} (hc : c ∈ pattern) (h : c ∉ text) :
    sub pattern replacement text = none := by
  induction text with
  | nil => exact if_neg (List.ne_nil_of_mem hc)
  | cons d text ih =>
    have hpre : ¬ pattern <+: d :: text := fun hpre => h (hpre.subset hc)
    rw [sub, if_neg hpre, ih fun hmem => h (List.mem_cons_of_mem d hmem), Option.map_none]

/-- A prefix is replaced. -/
theorem sub_front {pattern replacement rest : Text} (h : pattern ≠ []) :
    sub pattern replacement (pattern ++ rest) = some (replacement ++ rest) := by
  cases pattern with
  | nil => exact absurd rfl h
  | cons c pattern =>
    have hpre : c :: pattern <+: c :: (pattern ++ rest) := List.prefix_append (c :: pattern) rest
    rw [List.cons_append, sub, if_pos hpre, ← List.cons_append, List.drop_left]

/-- An ending is replaced when the text before it does not have the pattern, whose first letter is not
repeated. -/
theorem sub_append {c : Char} {pattern replacement text : Text} (hc : c ∉ pattern)
    (h : ¬ c :: pattern <:+: text) :
    sub (c :: pattern) replacement (text ++ c :: pattern) = some (text ++ replacement) := by
  induction text with
  | nil =>
    have hsub : sub (c :: pattern) replacement (c :: pattern ++ []) = some (replacement ++ []) :=
      sub_front (List.cons_ne_nil c pattern)
    rwa [List.append_nil, List.append_nil] at hsub
  | cons d text ih =>
    have hpre : ¬ c :: pattern <+: d :: (text ++ c :: pattern) := by
      intro hpre
      rcases List.prefix_or_prefix_of_prefix hpre (List.prefix_append (d :: text) _) with hin | ⟨t, ht⟩
      · exact h hin.isInfix
      · cases t with
        | nil => exact h (by rw [← ht, List.append_nil])
        | cons x t =>
          -- what the pattern has behind the text starts with its first letter again
          have hrest : x :: t <+: c :: pattern := by
            rw [← List.prefix_append_right_inj (d :: text), ht]
            exact hpre
          obtain rfl : x = c := (List.cons_prefix_cons.mp hrest).1
          rw [List.cons_append] at ht
          exact hc (List.tail_eq_of_cons_eq ht ▸ List.mem_append_right text List.mem_cons_self)
    rw [List.cons_append, sub, if_neg hpre, ih fun hin => h (hin.trans (List.suffix_cons d text).isInfix),
      Option.map_some]
    rfl

/-- Nothing is replaced in a text without a letter of the pattern. -/
theorem substituteFrom_eq_self {pattern text : Text} {c : Char} (hc : c ∈ pattern) (h : c ∉ text)
    (replacement : List Piece) (passed : Text) :
    substituteFrom pattern replacement passed 0 text = text := by
  induction text generalizing passed with
  | nil => exact if_neg (List.ne_nil_of_mem hc)
  | cons d text ih =>
    have hpre : ¬ pattern <+: d :: text := fun hpre => h (hpre.subset hc)
    rw [substituteFrom, if_neg hpre, ih fun hmem => h (List.mem_cons_of_mem d hmem)]

/-- Characters of a match are passed over. -/
theorem substituteFrom_append (pattern : Text) (replacement : List Piece) (passed matched text : Text) :
    substituteFrom pattern replacement passed matched.length (matched ++ text) =
      substituteFrom pattern replacement (passed ++ matched) 0 text := by
  induction matched generalizing passed with
  | nil => rw [List.append_nil, List.nil_append, List.length_nil]
  | cons c matched ih =>
    rw [List.length_cons, List.cons_append, substituteFrom, ih, List.append_assoc, List.singleton_append]

/-- A prefix is taken off, and nothing behind it. -/
theorem substitute_front {c d : Char} {pattern text : Text} (hd : d ∈ c :: pattern) (h : d ∉ text) :
    substitute (c :: pattern) [] (c :: pattern ++ text) = text := by
  have hpre : c :: pattern <+: c :: (pattern ++ text) := List.prefix_append (c :: pattern) text
  rw [substitute, List.cons_append, substituteFrom, if_pos hpre, List.length_cons, Nat.add_sub_cancel,
    substituteFrom_append, substituteFrom_eq_self hd h]
  rfl

/-- What stands between two texts. -/
theorem slice_between {before between after : Text} {start stop : Nat} (hstart : start = before.length)
    (hstop : stop = (before ++ between).length) :
    slice start stop (before ++ between ++ after) = some between := by
  have hle : start ≤ (before ++ between ++ after).length := by
    rw [List.length_append, List.length_append]
    omega
  rw [slice, if_pos hle, hstop, hstart, List.take_left, List.drop_left]

/-! ## Regular expressions and search arguments -/

/-- A regular expression: whether it matches a line, and `line.gsub(re, replacement)`. -/
structure Regexp where
  /-- Whether the expression matches somewhere in the line. -/
  isMatch : Text → Bool
  /-- The line with every match replaced; the replacement comes first. It can name a group that the
  expression does not have. -/
  gsub : Text → Text → Except RubyError Text

/-- The line with every match replaced, and the line itself where `gsub` raises. -/
def Regexp.replaceAll (re : Regexp) (replacement line : Text) : Text :=
  match re.gsub replacement line with
  | .ok text => text
  | .error _ => line

/-- An expression that matches nothing. -/
def Regexp.nothing : Regexp := ⟨fun _ => false, fun _ line => .ok line⟩

/-- `/c/` for a letter. -/
def Regexp.letter (c : Char) : Regexp where
  isMatch line := line.contains c
  gsub replacement line := GexCloud.gsub [c] replacement line

/-- A search argument. `line.match(search)` and `line.gsub!(search, …)` read a `String` differently:
the first compiles it to a regular expression, the second takes its characters literally. -/
structure Pattern where
  /-- What `line.match(search)` tries; a `String` may be no regular expression. -/
  matcher : Except RubyError Regexp
  /-- What `line.gsub!(search, …)` replaces. -/
  substituter : Regexp

/-- A `Regexp` is read the same way by `match` and by `gsub!`. -/
def Pattern.ofRegexp (re : Regexp) : Pattern := ⟨.ok re, re⟩

/-- A `String` as a search argument: `compile` is `Regexp.new`. -/
def Pattern.ofString (compile : Text → Except RubyError Regexp) (search : Text) : Pattern where
  matcher := compile search
  substituter := ⟨fun line => decide (search <:+: line), fun replacement line => gsub search replacement line⟩

/-- The expression that tells the lines a search argument is about: a `String` that is no regular
expression is about none. -/
def Pattern.regexp (search : Pattern) : Regexp :=
  match search.matcher with
  | .ok re => re
  | .error _ => .nothing

/-- A `Regexp` is matched as it is. -/
@[simp] theorem Pattern.ofRegexp_matcher (re : Regexp) : (ofRegexp re).matcher = .ok re := rfl

/-- And it is substituted as it is. -/
@[simp] theorem Pattern.ofRegexp_substituter (re : Regexp) : (ofRegexp re).substituter = re := rfl

/-- So it tells the lines that it is about. -/
@[simp] theorem Pattern.ofRegexp_regexp (re : Regexp) : (ofRegexp re).regexp = re := rfl

end GexCloud
