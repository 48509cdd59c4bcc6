import GexCloud.Support.BitCodes
import GexCloud.Support.Texts
import Mathlib.Data.List.GetD
import Mathlib.Data.Nat.Digits.Defs

/-! # `basexx.lua`: the encodings behind the secret of the web proxy

`nginx-jwt.lua` reads its secret with `basexx.from_base64` when it comes encoded. The module encodes by way of texts
of zeros and ones, and finds the value of a character with `string.find`, which takes the character for a pattern.

* `fromBit`, `toBit`, `fromHex`, `toHex`, `fromBasexx`, `toBasexx` and what is built on them — the functions of the
  module; strings of bytes are texts of characters below 256.
* `jwtSecret` — the secret of `nginx-jwt.lua`.
* **`fromBasexx_toBasexx`** — what is encoded is decoded, with an alphabet in which nothing is special.
* **`encodings_decoded`**, **`jwtSecret_eq`** — for the encodings of the module and for the secret.
* **`decodes_iff`** — what is decoded without an error. -/

namespace GexCloud.WebProxy.Basexx

open Texts BitCodes

/-! ## The standard library -/

/-- The characters are bytes. -/
def IsBytes (s : Text) : Prop := ∀ c ∈ s, c.toNat < 256

instance : DecidablePred IsBytes := fun s => List.decidableBAll (fun c : Char => c.toNat < 256) s

/-- A condition on the characters of a text, checked one by one. -/
theorem forall_mem_of_all {P : Char → Prop} [DecidablePred P] {s : Text} (h : (s.all fun c => decide (P c)) = true) :
    ∀ c ∈ s, P c := fun c hc => of_decide_eq_true (List.all_eq_true.mp h c hc)

/-- `string.char`. -/
def stringChar (n : Nat) : Option Char := if n < 256 then some (Char.ofNat n) else none

/-- The value of a digit. -/
def digitValue (c : Char) : Option Nat :=
  if '0' ≤ c ∧ c ≤ '9' then some (c.toNat - 48)
  else if 'a' ≤ c ∧ c ≤ 'z' then some (c.toNat - 87)
  else if 'A' ≤ c ∧ c ≤ 'Z' then some (c.toNat - 55)
  else none

/-- `tonumber` of some digits. -/
def tonumberFrom (base : Nat) : Nat → Text → Option Nat
  | n, [] => some n
  | n, c :: s =>
    match digitValue c with
    | some d => if d < base then tonumberFrom base (n * base + d) s else none
    | none => none

/-- `tonumber(s, base)` of digits, the only strings that the encoders write. Blanks around them and a sign, which Lua
takes as well, are not digits here. -/
def tonumber (s : Text) (base : Nat) : Option Nat := if s = [] then none else tonumberFrom base 0 s

/-- `gsub` of so many arbitrary characters; the rest of the string stays. -/
def gsubEvery (w : Nat) (f : Text → Option Char) (s : Text) : Option Text :=
  ((groups w s).mapM fun cc => if cc.length = w then (f cc).map ([·]) else some cc).map List.flatten

/-- `string.find(alphabet, c) - 1`, where `c` is a pattern; `none` when that raises. -/
def findIndex (alphabet : Text) (c : Char) : Option Nat :=
  match c with
  -- any character
  | '.' => if alphabet = [] then none else some 0
  -- the start
  | '^' => some 0
  -- the end
  | '$' => some alphabet.length
  -- malformed patterns
  | '%' | '(' | '[' => none
  | c => if c ∈ alphabet then some (alphabet.idxOf c) else none

/-! ## The functions of the module -/

/-- The loop of `divide_string`, from the `i`-th character on, with the piece that has been started. -/
def divideLoop (max : Nat) : Nat → Text → Text → List Text
  | _, _, [] => []
  | i, piece, c :: s =>
    if i % max = 0 then (piece ++ [c]) :: divideLoop max (i + 1) [] s
    else if s = [] then [piece ++ [c]]
    else divideLoop max (i + 1) (piece ++ [c]) s

/-- `divide_string`. -/
def divideString (str : Text) (max : Nat) : List Text := divideLoop max 1 [] str

/-- A binary digit. -/
def bitChar (b : Nat) : Char := if b = 1 then '1' else '0'

/-- `number_to_bit`: the loop takes the lowest digit first. -/
def numberToBit (num length : Nat) : Text :=
  let bits := (Nat.digits 2 num).map bitChar
  (bits ++ List.replicate (length - bits.length) '0').reverse

/-- `bitMap`. -/
def bitMap (c : Char) : Char := if c = 'o' then '0' else if c = 'i' ∨ c = 'l' then '1' else c

/-- `basexx.from_bit`. -/
def fromBit (str : Text) : Option Text :=
  gsubEvery 8 (fun cc => (tonumber cc 2).bind stringChar) ((str.map Char.toLower).map bitMap)

/-- The loop over the eight bits of a byte, the lowest first. -/
def lowBits : Nat → Nat → Text
  | 0, _ => []
  | i + 1, byte => bitChar (byte % 2) :: lowBits i (byte / 2)

/-- `basexx.to_bit`. -/
def toBit (str : Text) : Text := str.flatMap fun c => (lowBits 8 c.toNat).reverse

/-- `basexx.from_hex`. -/
def fromHex (str : Text) : Option Text := gsubEvery 2 (fun cc => (tonumber cc 16).bind stringChar) str

/-- A hexadecimal digit of `%02X`. -/
def hexChar (n : Nat) : Char := if n < 10 then Char.ofNat (48 + n) else Char.ofNat (55 + n)

/-- `basexx.to_hex`. -/
def toHex (str : Text) : Text := str.flatMap fun c => [hexChar (c.toNat / 16), hexChar (c.toNat % 16)]

/-- `from_basexx`. -/
def fromBasexx (str alphabet : Text) (bits : Nat) : Option Text :=
  ((str.filter (· ≠ '=')).mapM fun c => (findIndex alphabet c).map (numberToBit · bits)).bind fun result =>
    fromBit (whole 8 result.flatten)

/-- `to_basexx`. -/
def toBasexx (str alphabet : Text) (bits : Nat) (pad : Text) : Option Text :=
  ((divideString (toBit str) bits).mapM fun value =>
    (tonumber (fillUp bits '0' value) 2).map fun pos => (alphabet.drop pos).take 1).map fun result =>
      result.flatten ++ pad

/-- `base32Alphabet`. -/
def base32Alphabet : Text := "ABCDEFGHIJKLMNOPQRSTUVWXYZ234567".toList

/-- `crockfordAlphabet`. -/
def crockfordAlphabet : Text := "0123456789ABCDEFGHJKMNPQRSTVWXYZ".toList

/-- `base64Alphabet`. -/
def base64Alphabet : Text := "ABCDEFGHIJKLMNOPQRSTUVWXYZabcdefghijklmnopqrstuvwxyz0123456789+/".toList

/-- `crockfordMap`. -/
def crockfordMap (c : Char) : Char :=
  if c = 'O' then '0' else if c = 'I' ∨ c = 'L' then '1' else if c = 'U' then 'V' else c

/-- `basexx.from_base32`. -/
def fromBase32 (str : Text) : Option Text := fromBasexx (str.map Char.toUpper) base32Alphabet 5

/-- `basexx.to_base32`. -/
def toBase32 (str : Text) : Option Text :=
  toBasexx str base32Alphabet 5
    (([0, 6, 4, 3, 1].map fun n => List.replicate n '=').getD (str.length % 5) [])

/-- `basexx.from_crockford`. -/
def fromCrockford (str : Text) : Option Text :=
  fromBasexx ((str.map Char.toUpper).map crockfordMap) crockfordAlphabet 5

/-- `basexx.to_crockford`. -/
def toCrockford (str : Text) : Option Text := toBasexx str crockfordAlphabet 5 []

/-- `basexx.from_base64`. -/
def fromBase64 (str : Text) : Option Text := fromBasexx str base64Alphabet 6

/-- `basexx.to_base64`. -/
def toBase64 (str : Text) : Option Text :=
  toBasexx str base64Alphabet 6 (([0, 2, 1].map fun n => List.replicate n '=').getD (str.length % 3) [])

/-- A text with one character in the place of another. -/
def gsubChar (old new : Char) (s : Text) : Text := s.map fun c => if c = old then new else c

/-- The secret of `nginx-jwt.lua`, with `JWT_SECRET_IS_BASE64_ENCODED` or without. -/
def jwtSecret (isBase64Encoded : Bool) (secret : Text) : Option Text :=
  if isBase64Encoded then
    let r := secret.length % 4
    let secret := if r = 2 then secret ++ "==".toList else if r = 3 then secret ++ "=".toList else secret
    fromBase64 (gsubChar '_' '/' (gsubChar '-' '+' secret))
  else some secret

/-! ## Texts of zeros and ones -/

/-- Bits as a text. -/
def bitText (bits : List Bool) : Text := bits.map fun b => if b then '1' else '0'

@[simp] theorem length_bitText (bits : List Bool) : (bitText bits).length = bits.length := List.length_map _

/-- The digits of two lists of bits. -/
@[simp] theorem bitText_append (a b : List Bool) : bitText (a ++ b) = bitText a ++ bitText b := List.map_append

/-- The digit of one bit. -/
@[simp] theorem bitText_cons (b : Bool) (bits : List Bool) :
    bitText (b :: bits) = (if b then '1' else '0') :: bitText bits := rfl

/-- The lowest bit comes last. -/
theorem bitsOf_succ (w n : Nat) : bitsOf (w + 1) n = bitsOf w (n / 2) ++ [decide (n % 2 = 1)] := by
  induction w with
  | zero => simp [bitsOf]
  | succ w ih =>
    rw [bitsOf, ih, bitsOf, Nat.pow_succ, Nat.mul_comm, ← Nat.div_div_eq_div_mul]
    rfl

/-- The bits from the lowest on, turned around. -/
theorem reverse_lowBits (w n : Nat) : (lowBits w n).reverse = bitText (bitsOf w n) := by
  induction w generalizing n with
  | zero => rfl
  | succ w ih =>
    rw [lowBits, List.reverse_cons, ih, bitsOf_succ, bitText_append]
    congr 1
    simp [bitText, bitChar]

/-- The digits of a number are its lowest bits. -/
theorem digits_eq_lowBits {w n : Nat} (h : n < 2 ^ w) :
    (Nat.digits 2 n).map bitChar ++ List.replicate (w - ((Nat.digits 2 n).map bitChar).length) '0' =
      lowBits w n := by
  induction w generalizing n with
  | zero =>
    obtain rfl : n = 0 := by omega
    simp [lowBits]
  | succ w ih =>
    by_cases hzero : n = 0
    · subst hzero
      have hnext := @ih 0 (Nat.two_pow_pos w)
      simp only [Nat.digits_zero, List.map_nil, List.nil_append, List.length_nil, Nat.sub_zero] at hnext
      simp only [Nat.digits_zero, List.map_nil, List.nil_append, List.length_nil, Nat.sub_zero, lowBits,
        List.replicate_succ, hnext]
      rfl
    · have hhalf : n / 2 < 2 ^ w := by
        rw [Nat.pow_succ] at h
        omega
      rw [Nat.digits_def' (by decide) (Nat.pos_of_ne_zero hzero), List.map_cons, List.length_cons,
        Nat.add_sub_add_right, List.cons_append, ih hhalf, lowBits]

/-- The bits of a number that has no more. -/
theorem numberToBit_eq {w n : Nat} (h : n < 2 ^ w) : numberToBit n w = bitText (bitsOf w n) := by
  rw [numberToBit, digits_eq_lowBits h, reverse_lowBits]

/-- The bits of bytes. -/
theorem toBit_eq (str : Text) : toBit str = bitText (bitsOfBytes (str.map Char.toNat)) := by
  unfold toBit bitsOfBytes bitText
  rw [List.flatMap_map, List.map_flatMap]
  exact List.flatMap_congr fun c _ => reverse_lowBits 8 c.toNat

/-- Digits are read as a number. -/
theorem tonumberFrom_bitText (n : Nat) (bits : List Bool) :
    tonumberFrom 2 n (bitText bits) = some (n * 2 ^ bits.length + ofBits bits) := by
  induction bits generalizing n with
  | nil => simp [bitText, tonumberFrom, ofBits]
  | cons b bits ih =>
    have hdigit : tonumberFrom 2 n (bitText (b :: bits)) = tonumberFrom 2 (n * 2 + b.toNat) (bitText bits) := by
      cases b <;> rfl
    rw [hdigit, ih, ofBits, List.length_cons, Nat.pow_succ]
    congr 1
    rw [Nat.add_mul, Nat.mul_assoc, Nat.mul_comm 2, Nat.add_assoc]

/-- A text of zeros and ones is read as a number. -/
theorem tonumber_bitText {bits : List Bool} (h : bits ≠ []) : tonumber (bitText bits) 2 = some (ofBits bits) := by
  have hne : bitText bits ≠ [] := fun hnil => h (List.map_eq_nil_iff.mp hnil)
  rw [tonumber, if_neg hne, tonumberFrom_bitText]
  simp

/-- Groups of a mapped list. -/
theorem groupsFrom_map {α β : Type} (f : α → β) (w : Nat) (group l : List α) :
    groupsFrom w (group.map f) (l.map f) = (groupsFrom w group l).map (List.map f) := by
  induction l generalizing group with
  | nil => cases group <;> rfl
  | cons x l ih =>
    rw [List.map_cons, groupsFrom_cons, groupsFrom_cons, List.length_map]
    have happend : group.map f ++ [f x] = (group ++ [x]).map f := by simp
    rw [happend, ih]
    split
    · rw [List.map_cons, ← ih]
      rfl
    · rfl

/-- `divide_string` cuts into groups. -/
theorem divideLoop_eq {max : Nat} (q : Nat) {piece : Text} (hpiece : piece.length < max) (str : Text)
    (hne : piece = [] ∨ str ≠ []) :
    divideLoop max (q * max + piece.length + 1) piece str = groupsFrom max piece str := by
  induction str generalizing q piece with
  | nil =>
    obtain rfl : piece = [] := hne.resolve_right fun h => h rfl
    rfl
  | cons c str ih =>
    have hmod : (q * max + piece.length + 1) % max = 0 ↔ piece.length + 1 = max := by
      rw [Nat.add_assoc, Nat.mul_comm, Nat.mul_add_mod]
      constructor
      · intro h
        have hdvd := Nat.dvd_of_mod_eq_zero h
        have hle := Nat.le_of_dvd (Nat.zero_lt_succ _) hdvd
        omega
      · intro h
        rw [h, Nat.mod_self]
    rw [divideLoop, groupsFrom_cons]
    by_cases hfull : piece.length + 1 = max
    · rw [if_pos (hmod.mpr hfull), if_pos hfull]
      have hnext := @ih (q + 1) [] (by rw [List.length_nil]; omega) (.inl rfl)
      rw [List.length_nil, Nat.add_zero, Nat.succ_mul] at hnext
      rw [Nat.add_assoc (q * max), hfull, hnext]
    · rw [if_neg (mt hmod.mp hfull), if_neg hfull]
      cases str with
      | nil =>
        rw [if_pos rfl]
        cases piece <;> rfl
      | cons c' str =>
        have hlen : (piece ++ [c]).length = piece.length + 1 := by simp
        have hnext := @ih q (piece ++ [c]) (by omega) (.inr (List.cons_ne_nil c' str))
        rw [hlen, ← Nat.add_assoc] at hnext
        rw [if_neg (List.cons_ne_nil c' str), hnext]

/-- The groups of a text of zeros and ones. -/
theorem divideString_bitText {max : Nat} (hmax : 0 < max) (bits : List Bool) :
    divideString (bitText bits) max = (groups max bits).map bitText := by
  have h := @divideLoop_eq max 0 [] hmax (bitText bits) (.inl rfl)
  rw [Nat.zero_mul, List.length_nil] at h
  rw [divideString, groups]
  exact h.trans (groupsFrom_map _ max [] bits)

/-- Computations that all succeed. -/
theorem mapM_eq_some {α β : Type} {f : α → Option β} {g : α → β} {l : List α} (h : ∀ x ∈ l, f x = some (g x)) :
    l.mapM f = some (l.map g) := by
  induction l with
  | nil => rfl
  | cons x l ih =>
    rw [List.mapM_cons, h x List.mem_cons_self, ih fun y hy => h y (List.mem_cons_of_mem x hy)]
    rfl

/-- Cutting and filling up commute with writing bits as a text. -/
theorem fillUp_bitText (w : Nat) (bits : List Bool) : fillUp w '0' (bitText bits) = bitText (fillUp w false bits) := by
  rw [fillUp, fillUp, bitText_append, length_bitText]
  congr 1
  simp [bitText]

/-- The same of what is left over. -/
theorem whole_bitText (m : Nat) (bits : List Bool) : whole m (bitText bits) = bitText (whole m bits) := by
  rw [whole, whole, length_bitText]
  exact (List.map_take ..).symm

/-- A text of zeros and ones has no letters to be replaced. -/
theorem bitMap_bitText (bits : List Bool) : ((bitText bits).map Char.toLower).map bitMap = bitText bits := by
  induction bits with
  | nil => rfl
  | cons b bits ih =>
    rw [bitText_cons, List.map_cons, List.map_cons, ih]
    cases b <;> rfl

/-- Pieces that are all replaced by one character. -/
theorem flatten_mapM_eq {α β : Type} {f : α → Option (List β)} {g : α → β} {l : List α}
    (h : ∀ x ∈ l, f x = some [g x]) : (l.mapM f).map List.flatten = some (l.map g) := by
  rw [mapM_eq_some h, Option.map_some]
  exact congrArg some (List.flatMap_pure_eq_map g l)

/-- **`from_bit` makes bytes of bits**, when nothing is left over. -/
theorem fromBit_bitText {bits : List Bool} (h : bits.length % 8 = 0) :
    fromBit (bitText bits) = some (((groups 8 bits).map ofBits).map Char.ofNat) := by
  have hgroups : groups 8 (bitText bits) = (groups 8 bits).map bitText := groupsFrom_map _ 8 [] bits
  have hbyte : ∀ g ∈ groups 8 bits, (tonumber (bitText g) 2).bind stringChar = some (Char.ofNat (ofBits g)) := by
    intro g hg
    have hlen := length_of_mem_groups (by decide) h hg
    have hlt := ofBits_lt g
    rw [hlen] at hlt
    have hne : g ≠ [] := by
      rintro rfl
      cases hlen
    rw [tonumber_bitText hne]
    exact if_pos hlt
  rw [fromBit, bitMap_bitText, gsubEvery, hgroups, List.mapM_map, List.map_map]
  refine flatten_mapM_eq fun g hg => ?_
  rw [Function.comp_apply, length_bitText, if_pos (length_of_mem_groups (by decide) h hg), hbyte g hg]
  rfl

/-! ## What is encoded is decoded -/

/-- Nothing in an alphabet is special, neither as a pattern nor as filling, and no character is in it twice. -/
structure Plain (alphabet : Text) : Prop where
  nodup : alphabet.Nodup
  plain : ∀ c ∈ alphabet, c ∉ "=.^$%([".toList

variable {alphabet : Text} {bits : Nat} {str pad : Text}

/-- A character of such an alphabet is found where it is. -/
theorem findIndex_eq (h : Plain alphabet) {c : Char} (hc : c ∈ alphabet) :
    findIndex alphabet c = some (alphabet.idxOf c) := by
  have hplain := h.plain c hc
  unfold findIndex
  split
  all_goals first
    | exact absurd (by decide) hplain
    | exact if_pos hc

/-- A character is found by its place. -/
theorem idxOf_getD (h : alphabet.Nodup) {n : Nat} (hn : n < alphabet.length) :
    alphabet.idxOf (alphabet.getD n 'A') = n := by
  rw [List.getD_eq_getElem _ _ hn]
  exact h.idxOf_getElem n hn

/-- `to_basexx` writes groups of bits. -/
theorem toBasexx_eq (hbits : 0 < bits) (hlen : alphabet.length = 2 ^ bits) (str pad : Text) :
    toBasexx str alphabet bits pad =
      some (encode bits (alphabet.getD · 'A') (str.map Char.toNat) ++ pad) := by
  obtain ⟨_, -, -, hall⟩ := exists_fillUp false hbits (bitsOfBytes (str.map Char.toNat))
  have hvalue : ∀ g ∈ groups bits (bitsOfBytes (str.map Char.toNat)),
      ((tonumber (fillUp bits '0' (bitText g)) 2).map fun pos => (alphabet.drop pos).take 1) =
        some [alphabet.getD (ofBits (fillUp bits false g)) 'A'] := by
    intro g hg
    have hg' := hall _ (List.mem_map_of_mem hg)
    have hlt := ofBits_lt (fillUp bits false g)
    rw [hg', ← hlen] at hlt
    have hne : fillUp bits false g ≠ [] := by
      intro hnil
      rw [hnil, List.length_nil] at hg'
      omega
    rw [fillUp_bitText, tonumber_bitText hne, Option.map_some, List.getD_eq_getElem _ _ hlt,
      List.drop_eq_getElem_cons hlt]
    rfl
  rw [toBasexx, toBit_eq, divideString_bitText hbits, List.mapM_map]
  obtain ⟨pieces, hpieces, hflatten⟩ := Option.map_eq_some_iff.mp (flatten_mapM_eq hvalue)
  simp only [Function.comp_def]
  rw [hpieces, Option.map_some, hflatten]
  rfl

/-- The characters that are decoded. -/
def Decoded (alphabet : Text) (c : Char) : Prop := c ∈ alphabet ∨ c = '.' ∨ c = '^' ∨ c = '$'

/-- The characters that are found. -/
theorem exists_findIndex_iff (h : Plain alphabet) (hne : alphabet ≠ []) {c : Char} :
    (∃ n, findIndex alphabet c = some n) ↔ Decoded alphabet c := by
  have hspecial : ∀ d ∈ "=.^$%([".toList, d ∉ alphabet := fun d hd hmem => h.plain d hmem hd
  unfold findIndex Decoded
  split
  · exact ⟨fun _ => .inr (.inl rfl), fun _ => ⟨0, if_neg hne⟩⟩
  · exact ⟨fun _ => .inr (.inr (.inl rfl)), fun _ => ⟨0, rfl⟩⟩
  · exact ⟨fun _ => .inr (.inr (.inr rfl)), fun _ => ⟨_, rfl⟩⟩
  · have := hspecial '%' (by decide)
    simp [this]
  · have := hspecial '(' (by decide)
    simp [this]
  · have := hspecial '[' (by decide)
    simp [this]
  · rename_i hdot hcaret hdollar _ _ _
    by_cases hc : c ∈ alphabet
    · rw [if_pos hc]
      exact ⟨fun _ => .inl hc, fun _ => ⟨_, rfl⟩⟩
    · rw [if_neg hc]
      constructor
      · rintro ⟨n, ⟨⟩⟩
      · rintro (hmem | rfl | rfl | rfl)
        · exact absurd hmem hc
        · exact absurd rfl hdot
        · exact absurd rfl hcaret
        · exact absurd rfl hdollar

/-- The digits of a number are zeros and ones. -/
theorem exists_numberToBit (n w : Nat) : ∃ bits, numberToBit n w = bitText bits := by
  have hdigits : ∀ l : List Nat, ∃ bits, l.map bitChar = bitText bits := fun l =>
    ⟨l.map fun b => decide (b = 1), by simp [bitText, bitChar]⟩
  obtain ⟨bits, hbits⟩ := hdigits (Nat.digits 2 n)
  refine ⟨(bits ++ List.replicate (w - bits.length) false).reverse, ?_⟩
  rw [numberToBit, hbits, length_bitText]
  simp [bitText]

/-- Computations all succeed when each does. -/
theorem exists_mapM_eq_some_iff {α β : Type} {f : α → Option β} {l : List α} :
    (∃ result, l.mapM f = some result) ↔ ∀ x ∈ l, ∃ y, f x = some y := by
  induction l with
  | nil => exact ⟨fun _ x hx => absurd hx List.not_mem_nil, fun _ => ⟨[], rfl⟩⟩
  | cons x l ih =>
    rw [List.forall_mem_cons, ← ih]
    constructor
    · rintro ⟨result, hresult⟩
      rw [List.mapM_cons] at hresult
      obtain ⟨y, hy, hresult⟩ := Option.bind_eq_some_iff.mp hresult
      obtain ⟨rest, hrest, -⟩ := Option.bind_eq_some_iff.mp hresult
      exact ⟨⟨y, hy⟩, rest, hrest⟩
    · rintro ⟨⟨y, hy⟩, rest, hrest⟩
      exact ⟨y :: rest, by rw [List.mapM_cons, hy, hrest]; rfl⟩

/-- The digits of numbers, together. -/
theorem exists_flatten_numberToBit {l : Text} {result : List Text}
    (h : (l.mapM fun c => (findIndex alphabet c).map (numberToBit · bits)) = some result) :
    ∃ all, result.flatten = bitText all := by
  induction l generalizing result with
  | nil =>
    cases h
    exact ⟨[], rfl⟩
  | cons c l ih =>
    rw [List.mapM_cons] at h
    obtain ⟨piece, hpiece, h⟩ := Option.bind_eq_some_iff.mp h
    obtain ⟨rest, hrest, h⟩ := Option.bind_eq_some_iff.mp h
    cases h
    obtain ⟨n, -, rfl⟩ := Option.map_eq_some_iff.mp hpiece
    obtain ⟨first, hfirst⟩ := exists_numberToBit n bits
    obtain ⟨all, hall⟩ := ih hrest
    exact ⟨first ++ all, by rw [List.flatten_cons, hfirst, hall, bitText_append]⟩

/-- What is left of bits when they are cut into bytes makes bytes. -/
theorem length_whole_mod (m : Nat) {α : Type} (l : List α) : (whole m l).length % m = 0 := by
  rw [whole, List.length_take, Nat.min_eq_left (Nat.sub_le _ _)]
  exact Nat.sub_mod_eq_zero_of_mod_eq (Nat.mod_mod _ _).symm

/-- **What is decoded without an error**: texts in which the filling may be anywhere, and in which a dot, a caret or a
dollar sign passes for a character of the alphabet. -/
theorem isSome_fromBasexx_iff (h : Plain alphabet) (hne : alphabet ≠ []) (str : Text) (bits : Nat) :
    (∃ text, fromBasexx str alphabet bits = some text) ↔ ∀ c ∈ str, c = '=' ∨ Decoded alphabet c := by
  have hfilter : (∀ c ∈ str, c = '=' ∨ Decoded alphabet c) ↔
      ∀ c ∈ str.filter (· ≠ '='), ∃ n, findIndex alphabet c = some n := by
    constructor
    · intro hall c hc
      obtain ⟨hmem, hneq⟩ := List.mem_filter.mp hc
      exact (exists_findIndex_iff h hne).mpr ((hall c hmem).resolve_left (of_decide_eq_true hneq))
    · intro hall c hc
      by_cases hfill : c = '='
      · exact .inl hfill
      · exact .inr ((exists_findIndex_iff h hne).mp (hall c (List.mem_filter.mpr ⟨hc, decide_eq_true hfill⟩)))
  have hfind : ∀ c, (∃ n, findIndex alphabet c = some n) ↔
      ∃ piece, (findIndex alphabet c).map (numberToBit · bits) = some piece := fun c => by
    cases findIndex alphabet c <;> simp
  rw [hfilter, forall₂_congr fun c _ => hfind c, ← exists_mapM_eq_some_iff]
  constructor
  · rintro ⟨text, htext⟩
    obtain ⟨result, hresult, -⟩ := Option.bind_eq_some_iff.mp htext
    exact ⟨result, hresult⟩
  · rintro ⟨result, hresult⟩
    obtain ⟨all, hall⟩ := exists_flatten_numberToBit hresult
    have hbytes := fromBit_bitText (length_whole_mod 8 all)
    rw [← whole_bitText, ← hall] at hbytes
    exact ⟨_, Option.bind_eq_some_iff.mpr ⟨result, hresult, hbytes⟩⟩

/-- `from_basexx` reads groups of bits. -/
theorem fromBasexx_eq (h : Plain alphabet) (hlen : alphabet.length = 2 ^ bits) {str : Text}
    (hstr : ∀ c ∈ str, c = '=' ∨ c ∈ alphabet) :
    fromBasexx str alphabet bits =
      some ((decode bits alphabet.idxOf (str.filter (· ≠ '='))).map Char.ofNat) := by
  have hpiece : ∀ c ∈ str.filter (· ≠ '='), (findIndex alphabet c).map (numberToBit · bits) =
      some (bitText (bitsOf bits (alphabet.idxOf c))) := by
    intro c hc
    obtain ⟨hmem, hneq⟩ := List.mem_filter.mp hc
    have hin := (hstr c hmem).resolve_left (of_decide_eq_true hneq)
    have hlt := List.idxOf_lt_length_iff.mpr hin
    rw [hlen] at hlt
    rw [findIndex_eq h hin, Option.map_some, numberToBit_eq hlt]
  have hflatten : ∀ l : Text, (l.map fun c => bitText (bitsOf bits (alphabet.idxOf c))).flatten =
      bitText (l.flatMap fun c => bitsOf bits (alphabet.idxOf c)) := by
    intro l
    rw [bitText, List.map_flatMap, List.flatMap_def]
    rfl
  rw [fromBasexx, mapM_eq_some hpiece, Option.bind_some, hflatten, whole_bitText,
    fromBit_bitText (length_whole_mod 8 _)]
  rfl

/-- What is encoded is made of the alphabet. -/
theorem mem_of_mem_encode (hbits : 0 < bits) (hlen : alphabet.length = 2 ^ bits) (bytes : List Nat) {c : Char}
    (hc : c ∈ encode bits (alphabet.getD · 'A') bytes) : c ∈ alphabet := by
  obtain ⟨_, -, -, hall⟩ := exists_fillUp false hbits (bitsOfBytes bytes)
  obtain ⟨g, hg, rfl⟩ := List.mem_map.mp hc
  have hlt := ofBits_lt (fillUp bits false g)
  rw [hall _ (List.mem_map_of_mem hg), ← hlen] at hlt
  change alphabet.getD (ofBits (fillUp bits false g)) 'A' ∈ alphabet
  rw [List.getD_eq_getElem _ _ hlt]
  exact List.getElem_mem hlt

/-- **What is encoded is decoded**, with any alphabet in which nothing is special and any filling. -/
theorem fromBasexx_toBasexx (h : Plain alphabet) (hbits : 0 < bits) (hle : bits ≤ 8)
    (hlen : alphabet.length = 2 ^ bits) (hstr : IsBytes str) (hpad : ∀ c ∈ pad, c = '=') :
    ∃ text, toBasexx str alphabet bits pad = some text ∧ fromBasexx text alphabet bits = some str := by
  refine ⟨_, toBasexx_eq hbits hlen str pad, ?_⟩
  have hsymbol : ∀ c ∈ encode bits (alphabet.getD · 'A') (str.map Char.toNat), c ∈ alphabet := fun c hc =>
    mem_of_mem_encode hbits hlen _ hc
  have hfill : ∀ c ∈ alphabet, c ≠ '=' := by
    rintro c hc rfl
    exact h.plain _ hc (by decide)
  rw [fromBasexx_eq h hlen, List.filter_append, List.filter_eq_self.mpr, List.filter_eq_nil_iff.mpr, List.append_nil,
    decode_encode hbits hle]
  · rw [List.map_map]
    refine congrArg some ((List.map_congr_left fun c _ => ?_).trans (List.map_id str))
    exact Char.ofNat_toNat c
  · intro n hn
    rw [← hlen] at hn
    exact idxOf_getD h.nodup hn
  · intro n hn
    obtain ⟨c, hc, rfl⟩ := List.mem_map.mp hn
    exact hstr c hc
  · intro c hc
    simp [hpad c hc]
  · intro c hc
    exact decide_eq_true (hfill c (hsymbol c hc))
  · intro c hc
    obtain hc | hc := List.mem_append.mp hc
    · exact .inr (hsymbol c hc)
    · exact .inl (hpad c hc)

/-! ## The encodings of the module -/

/-- The three alphabets are plain. -/
theorem plain_alphabets : Plain base32Alphabet ∧ Plain crockfordAlphabet ∧ Plain base64Alphabet := by
  refine ⟨⟨by decide +kernel, ?_⟩, ⟨by decide +kernel, ?_⟩, ⟨by decide +kernel, ?_⟩⟩
  all_goals exact forall_mem_of_all (by decide +kernel)

/-- Characters of a filling. -/
theorem eq_fill_of_mem {counts : List Nat} {i : Nat} {c : Char}
    (hc : c ∈ ((counts.map fun n => List.replicate n '=').getD i [])) : c = '=' := by
  rw [List.getD_eq_getElem?_getD, List.getElem?_map] at hc
  cases hn : counts[i]? with
  | none => simp [hn] at hc
  | some n =>
    rw [hn] at hc
    exact List.eq_of_mem_replicate hc

/-- Bytes are read back from their bits. -/
theorem fromBit_toBit (hstr : IsBytes str) : fromBit (toBit str) = some str := by
  have hbytes : ∀ n ∈ str.map Char.toNat, n < 2 ^ 8 := by
    intro n hn
    obtain ⟨c, hc, rfl⟩ := List.mem_map.mp hn
    exact hstr c hc
  rw [toBit_eq, fromBit_bitText (by rw [length_bitsOfBytes, Nat.mul_mod_right]), ofBits_groups hbytes, List.map_map]
  exact congrArg some ((List.map_congr_left fun c _ => Char.ofNat_toNat c).trans (List.map_id str))

/-- The value of a hexadecimal digit. -/
theorem digitValue_hexChar {n : Nat} (h : n < 16) : digitValue (hexChar n) = some n :=
  (by decide : ∀ n < 16, digitValue (hexChar n) = some n) n h

/-- Bytes are read back from their hexadecimal digits. -/
theorem fromHex_toHex (hstr : IsBytes str) : fromHex (toHex str) = some str := by
  have hgroups : groups 2 (toHex str) = str.map fun c => [hexChar (c.toNat / 16), hexChar (c.toNat % 16)] := by
    rw [toHex, List.flatMap_def]
    refine groups_flatten (by decide) fun g hg => ?_
    obtain ⟨c, -, rfl⟩ := List.mem_map.mp hg
    rfl
  rw [fromHex, gsubEvery, hgroups, List.mapM_map]
  refine (flatten_mapM_eq (g := id) fun c hc => ?_).trans (congrArg some (List.map_id str))
  have hc' := hstr c hc
  have hvalue : tonumber [hexChar (c.toNat / 16), hexChar (c.toNat % 16)] 16 = some c.toNat := by
    rw [tonumber, if_neg (List.cons_ne_nil _ _)]
    simp only [tonumberFrom, digitValue_hexChar (show c.toNat / 16 < 16 by omega),
      digitValue_hexChar (show c.toNat % 16 < 16 by omega)]
    rw [if_pos (by omega), if_pos (by omega)]
    congr 1
    omega
  simp [hvalue, stringChar, hc', Char.ofNat_toNat]

/-- Base64 is decoded. -/
theorem fromBase64_toBase64 (hstr : IsBytes str) : ∃ text, toBase64 str = some text ∧ fromBase64 text = some str :=
  fromBasexx_toBasexx plain_alphabets.2.2 (by decide) (by decide) (by decide) hstr fun _ hc => eq_fill_of_mem hc

/-- **Every encoding is decoded**, those of 32 characters whatever the case of the letters, and Crockford's also with
the letters that stand for others. -/
theorem encodings_decoded (str : Text) (hstr : IsBytes str) :
    fromBit (toBit str) = some str ∧ fromHex (toHex str) = some str ∧
      (∃ text, toBase64 str = some text ∧ fromBase64 text = some str) ∧
      (∃ text, toBase32 str = some text ∧
        ∀ written, written.map Char.toUpper = text → fromBase32 written = some str) ∧
      ∃ text, toCrockford str = some text ∧
        ∀ written, (written.map Char.toUpper).map crockfordMap = text → fromCrockford written = some str := by
  obtain ⟨h32, hcrockford, -⟩ := plain_alphabets
  refine ⟨fromBit_toBit hstr, fromHex_toHex hstr, fromBase64_toBase64 hstr, ?_, ?_⟩
  · obtain ⟨text, htext, hback⟩ := @fromBasexx_toBasexx base32Alphabet 5 str
      (([0, 6, 4, 3, 1].map fun n => List.replicate n '=').getD (str.length % 5) []) h32 (by decide) (by decide)
      (by decide) hstr fun c hc => eq_fill_of_mem hc
    refine ⟨text, htext, ?_⟩
    rintro written rfl
    exact hback
  · obtain ⟨text, htext, hback⟩ := @fromBasexx_toBasexx crockfordAlphabet 5 str [] hcrockford (by decide)
      (by decide) (by decide) hstr fun c hc => absurd hc List.not_mem_nil
    refine ⟨text, htext, ?_⟩
    rintro written rfl
    exact hback

/-- The bytes of a binary secret. -/
theorem encodings_decoded_bytes :
    fromBit (toBit ['\x00', 'ÿ']) = some ['\x00', 'ÿ'] ∧ fromHex (toHex ['\x00', 'ÿ']) = some ['\x00', 'ÿ'] ∧
      (∃ text, toBase64 ['\x00', 'ÿ'] = some text ∧ fromBase64 text = some ['\x00', 'ÿ']) ∧
      (∃ text, toBase32 ['\x00', 'ÿ'] = some text ∧
        ∀ written, written.map Char.toUpper = text → fromBase32 written = some ['\x00', 'ÿ']) ∧
      ∃ text, toCrockford ['\x00', 'ÿ'] = some text ∧
        ∀ written, (written.map Char.toUpper).map crockfordMap = text → fromCrockford written = some ['\x00', 'ÿ'] :=
  encodings_decoded _ (by decide)

/-! ## The secret -/

/-- Filling makes no difference. -/
theorem fromBasexx_filter (str alphabet : Text) (bits : Nat) :
    fromBasexx (str.filter (· ≠ '=')) alphabet bits = fromBasexx str alphabet bits := by
  rw [fromBasexx, List.filter_filter]
  simp [fromBasexx]

/-- The ways to write base64: with the filling or without, in the ordinary alphabet or in the one for URLs. -/
def WrittenAs (text written : Text) : Prop :=
  ∃ t, (t = text ∨ t = text.filter (· ≠ '=')) ∧ (written = t ∨ written = gsubChar '/' '_' (gsubChar '+' '-' t))

/-- The characters of URLs are translated back. -/
theorem gsubChar_urlSafe {text : Text} (h : ∀ c ∈ text, c ≠ '-' ∧ c ≠ '_') :
    gsubChar '_' '/' (gsubChar '-' '+' (gsubChar '/' '_' (gsubChar '+' '-' text))) = text := by
  unfold gsubChar
  rw [List.map_map, List.map_map, List.map_map]
  refine (List.map_congr_left fun c hc => ?_).trans (List.map_id text)
  obtain ⟨hminus, hunderscore⟩ := h c hc
  by_cases hplus : c = '+'
  · subst hplus
    rfl
  · by_cases hslash : c = '/'
    · subst hslash
      rfl
    · simp [Function.comp_apply, hplus, hslash, hminus, hunderscore]

/-- In the ordinary alphabet there is nothing to translate back. -/
theorem gsubChar_ordinary {text : Text} (h : ∀ c ∈ text, c ≠ '-' ∧ c ≠ '_') :
    gsubChar '_' '/' (gsubChar '-' '+' text) = text := by
  unfold gsubChar
  rw [List.map_map]
  refine (List.map_congr_left fun c hc => ?_).trans (List.map_id text)
  obtain ⟨hminus, hunderscore⟩ := h c hc
  simp [Function.comp_apply, hminus, hunderscore]

/-- Filling that is appended is not translated. -/
theorem filter_gsubChar_append (s : Text) {fill : Text} (hfill : ∀ c ∈ fill, c = '=') :
    (gsubChar '_' '/' (gsubChar '-' '+' (s ++ fill))).filter (· ≠ '=') =
      (gsubChar '_' '/' (gsubChar '-' '+' s)).filter (· ≠ '=') := by
  have hnil : (gsubChar '_' '/' (gsubChar '-' '+' fill)).filter (· ≠ '=') = [] := by
    rw [List.filter_eq_nil_iff]
    intro c hc
    unfold gsubChar at hc
    rw [List.map_map] at hc
    obtain ⟨d, hd, rfl⟩ := List.mem_map.mp hc
    rw [hfill d hd]
    decide
  have happend : gsubChar '_' '/' (gsubChar '-' '+' (s ++ fill)) =
      gsubChar '_' '/' (gsubChar '-' '+' s) ++ gsubChar '_' '/' (gsubChar '-' '+' fill) := by
    simp [gsubChar]
  rw [happend, List.filter_append, hnil, List.append_nil]

/-- **The secret is what was encoded**, however it is written. -/
theorem jwtSecret_eq (secret written text : Text) (hsecret : IsBytes secret) (htext : toBase64 secret = some text)
    (hwritten : WrittenAs text written) : jwtSecret true written = some secret := by
  obtain ⟨text', htext', hback⟩ := fromBase64_toBase64 hsecret
  obtain rfl : text' = text := Option.some.inj (htext'.symm.trans htext)
  have hchars : ∀ c ∈ text', c ≠ '-' ∧ c ≠ '_' := by
    have hall : ∀ c ∈ base64Alphabet, c ≠ '-' ∧ c ≠ '_' := forall_mem_of_all (by decide +kernel)
    intro c hc
    have hdecoded := (isSome_fromBasexx_iff plain_alphabets.2.2 (by decide) text' 6).mp ⟨secret, hback⟩ c hc
    obtain rfl | hmem | rfl | rfl | rfl := hdecoded
    · decide
    · exact hall c hmem
    · decide
    · decide
    · decide
  obtain ⟨t, hfilling, halphabet⟩ := hwritten
  -- the text with the filling or without, of which the alphabet does not matter
  have ht : fromBase64 t = some secret ∧ ∀ c ∈ t, c ≠ '-' ∧ c ≠ '_' := by
    obtain rfl | rfl := hfilling
    · exact ⟨hback, hchars⟩
    · exact ⟨(fromBasexx_filter _ _ _).trans hback, fun c hc => hchars c (List.mem_of_mem_filter hc)⟩
  have htranslated : gsubChar '_' '/' (gsubChar '-' '+' written) = t := by
    obtain rfl | rfl := halphabet
    · exact gsubChar_ordinary ht.2
    · exact gsubChar_urlSafe ht.2
  have hread : ∀ fill : Text, (∀ c ∈ fill, c = '=') →
      fromBase64 (gsubChar '_' '/' (gsubChar '-' '+' (written ++ fill))) = some secret := by
    intro fill hfill
    rw [fromBase64, ← fromBasexx_filter, filter_gsubChar_append _ hfill, fromBasexx_filter, htranslated]
    exact ht.1
  rw [jwtSecret, if_pos rfl]
  dsimp only
  split
  · exact hread _ (forall_mem_of_all (by decide))
  · split
    · exact hread _ (forall_mem_of_all (by decide))
    · have hnone := hread [] fun c hc => absurd hc List.not_mem_nil
      rwa [List.append_nil] at hnone

/-- A secret whose encoding has both characters that URLs do not take, written for a URL and in the ordinary alphabet
without its filling. -/
theorem jwtSecret_eq_binary :
    jwtSecret true "_-8=".toList = some ['ÿ', 'ï'] ∧ jwtSecret true "/+8".toList = some ['ÿ', 'ï'] :=
  have htext : toBase64 ['ÿ', 'ï'] = some "/+8=".toList := by decide +kernel
  ⟨jwtSecret_eq _ _ _ (by decide) htext ⟨_, .inl rfl, .inr (by decide)⟩,
    jwtSecret_eq _ _ _ (by decide) htext ⟨_, .inr rfl, .inl (by decide)⟩⟩

/-- A secret with these characters is read like one without them. -/
theorem mem_gsubChar_urlSafe_iff {P : Char → Prop} {s : Text} (hplus : P '+') (hslash : P '/') :
    (∀ c ∈ gsubChar '_' '/' (gsubChar '-' '+' s), P c) ↔ ∀ c ∈ s, c = '-' ∨ c = '_' ∨ P c := by
  unfold gsubChar
  rw [List.map_map, List.forall_mem_map]
  refine forall₂_congr fun c _ => ?_
  by_cases hminus : c = '-'
  · subst hminus
    simpa using hplus
  · by_cases hunderscore : c = '_'
    · subst hunderscore
      simpa using hslash
    · simp [hminus, hunderscore]

/-- No letter is the filling in the other case. -/
theorem toUpper_eq_fill_iff (c : Char) : c.toUpper = '=' ↔ c = '=' := by
  unfold Char.toUpper
  split
  · rename_i hlower
    obtain ⟨hge, hle⟩ := hlower
    constructor
    · intro heq
      have hval := congrArg (fun c => c.val.toNat) heq
      have hge' : 97 ≤ c.val.toNat := hge
      have hle' : c.val.toNat ≤ 122 := hle
      have hcase : ('A'.val - 'a'.val).toNat = 2 ^ 32 - 32 := by decide
      have hfill : '='.val.toNat = 61 := by decide
      simp only [UInt32.toNat_add] at hval
      omega
    · rintro rfl
      exact absurd hge (by decide)
  · rfl

/-- No letter is taken for the filling. -/
theorem crockfordMap_eq_fill_iff (c : Char) : crockfordMap c = '=' ↔ c = '=' := by
  unfold crockfordMap
  split
  · subst_vars
    decide
  · split
    · rename_i hone
      obtain rfl | rfl := hone <;> decide
    · split
      · subst_vars
        decide
      · rfl

/-- Filling that is appended changes nothing in what is read. -/
theorem forall_mem_append_fill {P : Char → Prop} {s fill : Text} (hfill : ∀ c ∈ fill, c = '=') :
    (∀ c ∈ s ++ fill, c = '-' ∨ c = '_' ∨ c = '=' ∨ P c) ↔ ∀ c ∈ s, c = '-' ∨ c = '_' ∨ c = '=' ∨ P c := by
  rw [List.forall_mem_append, and_iff_left]
  exact fun c hc => .inr (.inr (.inl (hfill c hc)))

/-- **What is decoded without an error**, by `from_base64`, `from_base32`, `from_crockford` and for a secret: filling
anywhere and texts of any length, with the case and the letters that are taken for others, and with the characters that
a pattern takes for others. -/
theorem decodes_iff (str : Text) :
    ((∃ text, fromBase64 str = some text) ↔ ∀ c ∈ str, c = '=' ∨ Decoded base64Alphabet c) ∧
      ((∃ text, fromBase32 str = some text) ↔ ∀ c ∈ str, c = '=' ∨ Decoded base32Alphabet c.toUpper) ∧
      ((∃ text, fromCrockford str = some text) ↔
        ∀ c ∈ str, c = '=' ∨ Decoded crockfordAlphabet (crockfordMap c.toUpper)) ∧
      ((∃ text, jwtSecret true str = some text) ↔
        ∀ c ∈ str, c = '-' ∨ c = '_' ∨ c = '=' ∨ Decoded base64Alphabet c) := by
  obtain ⟨h32, hcrockford, h64⟩ := plain_alphabets
  have hbase64 : ∀ s, (∃ text, fromBase64 s = some text) ↔ ∀ c ∈ s, c = '=' ∨ Decoded base64Alphabet c := fun s =>
    isSome_fromBasexx_iff h64 (by decide) s 6
  have hsecret : ∀ s, (∃ text, fromBase64 (gsubChar '_' '/' (gsubChar '-' '+' s)) = some text) ↔
      ∀ c ∈ s, c = '-' ∨ c = '_' ∨ c = '=' ∨ Decoded base64Alphabet c := fun s =>
    (hbase64 _).trans (mem_gsubChar_urlSafe_iff (.inr (.inl (by decide))) (.inr (.inl (by decide))))
  refine ⟨hbase64 str, ?_, ?_, ?_⟩
  · rw [fromBase32, isSome_fromBasexx_iff h32 (by decide), List.forall_mem_map]
    simp only [toUpper_eq_fill_iff]
  · rw [fromCrockford, isSome_fromBasexx_iff hcrockford (by decide), List.map_map, List.forall_mem_map]
    simp only [Function.comp_apply, crockfordMap_eq_fill_iff, toUpper_eq_fill_iff]
  · rw [jwtSecret, if_pos rfl]
    dsimp only
    split
    · rw [hsecret, forall_mem_append_fill (forall_mem_of_all (by decide))]
    · split
      · rw [hsecret, forall_mem_append_fill (forall_mem_of_all (by decide))]
      · exact hsecret str

/-! ## The form of Base64 -/

/-- **Base64 is well formed**: characters of the alphabet, filled up to a multiple of four, which are decoded also
without the filling. -/
theorem toBase64_shape (str : Text) : ∃ body fill, toBase64 str = some (body ++ List.replicate fill '=') ∧
    (∀ c ∈ body, c ∈ base64Alphabet) ∧ (body.length + fill) % 4 = 0 ∧ fill < 4 ∧ (str ≠ [] → body ≠ []) ∧
    (IsBytes str → fromBase64 body = some str) := by
  have hlen : base64Alphabet.length = 2 ^ 6 := by decide
  have hmem : ∀ c ∈ encode 6 (base64Alphabet.getD · 'A') (str.map Char.toNat), c ∈ base64Alphabet := fun c hc =>
    mem_of_mem_encode (by decide) hlen _ hc
  obtain ⟨pad, hpad, hsize⟩ := length_encode (show 0 < 6 by decide) (base64Alphabet.getD · 'A') (str.map Char.toNat)
  rw [List.length_map] at hsize
  obtain ⟨fill, hfill, hfilled⟩ : ∃ fill, ([0, 2, 1].map fun n => List.replicate n '=').getD (str.length % 3) [] =
      List.replicate fill '=' ∧ (str.length % 3 = 0 ∧ fill = 0 ∨ str.length % 3 = 1 ∧ fill = 2 ∨
        str.length % 3 = 2 ∧ fill = 1) := by
    obtain h | h | h : str.length % 3 = 0 ∨ str.length % 3 = 1 ∨ str.length % 3 = 2 := by omega
    · exact ⟨0, by rw [h]; rfl, .inl ⟨h, rfl⟩⟩
    · exact ⟨2, by rw [h]; rfl, .inr (.inl ⟨h, rfl⟩)⟩
    · exact ⟨1, by rw [h]; rfl, .inr (.inr ⟨h, rfl⟩)⟩
  have htext : toBase64 str = some (encode 6 (base64Alphabet.getD · 'A') (str.map Char.toNat) ++
      List.replicate fill '=') := by
    rw [← hfill]
    exact toBasexx_eq (by decide) hlen str _
  refine ⟨_, fill, htext, hmem, by omega, by omega, ?_, ?_⟩
  · intro hne hnil
    have hpos := List.length_pos_of_ne_nil hne
    rw [hnil, List.length_nil] at hsize
    omega
  · intro hstr
    obtain ⟨text, htext', hback⟩ := fromBase64_toBase64 hstr
    obtain rfl := Option.some.inj (htext.symm.trans htext')
    have hbody : (encode 6 (base64Alphabet.getD · 'A') (str.map Char.toNat) ++ List.replicate fill '=').filter
        (· ≠ '=') = encode 6 (base64Alphabet.getD · 'A') (str.map Char.toNat) := by
      rw [List.filter_append, List.filter_eq_self.mpr, List.filter_eq_nil_iff.mpr, List.append_nil]
      · intro c hc
        rw [List.eq_of_mem_replicate hc]
        decide
      · rintro c hc
        exact decide_eq_true fun heq => plain_alphabets.2.2.plain c (hmem c hc) (by rw [heq]; decide)
    rw [fromBase64, ← fromBasexx_filter, hbody] at hback
    exact hback

end GexCloud.WebProxy.Basexx
