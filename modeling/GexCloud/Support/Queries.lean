import GexCloud.Support.Texts
import Mathlib.Algebra.GroupWithZero.Nat

/-! # Query strings

How the query of a request is read: the part behind the question mark, split at `&`, cut at `=`, the escapes
`%xx` of keys and values resolved into bytes.

* `utf8` — the bytes of a text.
* `percentDecode`, `HasEscape` — the bytes a text with escapes stands for.
* `query`, `parameters` — the query of a target and its parameters.
* `join` — the query that is written for some parameters.
* **`parameters_join`** — what is written is read back, when nothing in it is special.
* **`eq_join_of_parameters`** — conversely, a query that is no longer than what would be written for its parameters
  is that, and nothing in it is special. -/

namespace Queries

open Texts

/-! ## Bytes -/

/-- The bytes of a text. -/
def utf8 (s : Text) : List UInt8 := s.flatMap String.utf8EncodeChar

/-- The number of bytes of a text. -/
def size (s : Text) : Nat := (s.map Char.utf8Size).sum

@[simp] theorem size_nil : size [] = 0 := rfl

@[simp] theorem size_cons (c : Char) (s : Text) : size (c :: s) = c.utf8Size + size s := rfl

/-- The bytes of two texts. -/
@[simp] theorem size_append (s t : Text) : size (s ++ t) = size s + size t := by
  rw [size, List.map_append, List.sum_append]
  rfl

/-- The bytes of a text are as many as its size says. -/
theorem length_utf8 (s : Text) : (utf8 s).length = size s := by
  induction s with
  | nil => rfl
  | cons c s ih => rw [utf8, List.flatMap_cons, List.length_append, String.length_utf8EncodeChar, ← utf8, ih, size_cons]

/-- A text of no bytes is empty. -/
theorem eq_nil_of_size {s : Text} (h : size s = 0) : s = [] := by
  cases s with
  | nil => rfl
  | cons c s =>
    have hpos := Char.utf8Size_pos c
    rw [size_cons] at h
    omega

/-- A text with some characters left out is no longer. -/
theorem size_le_of_sublist {s t : Text} (h : s.Sublist t) : size s ≤ size t := by
  induction h with
  | slnil => exact Nat.le_refl _
  | cons c _ ih =>
    rw [size_cons]
    omega
  | cons_cons c _ ih =>
    rw [size_cons, size_cons]
    omega

/-- It is as long only when none is left out. -/
theorem eq_of_sublist {s t : Text} (h : s.Sublist t) (hle : size t ≤ size s) : s = t := by
  induction h with
  | slnil => rfl
  | cons c h _ =>
    have hpos := Char.utf8Size_pos c
    have hsize := size_le_of_sublist h
    rw [size_cons] at hle
    omega
  | cons_cons c _ ih =>
    rw [size_cons, size_cons] at hle
    rw [ih (by omega)]

/-- Different texts have different bytes. -/
theorem utf8_injective : Function.Injective utf8 := by
  intro s t h
  have hencode : s.utf8Encode = t.utf8Encode := congrArg List.toByteArray h
  have hstring : String.ofList s = String.ofList t := by
    apply String.toByteArray_inj.mp
    simpa using hencode
  exact String.ofList_injective hstring

/-! ## Escapes -/

/-- The value of a hexadecimal digit. -/
def hexValue (c : Char) : Option Nat :=
  if c.isDigit then some (c.toNat - 48)
  else if 'a'.toNat ≤ c.toNat ∧ c.toNat ≤ 'f'.toNat then some (c.toNat - 87)
  else if 'A'.toNat ≤ c.toNat ∧ c.toNat ≤ 'F'.toNat then some (c.toNat - 55)
  else none

/-- The byte that an escape at the start of a text stands for. -/
def escaped : Text → Option UInt8
  | '%' :: a :: b :: _ =>
    match hexValue a, hexValue b with
    | some x, some y => some (UInt8.ofNat (16 * x + y))
    | _, _ => none
  | _ => none

/-- The bytes of a text with escapes, when so many characters of an escape are still to be passed over. -/
def percentDecodeFrom : Nat → Text → List UInt8
  | _, [] => []
  | k + 1, _ :: s => percentDecodeFrom k s
  | 0, c :: s =>
    match escaped (c :: s) with
    | some b => b :: percentDecodeFrom 2 s
    | none => String.utf8EncodeChar c ++ percentDecodeFrom 0 s

/-- The bytes of a text with escapes. -/
def percentDecode (s : Text) : List UInt8 := percentDecodeFrom 0 s

/-- There is an escape in the text. -/
def HasEscape (s : Text) : Prop := s.tails.any (fun t => (escaped t).isSome) = true

instance (s : Text) : Decidable (HasEscape s) := by unfold HasEscape; infer_instance

/-- An escape is at the start or behind. -/
theorem hasEscape_cons_iff {c : Char} {s : Text} :
    HasEscape (c :: s) ↔ (escaped (c :: s)).isSome = true ∨ HasEscape s := by
  rw [HasEscape, HasEscape, List.tails_cons, List.any_cons, Bool.or_eq_true]

/-- A text without escapes stands for itself. -/
theorem percentDecode_eq_utf8 {s : Text} (h : ¬ HasEscape s) : percentDecode s = utf8 s := by
  induction s with
  | nil => rfl
  | cons c s ih =>
    rw [hasEscape_cons_iff, not_or, Bool.not_eq_true, Option.isSome_eq_false_iff, Option.isNone_iff_eq_none] at h
    rw [percentDecode, percentDecodeFrom, h.1, ← percentDecode, ih h.2, utf8, utf8, List.flatMap_cons]

/-- Resolving escapes makes a text no longer. -/
theorem length_percentDecodeFrom_le (k : Nat) (s : Text) : (percentDecodeFrom k s).length ≤ size s := by
  induction s generalizing k with
  | nil =>
    rw [percentDecodeFrom]
    exact Nat.zero_le _
  | cons c s ih =>
    have hpos := Char.utf8Size_pos c
    rw [size_cons]
    cases k with
    | succ k =>
      have hle := ih k
      rw [percentDecodeFrom]
      omega
    | zero =>
      rw [percentDecodeFrom]
      split
      · have hle := ih 2
        rw [List.length_cons]
        omega
      · have hle := ih 0
        rw [List.length_append, String.length_utf8EncodeChar]
        omega

/-- It makes a text with escapes shorter. -/
theorem length_percentDecode_lt {s : Text} (h : HasEscape s) : (percentDecode s).length < size s := by
  induction s with
  | nil => cases h
  | cons c s ih =>
    rw [percentDecode, percentDecodeFrom, size_cons]
    have hpos := Char.utf8Size_pos c
    split
    · rename_i b hescaped
      -- the two digits of the escape are passed over
      obtain ⟨x, y, rest, rfl⟩ : ∃ x y rest, s = x :: y :: rest := by
        unfold escaped at hescaped
        split at hescaped
        · rename_i heq
          obtain ⟨-, rfl⟩ := List.cons_eq_cons.mp heq
          exact ⟨_, _, _, rfl⟩
        · cases hescaped
      have hle := length_percentDecodeFrom_le 0 rest
      have hx := Char.utf8Size_pos x
      have hy := Char.utf8Size_pos y
      rw [percentDecodeFrom, percentDecodeFrom, List.length_cons, size_cons, size_cons]
      omega
    · rename_i hescaped
      have hrest : HasEscape s := by
        rw [hasEscape_cons_iff, hescaped] at h
        exact h.resolve_left Bool.false_ne_true
      have hlt := ih hrest
      rw [List.length_append, String.length_utf8EncodeChar, ← percentDecode]
      omega

/-- A text that stands for a text at least as long is that text, and has no escapes. -/
theorem eq_of_percentDecode {s t : Text} (h : percentDecode s = utf8 t) (hle : size s ≤ size t) :
    s = t ∧ ¬ HasEscape s := by
  have hlen := congrArg List.length h
  rw [length_utf8] at hlen
  have hescape : ¬ HasEscape s := fun hs => by
    have hlt := length_percentDecode_lt hs
    omega
  rw [percentDecode_eq_utf8 hescape] at h
  exact ⟨utf8_injective h, hescape⟩

/-- A text is at least as long as what it stands for. -/
theorem size_le_of_percentDecode {s t : Text} (h : percentDecode s = utf8 t) : size t ≤ size s := by
  rw [← length_utf8, ← h]
  exact length_percentDecodeFrom_le 0 s

/-! ## Parameters -/

/-- The query of a request target: it ends with a fragment or with the line. -/
def query (target : Text) : Text := ((cut '?' target).2.getD []).takeWhile fun c => c != '#' && c != '\r'

/-- A parameter, by its part of the query; without a sign it has no value. -/
def parameter (part : Text) : List UInt8 × Option (List UInt8) :=
  (percentDecode (cut '=' part).1, (cut '=' part).2.map percentDecode)

/-- The parameters of a query. -/
def parameters (q : Text) : List (List UInt8 × Option (List UInt8)) := (q.splitOn '&').map parameter

/-- The parameter that a key and a value are to be. -/
def encoded (kv : Text × Text) : List UInt8 × Option (List UInt8) := (utf8 kv.1, some (utf8 kv.2))

/-- A key and its value, as they are written. -/
def assignment (kv : Text × Text) : Text := kv.1 ++ '=' :: kv.2

/-- The query that is written for some parameters. -/
def join (kvs : List (Text × Text)) : Text := ['&'].intercalate (kvs.map assignment)

/-- Nothing in the key or the value is special. -/
structure Plain (kv : Text × Text) : Prop where
  sign : '=' ∉ kv.1
  separator : '&' ∉ kv.1 ∧ '&' ∉ kv.2
  escape : ¬ HasEscape kv.1 ∧ ¬ HasEscape kv.2

variable {kv : Text × Text} {kvs : List (Text × Text)} {parts : List Text} {q : Text}

/-- A plain parameter is read as it is written. -/
theorem parameter_assignment (h : Plain kv) : parameter (assignment kv) = encoded kv := by
  rw [parameter, assignment, cut_append h.sign, encoded, percentDecode_eq_utf8 h.escape.1, Option.map_some,
    percentDecode_eq_utf8 h.escape.2]

/-- A plain parameter has no separator. -/
theorem separator_not_mem_assignment (h : Plain kv) : '&' ∉ assignment kv := by
  rw [assignment, List.mem_append, List.mem_cons, not_or, not_or]
  exact ⟨h.separator.1, by decide, h.separator.2⟩

/-- The parts of a query that is written. -/
theorem splitOn_join (hne : kvs ≠ []) (h : ∀ kv ∈ kvs, Plain kv) : (join kvs).splitOn '&' = kvs.map assignment := by
  refine List.splitOn_intercalate '&' ?_ (by simpa using hne)
  intro part hpart
  obtain ⟨kv, hkv, rfl⟩ := List.mem_map.mp hpart
  exact separator_not_mem_assignment (h kv hkv)

/-- **What is written for plain parameters is read back.** -/
theorem parameters_join (hne : kvs ≠ []) (h : ∀ kv ∈ kvs, Plain kv) : parameters (join kvs) = kvs.map encoded := by
  rw [parameters, splitOn_join hne h, List.map_map]
  exact List.map_congr_left fun kv hkv => parameter_assignment (h kv hkv)

/-! ## Back from the parameters -/

/-- A part that is read as a parameter is at least as long as the parameter is written, and when it is no longer
nothing in it is special. -/
theorem size_le_of_parameter {part : Text} (h : parameter part = encoded kv) :
    size (assignment kv) ≤ size part ∧ (size part ≤ size (assignment kv) →
      part = assignment kv ∧ '=' ∉ kv.1 ∧ ¬ HasEscape kv.1 ∧ ¬ HasEscape kv.2) := by
  obtain ⟨hkey, hvalue⟩ := Prod.mk.inj h
  obtain ⟨value, hcut, hval⟩ := Option.map_eq_some_iff.mp hvalue
  obtain ⟨hpart, hsign⟩ := eq_of_cut (Prod.ext rfl hcut : cut '=' part = ((cut '=' part).1, some value))
  generalize (cut '=' part).1 = key at hkey hpart hsign
  subst hpart
  have hk := size_le_of_percentDecode hkey
  have hv := size_le_of_percentDecode hval
  rw [assignment, size_append, size_append, size_cons, size_cons]
  refine ⟨by omega, fun hle => ?_⟩
  obtain ⟨rfl, hkescape⟩ := eq_of_percentDecode hkey (by omega)
  obtain ⟨rfl, hvescape⟩ := eq_of_percentDecode hval (by omega)
  exact ⟨rfl, hsign, hkescape, hvescape⟩

/-- The same for all the parts of a query. -/
theorem sum_le_of_parameters (h : parts.map parameter = kvs.map encoded) :
    (kvs.map fun kv => size (assignment kv)).sum ≤ (parts.map size).sum ∧
      ((parts.map size).sum ≤ (kvs.map fun kv => size (assignment kv)).sum → parts = kvs.map assignment ∧
        ∀ kv ∈ kvs, '=' ∉ kv.1 ∧ ¬ HasEscape kv.1 ∧ ¬ HasEscape kv.2) := by
  induction kvs generalizing parts with
  | nil =>
    rw [List.map_nil, List.map_eq_nil_iff] at h
    subst h
    simp
  | cons kv kvs ih =>
    cases parts with
    | nil => cases h
    | cons part parts =>
      rw [List.map_cons, List.map_cons, List.cons_eq_cons] at h
      obtain ⟨hle, heq⟩ := size_le_of_parameter h.1
      obtain ⟨hles, heqs⟩ := ih h.2
      simp only [List.map_cons, List.sum_cons, List.forall_mem_cons]
      refine ⟨by omega, fun hsum => ?_⟩
      obtain ⟨rfl, hplain⟩ := heq (by omega)
      obtain ⟨rfl, hplains⟩ := heqs (by omega)
      exact ⟨rfl, hplain, hplains⟩

/-- The length of parts with separators between them. -/
theorem size_intercalate (hne : parts ≠ []) :
    size (['&'].intercalate parts) + 1 = (parts.map size).sum + parts.length := by
  induction parts with
  | nil => exact absurd rfl hne
  | cons part parts ih =>
    cases parts with
    | nil => simp [List.intercalate]
    | cons next parts =>
      have hrest := ih (List.cons_ne_nil next parts)
      have hamp : Char.utf8Size '&' = 1 := by decide
      rw [List.intercalate_cons_cons, size_append, size_append, size_cons, size_nil, hamp, List.map_cons,
        List.sum_cons, List.length_cons]
      omega

/-- **A query that is no longer than what is written for its parameters is that**, and nothing in it is special. -/
theorem eq_join_of_parameters (hne : kvs ≠ []) (h : parameters q = kvs.map encoded)
    (hle : size q ≤ size (join kvs)) : q = join kvs ∧ ∀ kv ∈ kvs, Plain kv := by
  obtain ⟨-, heq⟩ := sum_le_of_parameters h
  have hparts := size_intercalate (List.splitOn_ne_nil '&' q)
  have hkvs := @size_intercalate (kvs.map assignment) (by simpa using hne)
  have hlen : (q.splitOn '&').length = (kvs.map assignment).length := by
    have hlen := congrArg List.length h
    rwa [parameters, List.length_map, List.length_map, ← List.length_map (f := assignment)] at hlen
  rw [List.intercalate_splitOn] at hparts
  rw [← join, List.map_map] at hkvs
  obtain ⟨hsame, hplain⟩ := heq (by
    change _ ≤ (kvs.map (size ∘ assignment)).sum
    omega)
  refine ⟨by rw [join, ← hsame, List.intercalate_splitOn], fun kv hkv => ?_⟩
  -- the parts of a query have no separator
  have hseparator : '&' ∉ assignment kv :=
    not_mem_of_mem_splitOn (s := q) (hsame ▸ List.mem_map_of_mem hkv)
  rw [assignment, List.mem_append, List.mem_cons, not_or, not_or] at hseparator
  obtain ⟨hsign, hescape⟩ := hplain kv hkv
  exact ⟨hsign, ⟨hseparator.1, hseparator.2.2⟩, hescape⟩

end Queries
