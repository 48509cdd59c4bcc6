import Mathlib.Algebra.GroupWithZero.Nat
import Mathlib.Data.List.Basic

/-! # Bytes written with an alphabet of a power of two

The bits of the bytes are cut into groups of `w` bits, the last one filled up with zeros, and each group is written
as one symbol. To read a text back, the bits of its symbols are cut into bytes and what is left over is dropped.

* `bitsOf`, `ofBits` — a number as so many bits, the highest first, and back.
* `groups`, `fillUp`, `whole` — a list cut into groups; a group filled up; a list without what is left over.
* `encode`, `decode` — writing and reading.
* **`decode_encode`** — what is written is read back, for groups of at most eight bits.
* **`length_encode`** — how long what is written is. -/

namespace BitCodes

/-! ## Numbers and bits -/

/-- The lowest `w` bits of a number, the highest of them first. -/
def bitsOf : Nat → Nat → List Bool
  | 0, _ => []
  | w + 1, n => decide (n / 2 ^ w % 2 = 1) :: bitsOf w n

/-- The number with these bits. -/
def ofBits : List Bool → Nat
  | [] => 0
  | b :: bits => b.toNat * 2 ^ bits.length + ofBits bits

@[simp] theorem length_bitsOf (w n : Nat) : (bitsOf w n).length = w := by
  induction w with
  | zero => rfl
  | succ w ih => rw [bitsOf, List.length_cons, ih]

/-- So many bits make a number below that power of two. -/
theorem ofBits_lt (bits : List Bool) : ofBits bits < 2 ^ bits.length := by
  induction bits with
  | nil => decide
  | cons b bits ih =>
    rw [ofBits, List.length_cons, Nat.pow_succ]
    cases b
    · simp only [Bool.toNat_false]
      omega
    · simp only [Bool.toNat_true]
      omega

/-- The bits of a number make the number again, up to what they cannot hold. -/
theorem ofBits_bitsOf (w n : Nat) : ofBits (bitsOf w n) = n % 2 ^ w := by
  induction w with
  | zero => simp [bitsOf, ofBits, Nat.mod_one]
  | succ w ih =>
    have hmod : n % 2 ^ (w + 1) = n % 2 ^ w + 2 ^ w * (n / 2 ^ w % 2) := by
      rw [Nat.pow_succ, Nat.mod_mul]
    rw [bitsOf, ofBits, length_bitsOf, ih, hmod]
    obtain hbit | hbit := Nat.mod_two_eq_zero_or_one (n / 2 ^ w)
    · simp [hbit]
    · simp [hbit]
      omega

/-- The bits of a number above those that are wanted do not matter. -/
theorem bitsOf_add_mul (w n k : Nat) : bitsOf w (n + k * 2 ^ w) = bitsOf w n := by
  induction w generalizing k with
  | zero => rfl
  | succ w ih =>
    have hsplit : n + k * 2 ^ (w + 1) = n + k * 2 * 2 ^ w := by rw [Nat.pow_succ, Nat.mul_assoc, Nat.mul_comm 2]
    have hhigh : (n + k * 2 * 2 ^ w) / 2 ^ w % 2 = n / 2 ^ w % 2 := by
      rw [Nat.add_mul_div_right _ _ (Nat.two_pow_pos w)]
      omega
    rw [bitsOf, bitsOf, hsplit, ih (k * 2), hhigh]

/-- Bits make a number with these bits. -/
theorem bitsOf_ofBits (bits : List Bool) : bitsOf bits.length (ofBits bits) = bits := by
  induction bits with
  | nil => rfl
  | cons b bits ih =>
    have hlt := ofBits_lt bits
    have hhigh : (b.toNat * 2 ^ bits.length + ofBits bits) / 2 ^ bits.length = b.toNat := by
      rw [Nat.add_comm, Nat.add_mul_div_right _ _ (Nat.two_pow_pos _), Nat.div_eq_of_lt hlt, Nat.zero_add]
    rw [List.length_cons, bitsOf, ofBits, hhigh, Nat.add_comm, bitsOf_add_mul, ih]
    cases b <;> rfl

/-! ## Groups -/

variable {α : Type} {w : Nat} {l : List α} {x : α}

/-- The groups of a list behind a group that has been started. -/
def groupsFrom (w : Nat) : List α → List α → List (List α)
  | [], [] => []
  | g :: gs, [] => [g :: gs]
  | group, x :: l =>
    if group.length + 1 = w then (group ++ [x]) :: groupsFrom w [] l else groupsFrom w (group ++ [x]) l

/-- A list cut into groups of `w`, of which the last one may be shorter. -/
def groups (w : Nat) (l : List α) : List (List α) := groupsFrom w [] l

/-- A group that has been started goes on. -/
theorem groupsFrom_cons (w : Nat) (group : List α) (x : α) (l : List α) : groupsFrom w group (x :: l) =
    if group.length + 1 = w then (group ++ [x]) :: groupsFrom w [] l else groupsFrom w (group ++ [x]) l := by
  cases group <;> rfl

/-- What is missing of a group completes it. -/
theorem groupsFrom_append {group a : List α} (hlen : group.length + a.length = w) (hpos : 0 < a.length) (l : List α) :
    groupsFrom w group (a ++ l) = (group ++ a) :: groupsFrom w [] l := by
  -- induction on what is missing
  induction a generalizing group with
  | nil => exact absurd hpos (Nat.lt_irrefl 0)
  | cons x a ih =>
    rw [List.length_cons] at hlen
    rw [List.cons_append, groupsFrom_cons]
    cases a with
    | nil => rw [if_pos (by simpa using hlen), List.nil_append]
    | cons y a =>
      rw [List.length_cons] at hlen
      rw [if_neg (by omega), ih (by rw [List.length_append, List.length_singleton, List.length_cons]; omega)
        (Nat.zero_lt_succ _), List.append_assoc]
      rfl

/-- Groups of the right length are found again. -/
theorem groups_flatten (hw : 0 < w) {gs : List (List α)} (h : ∀ g ∈ gs, g.length = w) : groups w gs.flatten = gs := by
  induction gs with
  | nil => rfl
  | cons g gs ih =>
    have hg := h g List.mem_cons_self
    rw [List.flatten_cons, groups, groupsFrom_append (by rw [hg]; exact Nat.zero_add w) (by omega), ← groups,
      ih fun g' hg' => h g' (List.mem_cons_of_mem g hg')]
    rfl

/-- A list of the right length is made of full groups. -/
theorem exists_flatten_eq {k : Nat} (h : l.length = k * w) :
    ∃ gs : List (List α), (∀ g ∈ gs, g.length = w) ∧ gs.flatten = l := by
  induction k generalizing l with
  | zero => exact ⟨[], fun g hg => absurd hg List.not_mem_nil, (List.eq_nil_of_length_eq_zero (by omega)).symm⟩
  | succ k ih =>
    rw [Nat.succ_mul] at h
    obtain ⟨gs, hgs, hflatten⟩ := @ih (l.drop w) (by rw [List.length_drop]; omega)
    refine ⟨l.take w :: gs, ?_, ?_⟩
    · intro g hg
      obtain rfl | hg := List.mem_cons.mp hg
      · rw [List.length_take]
        omega
      · exact hgs g hg
    · rw [List.flatten_cons, hflatten, List.take_append_drop]

/-- When nothing is left over, all groups are full. -/
theorem length_of_mem_groups (hw : 0 < w) (h : l.length % w = 0) {g : List α} (hg : g ∈ groups w l) :
    g.length = w := by
  obtain ⟨gs, hgs, rfl⟩ := exists_flatten_eq (k := l.length / w) (by rw [Nat.div_mul_cancel (Nat.dvd_of_mod_eq_zero h)])
  rw [groups_flatten hw hgs] at hg
  exact hgs g hg

/-- A group filled up to the length of a group. -/
def fillUp (w : Nat) (x : α) (g : List α) : List α := g ++ List.replicate (w - g.length) x

/-- The groups behind one that has been started, filled up. -/
theorem exists_fillUpFrom (x : α) (group : List α) (hgroup : group.length < w) (l : List α) :
    ∃ pad < w, ((groupsFrom w group l).map (fillUp w x)).flatten = group ++ l ++ List.replicate pad x ∧
      ∀ g ∈ (groupsFrom w group l).map (fillUp w x), g.length = w := by
  have hfill : ∀ g : List α, g.length ≤ w → (fillUp w x g).length = w := fun g hg => by
    rw [fillUp, List.length_append, List.length_replicate]
    omega
  -- induction on the rest of the list
  induction l generalizing group with
  | nil =>
    cases group with
    | nil => exact ⟨0, hgroup, rfl, fun g hg => absurd hg List.not_mem_nil⟩
    | cons y group =>
      rw [List.length_cons] at hgroup
      refine ⟨w - (group.length + 1), by omega, ?_, ?_⟩
      · simp [groupsFrom, fillUp]
      · intro g hg
        rw [List.mem_singleton.mp hg]
        exact hfill _ (by rw [List.length_cons]; omega)
  | cons y l ih =>
    rw [groupsFrom_cons]
    have hlen : (group ++ [y]).length = group.length + 1 := by simp
    by_cases hfull : group.length + 1 = w
    · rw [if_pos hfull]
      obtain ⟨pad, hpad, hflatten, hall⟩ := ih [] (by rw [List.length_nil]; omega)
      refine ⟨pad, hpad, ?_, ?_⟩
      · rw [List.map_cons, List.flatten_cons, hflatten, fillUp, hlen, hfull]
        simp
      · intro g hg
        obtain rfl | hg := List.mem_cons.mp hg
        · exact hfill _ (by omega)
        · exact hall g hg
    · rw [if_neg hfull]
      obtain ⟨pad, hpad, hflatten, hall⟩ := ih (group ++ [y]) (by omega)
      refine ⟨pad, hpad, ?_, hall⟩
      rw [hflatten]
      simp

/-- The groups that are filled up make the list with less than a group behind it. -/
theorem exists_fillUp (x : α) (hw : 0 < w) (l : List α) :
    ∃ pad < w, ((groups w l).map (fillUp w x)).flatten = l ++ List.replicate pad x ∧
      ∀ g ∈ (groups w l).map (fillUp w x), g.length = w :=
  exists_fillUpFrom x [] hw l

/-- A list without what is left over when it is cut into groups of `m`. -/
def whole (m : Nat) (l : List α) : List α := l.take (l.length - l.length % m)

/-- What is left over is dropped. -/
theorem whole_append {m : Nat} (hdvd : l.length % m = 0) {tail : List α} (htail : tail.length < m) :
    whole m (l ++ tail) = l := by
  have hmod : (l ++ tail).length % m = tail.length := by
    rw [List.length_append, Nat.add_mod, hdvd, Nat.zero_add, Nat.mod_mod, Nat.mod_eq_of_lt htail]
  rw [whole, hmod, List.length_append, Nat.add_sub_cancel, List.take_left']
  rfl

/-! ## Writing and reading -/

variable {σ : Type}

/-- The bits of bytes. -/
def bitsOfBytes (bytes : List Nat) : List Bool := bytes.flatMap (bitsOf 8)

/-- Bytes are written, a symbol for each group of `w` bits. -/
def encode (w : Nat) (symbol : Nat → σ) (bytes : List Nat) : List σ :=
  (groups w (bitsOfBytes bytes)).map fun g => symbol (ofBits (fillUp w false g))

/-- Symbols are read. -/
def decode (w : Nat) (value : σ → Nat) (symbols : List σ) : List Nat :=
  (groups 8 (whole 8 (symbols.flatMap fun c => bitsOf w (value c)))).map ofBits

@[simp] theorem length_bitsOfBytes (bytes : List Nat) : (bitsOfBytes bytes).length = 8 * bytes.length := by
  rw [bitsOfBytes, List.length_flatMap]
  simp [Nat.mul_comm]

/-- The bits of bytes are cut into the bytes again. -/
theorem ofBits_groups {bytes : List Nat} (h : ∀ n ∈ bytes, n < 2 ^ 8) :
    (groups 8 (bitsOfBytes bytes)).map ofBits = bytes := by
  rw [bitsOfBytes, List.flatMap_def, groups_flatten (by decide), List.map_map]
  · refine (List.map_congr_left fun n hn => ?_).trans (List.map_id bytes)
    exact (ofBits_bitsOf 8 n).trans (Nat.mod_eq_of_lt (h n hn))
  · intro g hg
    obtain ⟨n, -, rfl⟩ := List.mem_map.mp hg
    exact length_bitsOf 8 n

/-- The bits of what is written are those of the bytes, and less than a group of zeros. -/
theorem exists_bits_encode (hw : 0 < w) {symbol : Nat → σ} {value : σ → Nat}
    (hvalue : ∀ n < 2 ^ w, value (symbol n) = n) (bytes : List Nat) :
    ∃ pad < w, (encode w symbol bytes).flatMap (fun c => bitsOf w (value c)) =
      bitsOfBytes bytes ++ List.replicate pad false := by
  obtain ⟨pad, hpad, hflatten, hall⟩ := exists_fillUp false hw (bitsOfBytes bytes)
  refine ⟨pad, hpad, ?_⟩
  rw [← hflatten, encode, List.flatMap_map, List.flatMap_def]
  congr 1
  refine List.map_congr_left fun g hg => ?_
  have hlen := hall _ (List.mem_map_of_mem hg)
  have hlt := ofBits_lt (fillUp w false g)
  rw [hlen] at hlt
  rw [hvalue _ hlt]
  exact (congrArg (bitsOf · _) hlen.symm).trans (bitsOf_ofBits _)

/-- **What is written is read back.** -/
theorem decode_encode (hw : 0 < w) (hle : w ≤ 8) {symbol : Nat → σ} {value : σ → Nat}
    (hvalue : ∀ n < 2 ^ w, value (symbol n) = n) {bytes : List Nat} (hbytes : ∀ n ∈ bytes, n < 2 ^ 8) :
    decode w value (encode w symbol bytes) = bytes := by
  obtain ⟨pad, hpad, hbits⟩ := exists_bits_encode hw hvalue bytes
  rw [decode, hbits, whole_append (by rw [length_bitsOfBytes]; omega) (by rw [List.length_replicate]; omega)]
  exact ofBits_groups hbytes

/-- What is written has as many symbols as are needed for the bits. -/
theorem length_encode (hw : 0 < w) (symbol : Nat → σ) (bytes : List Nat) :
    ∃ pad < w, w * (encode w symbol bytes).length = 8 * bytes.length + pad := by
  obtain ⟨pad, hpad, hflatten, hall⟩ := exists_fillUp false hw (bitsOfBytes bytes)
  refine ⟨pad, hpad, ?_⟩
  have hlen := congrArg List.length hflatten
  rw [List.length_append, List.length_replicate, length_bitsOfBytes, List.length_flatten] at hlen
  rw [← hlen, encode, List.length_map]
  have hconst : ∀ gs : List (List Bool), (∀ g ∈ gs, g.length = w) → (gs.map List.length).sum = w * gs.length := by
    intro gs hgs
    rw [List.map_congr_left hgs]
    simp [Nat.mul_comm]
  rw [hconst _ hall, List.length_map]

end BitCodes
