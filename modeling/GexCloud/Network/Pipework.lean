import GexCloud.Base.Ruby
import Mathlib.Logic.Function.Basic

/-! # `pipework`: an interface that survives restarts

`pipework` gives a container a network interface, with the VLAN and the MAC address of its argument
`MAC[@VLAN]`. The address it has configured is saved, and when the container is started again it comes from
that file.

* `Mac` — an address, `Mac.print` — how the kernel prints it.
* `Shell` — what the script calls: `md5sum` and `ip`.
* `pipework` — a run for a physical interface: what it configures and saves.
* `result` — the results of run after run, whatever addresses the kernel chooses.
* **`stable_iff`** — all runs configure the same exactly when the argument has no VLAN, or nothing is
  configured from it: the file does not say the VLAN. -/

namespace GexCloud.Pipework

open Texts

/-! ## Addresses -/

/-- The address of an interface: not that of a group, and not zero. -/
structure Mac where
  octet : Fin 6 → Fin 256
  unicast : (octet 0).val % 2 = 0
  nonzero : ∃ i, octet i ≠ 0

/-- An octet in two digits. -/
def hex (b : Fin 256) : Text := [Nat.digitChar (b.val / 16), Nat.digitChar (b.val % 16)]

/-- An address as `/sys/class/net` shows it. -/
def Mac.print (m : Mac) : Text :=
  hex (m.octet 0) ++ ':' :: (hex (m.octet 1) ++ ':' :: (hex (m.octet 2) ++ ':' :: (hex (m.octet 3) ++
    ':' :: (hex (m.octet 4) ++ ':' :: hex (m.octet 5)))))

/-- A digit tells its number. -/
theorem digitChar_inj : ∀ {a b : Nat}, a < 16 → b < 16 → Nat.digitChar a = Nat.digitChar b → a = b := by
  have hall : ∀ a : Fin 16, ∀ b : Fin 16, Nat.digitChar a.val = Nat.digitChar b.val → a = b := by decide
  intro a b ha hb h
  exact congrArg Fin.val (hall ⟨a, ha⟩ ⟨b, hb⟩ h)

/-- Two digits tell their octet. -/
theorem hex_inj {a b : Fin 256} (h : hex a = hex b) : a = b := by
  simp only [hex, List.cons.injEq, and_true] at h
  have hhigh := digitChar_inj (by omega) (by omega) h.1
  have hlow := digitChar_inj (by omega) (by omega) h.2
  apply Fin.ext
  omega

/-- An address can be read back. -/
theorem Mac.print_injective : Function.Injective Mac.print := by
  intro m n h
  simp only [Mac.print, hex, List.cons_append, List.nil_append, List.cons.injEq, and_true, true_and] at h
  obtain ⟨h0, h0', h1, h1', h2, h2', h3, h3', h4, h4', h5, h5'⟩ := h
  have hpair : ∀ {a b : Fin 256}, Nat.digitChar (a.val / 16) = Nat.digitChar (b.val / 16) →
      Nat.digitChar (a.val % 16) = Nat.digitChar (b.val % 16) → a = b := by
    intro a b hhigh hlow
    exact hex_inj (by rw [hex, hhigh, hlow]; rfl)
  have hoctet : m.octet = n.octet := by
    funext i
    match i with
    | 0 => exact hpair h0 h0'
    | 1 => exact hpair h1 h1'
    | 2 => exact hpair h2 h2'
    | 3 => exact hpair h3 h3'
    | 4 => exact hpair h4 h4'
    | 5 => exact hpair h5 h5'
  obtain ⟨octet, _, _⟩ := m
  obtain ⟨octet', _, _⟩ := n
  obtain rfl : octet = octet' := hoctet
  rfl

/-- No digit is one of these letters. -/
theorem digitChar_ne {n : Nat} (h : n < 16) : Nat.digitChar n ≠ '@' ∧ Nat.digitChar n ≠ 'U' := by
  have hall : ∀ a : Fin 16, Nat.digitChar a.val ≠ '@' ∧ Nat.digitChar a.val ≠ 'U' := by decide
  exact hall ⟨n, h⟩

/-- An address has no VLAN in it. -/
theorem Mac.at_not_mem_print (m : Mac) : '@' ∉ m.print := by
  have hhex : ∀ b : Fin 256, '@' ∉ hex b := by
    intro b hb
    simp only [hex, List.mem_cons, List.not_mem_nil, or_false] at hb
    obtain hb | hb := hb
    · exact (digitChar_ne (by omega)).1 hb.symm
    · exact (digitChar_ne (by omega)).1 hb.symm
  simp [Mac.print, hhex]

/-- It is not of the form `U:` either. -/
theorem Mac.not_unique_print (m : Mac) : ¬"U:".toList <+: m.print := by
  intro h
  have hhead : 'U' = Nat.digitChar ((m.octet 0).val / 16) := (List.cons_prefix_cons.mp h).1
  exact (digitChar_ne (by omega)).2 hhead.symm

/-! ## The script -/

/-- What the script calls. -/
structure Shell where
  /-- The first five octets that `md5sum` gives for what `echo $macunique` prints. -/
  md5sum : Text → Fin 5 → Fin 256
  /-- `ip link set dev … address`: the address the interface has then; `none` when it fails. -/
  setAddress : Text → Option Mac
  /-- Whether there is a subinterface for this tag, or `ip link add … type vlan id` makes one. -/
  vlan : Text → Bool
  /-- The kernel reads what it prints. -/
  setAddress_print : ∀ m : Mac, setAddress m.print = some m

/-- What is configured: the tag, empty for none, and the address in the container. -/
structure Interface where
  vlan : Text
  mac : Mac

/-- `$VLAN`. -/
def vlanOf (macaddr : Text) : Text :=
  if '@' ∈ macaddr then ((macaddr.dropWhile (· != '@')).drop 1).takeWhile (· != '@') else []

/-- `$MACADDR`, the VLAN taken off. -/
def macOf (macaddr : Text) : Text := if '@' ∈ macaddr then macaddr.takeWhile (· != '@') else macaddr

variable (S : Shell)

/-- The address generated from a unique text. -/
def generated (macunique : Text) : Mac where
  octet i := if h : i = 0 then 2 else S.md5sum macunique (i.pred h)
  unicast := by rw [dif_pos rfl]; rfl
  nonzero := ⟨0, by rw [dif_pos rfl]; decide⟩

/-- `$MACADDR` with an address in the place of `U:` and a unique text. -/
def customMac (mac : Text) : Text :=
  if "U:".toList <+: mac then (generated S (mac.drop 2)).print else mac

/-- The address configured for `$MACADDR`, that of the new interface when it is empty. -/
def configure (mac : Text) (random : Mac) : Option Mac := if mac = [] then some random else S.setAddress mac

/-- **A run** for a physical interface: what it configures, and what it saves; `none` when a command fails,
which ends the script. `saved` is the file, and `random` the address that the kernel gives the new
interface. -/
def pipework (saved : Option Text) (argument : Text) (random : Mac) : Option (Interface × Text) :=
  let macaddr := saved.getD argument
  if vlanOf macaddr ≠ [] ∧ S.vlan (vlanOf macaddr) = false then none
  else (configure S (customMac S (macOf macaddr)) random).map fun mac => (⟨vlanOf macaddr, mac⟩, mac.print)

/-! ## Run after run -/

variable (argument : Text) (start : Option Mac) (random : Nat → Mac)

/-- The file before each run. -/
def savedBefore : Nat → Option Text
  | 0 => start.map Mac.print
  | n + 1 =>
    match pipework S (savedBefore n) argument (random n) with
    | some out => some out.2
    | none => savedBefore n

/-- What each run configures. -/
def result (n : Nat) : Option Interface :=
  (pipework S (savedBefore S argument start random n) argument (random n)).map Prod.fst

/-- **Restarting keeps the interface**: every run configures what the first one did. -/
def Stable : Prop := ∀ (random : Nat → Mac) (n : Nat),
  result S argument start random n = result S argument start random 0

/-- Nothing is configured from an argument whose VLAN or address is not accepted. -/
def Refused : Prop :=
  (vlanOf argument ≠ [] ∧ S.vlan (vlanOf argument) = false) ∨
  (customMac S (macOf argument) ≠ [] ∧ S.setAddress (customMac S (macOf argument)) = none)

variable {S argument start random}

/-- **From the file** comes the address that was saved, without a VLAN. -/
theorem pipework_saved (m r : Mac) : pipework S (some m.print) argument r = some (⟨[], m⟩, m.print) := by
  have hvlan : vlanOf m.print = [] := if_neg m.at_not_mem_print
  have hmac : macOf m.print = m.print := if_neg m.at_not_mem_print
  have hcustom : customMac S m.print = m.print := if_neg m.not_unique_print
  have hconfigure : configure S m.print r = some m := (if_neg (List.cons_ne_nil _ _)).trans
    (S.setAddress_print m)
  simp only [pipework, Option.getD_some, hvlan, hmac, hcustom, hconfigure, Option.map_some]
  exact if_neg fun h => h.1 rfl

/-- Once an address is saved all runs configure it. -/
theorem savedBefore_add {m : Mac} {k : Nat} (h : savedBefore S argument start random k = some m.print)
    (n : Nat) : savedBefore S argument start random (k + n) = some m.print := by
  induction n with
  | zero => exact h
  | succ n ih => rw [← Nat.add_assoc, savedBefore, ih, pipework_saved]

/-- So the runs from there have one result. -/
theorem result_add {m : Mac} {k : Nat} (h : savedBefore S argument start random k = some m.print) (n : Nat) :
    result S argument start random (k + n) = some ⟨[], m⟩ := by
  rw [result, savedBefore_add h, pipework_saved, Option.map_some]

/-- **From the argument**: a refused one fails, whatever the kernel chooses. -/
theorem pipework_none_of_refused (h : Refused S argument) (r : Mac) : pipework S none argument r = none := by
  obtain h | ⟨hne, hnone⟩ := h
  · exact if_pos h
  · have hconfigure : configure S (customMac S (macOf argument)) r = none := (if_neg hne).trans hnone
    simp only [pipework, Option.getD_none, hconfigure, Option.map_none]
    exact ite_self none

/-- Any other is configured, with its VLAN. -/
theorem pipework_none_of_not_refused (h : ¬Refused S argument) (r : Mac) :
    ∃ m : Mac, pipework S none argument r = some (⟨vlanOf argument, m⟩, m.print) := by
  obtain ⟨hvlan, hmac⟩ := not_or.mp h
  obtain ⟨m, hm⟩ : ∃ m, configure S (customMac S (macOf argument)) r = some m := by
    by_cases hempty : customMac S (macOf argument) = []
    · exact ⟨r, if_pos hempty⟩
    · rw [configure, if_neg hempty]
      exact Option.ne_none_iff_exists'.mp fun hnone => hmac ⟨hempty, hnone⟩
  refine ⟨m, ?_⟩
  simp only [pipework, Option.getD_none, hm, Option.map_some]
  exact if_neg hvlan

/-- **The runs are stable** exactly when an address was saved before the first, the argument has no VLAN, or
nothing is configured from it. -/
theorem stable_iff (S : Shell) (argument : Text) (start : Option Mac) : Stable S argument start ↔
    start ≠ none ∨ vlanOf argument = [] ∨ Refused S argument := by
  cases start with
  | some m =>
    refine iff_of_true (fun random n => ?_) (.inl (Option.some_ne_none m))
    have hsaved : savedBefore S argument (some m) random 0 = some m.print := rfl
    rw [result_add hsaved 0, ← result_add hsaved n, Nat.zero_add]
  | none =>
    rw [or_iff_right (not_not.mpr rfl)]
    by_cases hrefused : Refused S argument
    · refine iff_of_true (fun random n => ?_) (.inr hrefused)
      have hsaved : ∀ n, savedBefore S argument none random n = none := by
        intro n
        induction n with
        | zero => rfl
        | succ n ih => rw [savedBefore, ih, pipework_none_of_refused hrefused]
      rw [result, result, hsaved, hsaved, pipework_none_of_refused hrefused,
        pipework_none_of_refused hrefused]
    · rw [or_iff_left hrefused]
      -- the first run saves the address, and from then on it comes from the file
      have hfirst : ∀ random : Nat → Mac, ∃ m : Mac,
          result S argument none random 0 = some ⟨vlanOf argument, m⟩ ∧
          ∀ n, result S argument none random (1 + n) = some ⟨[], m⟩ := by
        intro random
        obtain ⟨m, hm⟩ := pipework_none_of_not_refused hrefused (random 0)
        have hstart : savedBefore S argument none random 0 = none := rfl
        have hsaved : savedBefore S argument none random 1 = some m.print := by
          rw [savedBefore, hstart, hm]
        refine ⟨m, ?_, result_add hsaved⟩
        rw [result, hstart, hm, Option.map_some]
      constructor
      · intro h
        obtain ⟨m, hzero, hlater⟩ := hfirst fun _ => generated S []
        have hsame := h (fun _ => generated S []) (1 + 0)
        rw [hzero, hlater] at hsame
        exact (Interface.mk.inj (Option.some.inj hsame)).1.symm
      · intro hvlan random n
        obtain ⟨m, hzero, hlater⟩ := hfirst random
        cases n with
        | zero => rfl
        | succ n => rw [Nat.add_comm, hlater, hzero, hvlan]

/-- The digest of the line `kafka`, and a checksum of any other one. -/
def digest (macunique : Text) (i : Fin 5) : Fin 256 :=
  if macunique = "kafka".toList then [0xe0, 0x05, 0x1d, 0x2d, 0x57].getD i 0
  else Fin.ofNat 256 (macunique.foldl (fun sum c => (31 * sum + c.toNat) % 256) i)

/-- A kernel that takes the addresses it prints, and no others, and all tags. -/
noncomputable def strict : Shell where
  md5sum := digest
  setAddress text :=
    open Classical in
    if h : ∃ m : Mac, m.print = text then some h.choose else none
  vlan _ := true
  setAddress_print m := by
    have h : ∃ m' : Mac, m'.print = m.print := ⟨m, rfl⟩
    rw [dif_pos h]
    exact congrArg some (Mac.print_injective h.choose_spec)

/-- A generated address with a VLAN: the first restart loses the VLAN. -/
theorem vlan_lost : ¬Stable strict "U:kafka@42".toList none := by
  rw [stable_iff]
  rintro (h | h | ⟨-, h⟩ | ⟨-, h⟩)
  · exact h rfl
  · exact absurd h (by decide)
  · cases h
  · have hcustom : customMac strict (macOf "U:kafka@42".toList) = (generated strict "kafka".toList).print := rfl
    rw [hcustom, strict.setAddress_print] at h
    cases h

end GexCloud.Pipework
