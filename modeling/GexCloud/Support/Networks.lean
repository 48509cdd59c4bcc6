import GexCloud.Support.Decimal
import Mathlib.Algebra.GroupWithZero.Nat

/-! # Networks and their addresses

An IPv4 address is four octets, written in decimal with dots between them; a network of 16 bits fixes the first two.

* `Ipv4`, `Ipv4.text` — an address and its text; `dotted_inj` — the numbers can be read back.
* `Network16`, `Usable` — a network, and the texts that are addresses of a host in it.
* **`usable_iff`** — a number that is split into base-256 digits is such a text from 1 up to 65534. -/

namespace Networks

open Texts

/-- There are octets, so numerals can stand for them. -/
scoped instance instNeZeroOctets : NeZero 256 := ⟨by decide⟩

/-- An address. -/
structure Ipv4 where
  a : Fin 256
  b : Fin 256
  c : Fin 256
  d : Fin 256
  deriving DecidableEq

/-- Four numbers with dots between them. -/
def dotted (a b c d : Int) : Text := signed a ++ '.' :: (signed b ++ '.' :: (signed c ++ '.' :: signed d))

/-- The text of an address. -/
def Ipv4.text (ip : Ipv4) : Text := dotted ip.a.1 ip.b.1 ip.c.1 ip.d.1

/-- The digits and the sign of a number are not the dot. -/
theorem dot_not_mem_signed (n : Int) : '.' ∉ signed n := by
  intro h
  rcases isDigit_of_mem_signed h with h | h
  · exact absurd h (by decide)
  · exact absurd h (by decide)

/-- The first number ends at the first dot. -/
theorem signed_append_dot_inj {m n : Int} {s t : Text} (h : signed m ++ '.' :: s = signed n ++ '.' :: t) :
    m = n ∧ s = t := by
  have hm := cut_append (dot_not_mem_signed m) s
  have hn := cut_append (dot_not_mem_signed n) t
  have hcut := hm.symm.trans ((congrArg (cut '.') h).trans hn)
  exact ⟨signed_injective (congrArg Prod.fst hcut), Option.some.inj (congrArg Prod.snd hcut)⟩

/-- **The numbers can be read back.** -/
theorem dotted_inj {a b c d a' b' c' d' : Int} (h : dotted a b c d = dotted a' b' c' d') :
    a = a' ∧ b = b' ∧ c = c' ∧ d = d' := by
  obtain ⟨ha, h⟩ := signed_append_dot_inj h
  obtain ⟨hb, h⟩ := signed_append_dot_inj h
  obtain ⟨hc, h⟩ := signed_append_dot_inj h
  exact ⟨ha, hb, hc, signed_injective h⟩

/-! ## Networks -/

/-- A network of 16 bits. -/
structure Network16 where
  a : Fin 256
  b : Fin 256
  deriving DecidableEq

/-- The address is in the network. -/
def Network16.Contains (n : Network16) (ip : Ipv4) : Prop := ip.a = n.a ∧ ip.b = n.b

/-- The address of the network itself. -/
def Network16.address (n : Network16) : Ipv4 := ⟨n.a, n.b, 0, 0⟩

/-- The broadcast address of the network. -/
def Network16.broadcast (n : Network16) : Ipv4 := ⟨n.a, n.b, 255, 255⟩

/-- **A usable address**: the text of an address in the network that is neither that of the network nor the one for
broadcasts. -/
def Network16.Usable (n : Network16) (t : Text) : Prop :=
  ∃ ip : Ipv4, ip.text = t ∧ n.Contains ip ∧ ip ≠ n.address ∧ ip ≠ n.broadcast

/-- **The digits of a number in base 256** are the host part of a usable address exactly for 1 to 65534. -/
theorem usable_iff (n : Network16) {m : Int} (hm : 0 < m) :
    n.Usable (dotted n.a.1 n.b.1 (m / 256) (m % 256)) ↔ m < 65535 := by
  constructor
  · rintro ⟨ip, htext, ⟨ha, hb⟩, -, hbroadcast⟩
    obtain ⟨-, -, hc, hd⟩ := dotted_inj htext
    have hclt := ip.c.2
    have hdlt := ip.d.2
    by_contra hge
    -- the number can only be 65535, with the digits of the broadcast address
    have hc255 : ip.c = 255 := Fin.ext (by change ip.c.1 = 255; omega)
    have hd255 : ip.d = 255 := Fin.ext (by change ip.d.1 = 255; omega)
    refine hbroadcast ?_
    cases ip
    simp only at ha hb hc255 hd255
    rw [Network16.broadcast, ha, hb, hc255, hd255]
  · intro hlt
    have hc : (m / 256).toNat < 256 := by omega
    have hd : (m % 256).toNat < 256 := by omega
    refine ⟨⟨n.a, n.b, ⟨_, hc⟩, ⟨_, hd⟩⟩, ?_, ⟨rfl, rfl⟩, fun h => ?_, fun h => ?_⟩
    · have hc' : ((m / 256).toNat : Int) = m / 256 := by omega
      have hd' : ((m % 256).toNat : Int) = m % 256 := by omega
      change dotted n.a.1 n.b.1 ((m / 256).toNat : Int) ((m % 256).toNat : Int) = _
      rw [hc', hd']
    · have hc0 : (m / 256).toNat = 0 := congrArg (fun ip : Ipv4 => ip.c.1) h
      have hd0 : (m % 256).toNat = 0 := congrArg (fun ip : Ipv4 => ip.d.1) h
      omega
    · have hc255 : (m / 256).toNat = 255 := congrArg (fun ip : Ipv4 => ip.c.1) h
      have hd255 : (m % 256).toNat = 255 := congrArg (fun ip : Ipv4 => ip.d.1) h
      omega

end Networks
