import GexCloud.Ami.GetIp
import GexCloud.Registry.Ports

/-! # Addresses that are computed

Two functions split a number into its digits in base 256 to make an address of it: `get_framework_master_ip` the id of a
cluster, `get_ip` the value of a counter. Neither checks how large the number is.

* `getFrameworkMasterIp`, `ROUTES` — the address of the master of a framework, and the networks that clients route.
* `counterAfter` — the values of the counter.
* **`usable_addresses_iff`** — the addresses are usable for ids below 65535 and counters below 32768. -/

namespace GexCloud

open Texts Networks Registry GetIp

/-- `NETWORK_PREFIXES`. -/
def NETWORK_PREFIXES : List (Text × Text) :=
  [("hadoop".toList, "77".toList), ("hue".toList, "78".toList)]

/-- `get_framework_master_ip`. -/
def getFrameworkMasterIp (cluster_id : Int) (f : Text) : Except RubyError Text :=
  match NETWORK_PREFIXES.lookup f with
  | none => .error (.exception "Nil parameter, [nil]".toList)
  | some netPrefix => .ok ("51.".toList ++ netPrefix ++ ['.'] ++ signed (cluster_id / 256) ++ '.' ::
      signed (cluster_id % 256))

/-- The frameworks, with the networks that are routed to a cluster in `client_vpn.conf`. -/
def ROUTES : List (Text × Network16) :=
  [("hadoop".toList, ⟨51, 77⟩), ("hue".toList, ⟨51, 78⟩)]

/-- The counter after some runs of `get_ip.rb`, each of which adds one. -/
def counterAfter (runs : Nat) : Int := (fun index => index + 1)^[runs] 1

/-- The counter starts at one. -/
theorem counterAfter_eq (runs : Nat) : counterAfter runs = runs + 1 := by
  induction runs with
  | zero => rfl
  | succ runs ih =>
    rw [counterAfter, Function.iterate_succ_apply', ← counterAfter, ih]
    push_cast
    rfl

/-- The address of a master in the network of the framework. -/
theorem getFrameworkMasterIp_eq {f : Text} {network : Network16} (h : (f, network) ∈ ROUTES) (cluster_id : Int) :
    getFrameworkMasterIp cluster_id f =
      .ok (dotted network.a.1 network.b.1 (cluster_id / 256) (cluster_id % 256)) := by
  simp only [ROUTES, List.mem_cons, List.not_mem_nil, or_false, Prod.mk.injEq] at h
  obtain ⟨rfl, rfl⟩ | ⟨rfl, rfl⟩ := h
  · rfl
  · rfl

/-- Only the frameworks have an address. -/
theorem mem_routes_of_getFrameworkMasterIp {f address : Text} {cluster_id : Int}
    (h : getFrameworkMasterIp cluster_id f = .ok address) : ∃ network, (f, network) ∈ ROUTES := by
  unfold getFrameworkMasterIp at h
  split at h
  · cases h
  · rename_i netPrefix hlookup
    rw [NETWORK_PREFIXES, List.lookup_cons, List.lookup_cons] at hlookup
    split at hlookup
    · rename_i hf
      exact ⟨⟨51, 77⟩, by rw [beq_iff_eq.mp hf]; exact List.mem_cons_self⟩
    · split at hlookup
      · rename_i hf
        exact ⟨⟨51, 78⟩, by rw [beq_iff_eq.mp hf]; exact List.mem_cons_of_mem _ List.mem_cons_self⟩
      · cases hlookup

/-- The frameworks have different networks. -/
theorem routes_injective {f g : Text} {m n : Network16} (hf : (f, m) ∈ ROUTES) (hg : (g, n) ∈ ROUTES)
    (h : m.b = n.b) : f = g := by
  simp only [ROUTES, List.mem_cons, List.not_mem_nil, or_false, Prod.mk.injEq] at hf hg
  obtain ⟨rfl, rfl⟩ | ⟨rfl, rfl⟩ := hf
  · obtain ⟨rfl, -⟩ | ⟨-, rfl⟩ := hg
    · rfl
    · exact absurd h (by decide)
  · obtain ⟨-, rfl⟩ | ⟨rfl, -⟩ := hg
    · exact absurd h (by decide)
    · rfl

/-- **Different clusters or frameworks have different addresses.** -/
theorem getFrameworkMasterIp_injective {m n : Int} {f g address : Text} (hf : getFrameworkMasterIp m f = .ok address)
    (hg : getFrameworkMasterIp n g = .ok address) : m = n ∧ f = g := by
  obtain ⟨networkF, hF⟩ := mem_routes_of_getFrameworkMasterIp hf
  obtain ⟨networkG, hG⟩ := mem_routes_of_getFrameworkMasterIp hg
  rw [getFrameworkMasterIp_eq hF, Except.ok.injEq] at hf
  rw [getFrameworkMasterIp_eq hG, Except.ok.injEq] at hg
  obtain ⟨-, hb, hc, hd⟩ := dotted_inj (hf.trans hg.symm)
  refine ⟨by omega, routes_injective hF hG (Fin.ext ?_)⟩
  exact Int.ofNat.inj hb

/-- **When the computed addresses are usable**: those of the masters for cluster ids below 65535, those of `get_ip` for
counters below 32768. -/
theorem usable_addresses_iff (cluster_id : Int) (runs : Nat) :
    (∀ f network, assertClusterId cluster_id = .ok cluster_id → (f, network) ∈ ROUTES →
      ((∃ address, getFrameworkMasterIp cluster_id f = .ok address ∧ network.Usable address) ↔ cluster_id < 65535)) ∧
    (∀ other f g address, getFrameworkMasterIp cluster_id f = .ok address → getFrameworkMasterIp other g = .ok address →
      cluster_id = other ∧ f = g) ∧
    ((⟨10, 175⟩ : Network16).Usable (getIp (counterAfter runs)) ↔ counterAfter runs < 32768) := by
  refine ⟨fun f network hid hf => ?_, fun other f g address => getFrameworkMasterIp_injective, ?_⟩
  · have hpos := (assertClusterId_eq_ok_iff.mp hid).1
    rw [← usable_iff network hpos, getFrameworkMasterIp_eq hf]
    constructor
    · rintro ⟨address, haddress, husable⟩
      rwa [Except.ok.inj haddress]
    · exact fun husable => ⟨_, rfl, husable⟩
  · have hpos : 0 < 2 * counterAfter runs := by
      rw [counterAfter_eq]
      omega
    have hshape : getIp (counterAfter runs) =
        dotted 10 175 (2 * counterAfter runs / 256) (2 * counterAfter runs % 256) := rfl
    have husable := usable_iff ⟨10, 175⟩ hpos
    rw [hshape]
    refine husable.trans ?_
    omega

/-- The last cluster that has an address, and an address of the last run. -/
theorem usable_addresses_last :
    (∃ address, getFrameworkMasterIp 65534 "hadoop".toList = .ok address ∧ (⟨51, 77⟩ : Network16).Usable address) ∧
      (⟨10, 175⟩ : Network16).Usable (getIp (counterAfter 32766)) := by
  have h := usable_addresses_iff 65534 32766
  refine ⟨(h.1 "hadoop".toList ⟨51, 77⟩ rfl List.mem_cons_self).mpr (by decide), h.2.2.mpr ?_⟩
  rw [counterAfter_eq]
  decide

/-- **The cluster 65536 has no address.** -/
theorem octet_overflows : assertClusterId 65536 = .ok 65536 ∧
    getFrameworkMasterIp 65536 "hadoop".toList = .ok "51.77.256.0".toList ∧
      ¬ (⟨51, 77⟩ : Network16).Usable "51.77.256.0".toList := by
  refine ⟨rfl, by decide, ?_⟩
  have hunusable := (usable_iff ⟨51, 77⟩ (show (0 : Int) < 65536 by decide)).not.mpr (by decide)
  exact hunusable

end GexCloud
