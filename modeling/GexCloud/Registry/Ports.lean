import GexCloud.Registry.Stores

/-! # The ports of a cluster on the shared host

Every cluster has one Consul and one Zookeeper on `51.0.1.8`; their ports are computed from the id of
the cluster, by `consul_ports` and `zport`, which know nothing of each other.

* `consulPorts`, `zport` — the two formulas.
* `Use`, `port` — the six uses of a port, and the port of a cluster for each of them.
* `PortPlan` — the ports of two clusters are proper ports and no two of them are equal.
* `Separate` — the ids for which Zookeeper's port does not fall among the Consul ports.
* **`portPlan_iff`** — the plan works out exactly for separate ids up to 5107. -/

namespace GexCloud.Registry

open Texts

/-! ## The formulas -/

/-- `assert_cluster_id`, given a number. -/
def assertClusterId (cluster_id : Int) : Except RubyError Int := do
  assert (decide (0 < cluster_id)) ("Invalid clustert id, ".toList ++ signed cluster_id)
  return cluster_id

/-- A cluster id is accepted exactly when it is positive. -/
theorem assertClusterId_eq_ok_iff {cluster_id k : Int} :
    assertClusterId cluster_id = .ok k ↔ 0 < cluster_id ∧ k = cluster_id := by
  by_cases hpos : 0 < cluster_id
  · simp [assertClusterId, assert, hpos, bind, Except.bind, pure, Except.pure, eq_comm]
  · simp [assertClusterId, assert, hpos, bind, Except.bind]

/-- `first.downto(last).to_a`. -/
def downto (first last : Int) : List Int :=
  (List.range (first - last + 1).toNat).map fun i => first - i

/-- What `consul_ports` returns. -/
structure ConsulPorts where
  dns : Int
  http : Int
  serfLan : Int
  serfWan : Int
  server : Int
  deriving DecidableEq

/-- `consul_ports`. -/
def consulPorts (cluster_id : Int) : Except RubyError ConsulPorts := do
  let _ ← assertClusterId cluster_id
  let max := cluster_id * 5
  let arr := downto max (max - 4)
  return {
    dns := 40000 + arr.getD 0 0
    http := 40000 + arr.getD 1 0
    serfLan := 40000 + arr.getD 2 0
    serfWan := 40000 + arr.getD 3 0
    server := 40000 + arr.getD 4 0 }

/-- `zport`. -/
def zport (cluster_id : Int) : Except RubyError Text := do
  let _ ← assertClusterId cluster_id
  return signed (60000 + cluster_id)

/-- Five numbers counted down. -/
theorem downto_five (max : Int) : downto max (max - 4) = [max, max - 1, max - 2, max - 3, max - 4] := by
  have hlen : (max - (max - 4) + 1).toNat = 5 := by omega
  rw [downto, hlen]
  simp [List.range_succ]

/-- The Consul ports of an accepted id. -/
theorem consulPorts_of_pos {cluster_id : Int} (h : 0 < cluster_id) :
    consulPorts cluster_id = .ok {
      dns := 40000 + cluster_id * 5
      http := 40000 + (cluster_id * 5 - 1)
      serfLan := 40000 + (cluster_id * 5 - 2)
      serfWan := 40000 + (cluster_id * 5 - 3)
      server := 40000 + (cluster_id * 5 - 4) } := by
  have hid : assertClusterId cluster_id = .ok cluster_id := assertClusterId_eq_ok_iff.mpr ⟨h, rfl⟩
  simp only [consulPorts, hid, downto_five]
  rfl

/-- Zookeeper's port of an accepted id. -/
theorem zport_of_pos {cluster_id : Int} (h : 0 < cluster_id) :
    zport cluster_id = .ok (signed (60000 + cluster_id)) := by
  rw [zport, assertClusterId_eq_ok_iff.mpr ⟨h, rfl⟩]
  rfl

/-! ## The plan -/

/-- What a port of a cluster is used for. -/
inductive Use
  | dns
  | http
  | serfLan
  | serfWan
  | server
  | zookeeper
  deriving DecidableEq

/-- The port of a cluster for a use, as a number. -/
def port (cluster_id : Int) : Use → Except RubyError Int
  | .dns => (consulPorts cluster_id).map (·.dns)
  | .http => (consulPorts cluster_id).map (·.http)
  | .serfLan => (consulPorts cluster_id).map (·.serfLan)
  | .serfWan => (consulPorts cluster_id).map (·.serfWan)
  | .server => (consulPorts cluster_id).map (·.server)
  | .zookeeper => (zport cluster_id).map toI

/-- The place of a Consul use below the highest of the five ports. -/
def Use.offset : Use → Int
  | .dns => 0
  | .http => 1
  | .serfLan => 2
  | .serfWan => 3
  | .server => 4
  | .zookeeper => 0

/-- The two lines on which the ports lie. -/
def line (cluster_id : Int) (u : Use) : Int :=
  if u = .zookeeper then 60000 + cluster_id else 40000 + (cluster_id * 5 - u.offset)

/-- Every use of an accepted cluster has a port, on its line. -/
theorem port_of_pos {cluster_id : Int} (h : 0 < cluster_id) (u : Use) :
    port cluster_id u = .ok (line cluster_id u) := by
  cases u with
  | zookeeper => simp [port, zport_of_pos h, line, Except.map]
  | _ => simp [port, consulPorts_of_pos h, line, Use.offset, Except.map]

/-- The offsets of the Consul uses are 0 to 4. -/
theorem Use.offset_bounds (u : Use) : 0 ≤ u.offset ∧ u.offset ≤ 4 := by
  cases u <;> decide

/-- Different Consul uses have different offsets. -/
theorem Use.offset_injective {u v : Use} (hu : u ≠ .zookeeper) (hv : v ≠ .zookeeper)
    (h : u.offset = v.offset) : u = v := by
  revert hu hv h
  cases u <;> cases v <;> decide

/-- **The plan for two clusters**: every port is between 1 and 65535, and two ports that differ in
their cluster or in their use are different. -/
def PortPlan (a b : Int) : Prop :=
  (∀ x ∈ [a, b], ∀ u p, port x u = .ok p → 1 ≤ p ∧ p ≤ 65535) ∧
    ∀ x ∈ [a, b], ∀ y ∈ [a, b], ∀ u v p q, port x u = .ok p → port y v = .ok q →
      (x, u) ≠ (y, v) → p ≠ q

/-- Zookeeper's port of `y` lies below or above the five Consul ports of `x`. -/
def Separate (x y : Int) : Prop := 20000 + y < 5 * x - 4 ∨ 5 * x < 20000 + y

instance (x y : Int) : Decidable (Separate x y) := by unfold Separate; infer_instance

/-- Where the lines meet: two ports of one plan that are equal belong to Consul on one side and to
Zookeeper on the other. -/
theorem line_ne_line {x y : Int} {u v : Use} (hxy : Separate x y) (hyx : Separate y x)
    (hne : (x, u) ≠ (y, v)) : line x u ≠ line y v := by
  have hu := u.offset_bounds
  have hv := v.offset_bounds
  rcases hxy with hxy | hxy <;> rcases hyx with hyx | hyx <;>
  · intro h
    by_cases hzu : u = .zookeeper <;> by_cases hzv : v = .zookeeper <;>
      simp only [line, hzu, hzv, if_true, if_false] at h
    · -- both on Zookeeper's line, which has one port for each cluster
      exact hne (by rw [hzu, hzv, show x = y by omega])
    · omega
    · omega
    · -- both on Consul's line: five ports for each cluster, so the cluster is the same
      obtain rfl : x = y := by omega
      exact hne (by rw [Use.offset_injective hzu hzv (by omega)])

/-- The ports of an accepted id up to 5107 are proper ports. -/
theorem line_bounds {x : Int} (hpos : 0 < x) (hmax : x ≤ 5107) (u : Use) :
    1 ≤ line x u ∧ line x u ≤ 65535 := by
  have hu := u.offset_bounds
  unfold line
  split <;> omega

/-- Separate ids up to 5107 have a plan. -/
theorem portPlan_of_separate {a b : Int} (hpos : ∀ x ∈ [a, b], 0 < x) (hmax : ∀ x ∈ [a, b], x ≤ 5107)
    (hsep : ∀ x ∈ [a, b], ∀ y ∈ [a, b], Separate x y) : PortPlan a b := by
  constructor
  · intro x hx u p hp
    rw [port_of_pos (hpos x hx), Except.ok.injEq] at hp
    subst hp
    exact line_bounds (hpos x hx) (hmax x hx) u
  · intro x hx y hy u v p q hp hq hne
    rw [port_of_pos (hpos x hx), Except.ok.injEq] at hp
    rw [port_of_pos (hpos y hy), Except.ok.injEq] at hq
    subst hp hq
    exact line_ne_line (hsep x hx y hy) (hsep y hy x hx) hne

/-- A cluster of a plan has an id up to 5107: its highest Consul port is a proper one. -/
theorem PortPlan.le_max {a b x : Int} (h : PortPlan a b) (hx : x ∈ [a, b]) (hpos : 0 < x) :
    x ≤ 5107 := by
  have hdns := (h.1 x hx .dns _ (port_of_pos hpos .dns)).2
  simp only [line, Use.offset, reduceCtorEq, if_false] at hdns
  omega

/-- Clusters of a plan are separate: each of the five Consul ports of one differs from Zookeeper's
port of the other. -/
theorem PortPlan.separate {a b x y : Int} (h : PortPlan a b) (hx : x ∈ [a, b]) (hy : y ∈ [a, b])
    (hposx : 0 < x) (hposy : 0 < y) : Separate x y := by
  have hne : ∀ u : Use, u ≠ .zookeeper → 40000 + (x * 5 - u.offset) ≠ 60000 + y := by
    intro u hu
    have hports := h.2 x hx y hy u .zookeeper _ _ (port_of_pos hposx u) (port_of_pos hposy .zookeeper)
      (fun heq => hu (congrArg Prod.snd heq))
    simpa [line, hu] using hports
  have h0 := hne .dns (by decide)
  have h1 := hne .http (by decide)
  have h2 := hne .serfLan (by decide)
  have h3 := hne .serfWan (by decide)
  have h4 := hne .server (by decide)
  simp only [Use.offset] at h0 h1 h2 h3 h4
  unfold Separate
  omega

/-- Ids up to 4000 have a plan: all Consul ports end below the first port of Zookeeper. -/
theorem portPlan_of_le {a b : Int} (ha : 0 < a ∧ a ≤ 4000) (hb : 0 < b ∧ b ≤ 4000) :
    PortPlan a b := by
  have hall : ∀ x ∈ [a, b], 0 < x ∧ x ≤ 4000 := by
    intro x hx
    rcases List.mem_pair.mp hx with rfl | rfl
    · exact ha
    · exact hb
  apply portPlan_of_separate
  · exact fun x hx => (hall x hx).1
  · intro x hx
    have := (hall x hx).2
    omega
  · intro x hx y hy
    have := (hall x hx).2
    have := (hall y hy).1
    right
    omega

/-- **The port plan works out exactly for separate ids up to 5107.** -/
theorem portPlan_iff {a b : Int} (ha : assertClusterId a = .ok a) (hb : assertClusterId b = .ok b) :
    PortPlan a b ↔ (a ≤ 5107 ∧ b ≤ 5107) ∧ ∀ x ∈ [a, b], ∀ y ∈ [a, b], Separate x y := by
  have hpos : ∀ x ∈ [a, b], 0 < x := by
    intro x hx
    rcases List.mem_pair.mp hx with rfl | rfl
    · exact (assertClusterId_eq_ok_iff.mp ha).1
    · exact (assertClusterId_eq_ok_iff.mp hb).1
  constructor
  · intro h
    have ha0 := hpos a (by simp)
    have hb0 := hpos b (by simp)
    exact ⟨⟨h.le_max (by simp) ha0, h.le_max (by simp) hb0⟩,
      fun x hx y hy => h.separate hx hy (hpos x hx) (hpos y hy)⟩
  · rintro ⟨⟨hamax, hbmax⟩, hsep⟩
    apply portPlan_of_separate hpos _ hsep
    intro x hx
    rcases List.mem_pair.mp hx with rfl | rfl
    · exact hamax
    · exact hbmax

/-- Two ordinary ids meet the condition. -/
theorem portPlan_iff_small : assertClusterId 1 = .ok 1 ∧ assertClusterId 4000 = .ok 4000 ∧
    PortPlan 1 4000 :=
  ⟨rfl, rfl, (portPlan_iff rfl rfl).mpr (by decide)⟩

/-- The clusters 4001 and 1 are both accepted and share port 60001: the server port of the first is
Zookeeper's port of the second. -/
theorem portPlan_fails :
    assertClusterId 4001 = .ok 4001 ∧ assertClusterId 1 = .ok 1 ∧
      port 4001 .server = .ok 60001 ∧ port 1 .zookeeper = .ok 60001 ∧ ¬ PortPlan 4001 1 := by
  refine ⟨rfl, rfl, by decide +kernel, by decide +kernel, fun h => ?_⟩
  exact h.2 4001 (by simp) 1 (by simp) .server .zookeeper 60001 60001 (by decide +kernel)
    (by decide +kernel) (by decide) rfl

end GexCloud.Registry
