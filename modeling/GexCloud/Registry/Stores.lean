import GexCloud.Base.Ruby
import GexCloud.Support.Decimal
import Mathlib.Logic.Function.Basic

/-! # `zookeeper_utils.rb` and `consul_utils.rb`: the registry of nodes and containers

The addresses and ports of nodes and containers are kept in a registry, of which the scripts have two
versions: one on a tree of znodes, with a cache of what was read (`$z_dictionary`), and one on a map
of keys. A value has the same path in both.

* `Key` — what is kept, and its path (`Key.path`).
* `Zookeeper` — `zcreate`, `zput` and `zget` on the tree, and the functions built on them.
* `Consul` — the functions on the map.
* `Op` — a registry operation, performed by `Zookeeper.perform` and `Consul.perform`. -/

namespace GexCloud.Registry

open Texts

/-! ## Names, values and paths -/

/-- White space in front of a number. -/
def isBlank (c : Char) : Bool := c == ' ' || (decide (9 ≤ c.toNat) && decide (c.toNat ≤ 13))

/-- The digits at the start of a text, read on from `acc`; a single underscore may stand between. -/
def digits (acc : Nat) : Text → Nat
  | [] => acc
  | [c] => if c.isDigit then acc * 10 + (c.toNat - 48) else acc
  | '_' :: c :: rest => if c.isDigit then digits (acc * 10 + (c.toNat - 48)) rest else acc
  | c :: rest => if c.isDigit then digits (acc * 10 + (c.toNat - 48)) rest else acc

/-- A number without sign, after the prefix `0d` if it is there; 0 when it starts with no digit. -/
def unsigned (s : Text) : Nat :=
  let s := if "0d".toList <+: s ∨ "0D".toList <+: s then s.drop 2 else s
  if (s.head?.map Char.isDigit) = some true then digits 0 s else 0

/-- `String#to_i`. -/
def toI (s : Text) : Int :=
  match s.dropWhile isBlank with
  | '-' :: rest => -(unsigned rest : Int)
  | '+' :: rest => (unsigned rest : Int)
  | rest => (unsigned rest : Int)

/-- Digits alone are all read. -/
theorem digits_of_isDigit {t : Text} (h : ∀ c ∈ t, c.isDigit = true) (acc : Nat) :
    digits acc t = Nat.ofDigitChars 10 t acc := by
  fun_induction digits acc t with
  | case1 acc => rfl
  | case2 acc c hc => simp [Nat.ofDigitChars_cons, Nat.mul_comm]
  | case3 acc c hc => exact absurd (h c List.mem_cons_self) hc
  | case4 acc c rest hc ih => exact absurd (h '_' List.mem_cons_self) (by decide)
  | case5 acc c rest hc => exact absurd (h '_' List.mem_cons_self) (by decide)
  | case6 acc c rest _ _ hc ih =>
    rw [ih fun d hd => h d (List.mem_cons_of_mem c hd), Nat.ofDigitChars_cons, Nat.mul_comm]
    rfl
  | case7 acc c rest _ _ hc => exact absurd (h c List.mem_cons_self) hc

/-- The number of a decimal text. -/
theorem unsigned_decimal (n : Nat) : unsigned (decimal n) = n := by
  have hd : ∀ c : Char, c.isDigit = false → ¬ ['0', c] <+: decimal n := by
    intro c hc hpre
    exact not_mem_decimal hc (hpre.subset (by simp))
  have hhead : (decimal n).head?.map Char.isDigit = some true := by
    cases hn : decimal n with
    | nil => exact absurd hn (decimal_ne_nil n)
    | cons c t =>
      have hc : c.isDigit = true := isDigit_of_mem_decimal (n := n) (by simp [hn])
      simp [hc]
  have hprefix : ¬("0d".toList <+: decimal n ∨ "0D".toList <+: decimal n) := by
    rintro (h | h)
    · exact hd 'd' (by decide) h
    · exact hd 'D' (by decide) h
  simp only [unsigned, if_neg hprefix, if_pos hhead]
  rw [digits_of_isDigit fun c hc => isDigit_of_mem_decimal hc, ofDigitChars_decimal]

/-- A digit is no white space. -/
theorem isBlank_of_isDigit {c : Char} (h : c.isDigit = true) : isBlank c = false := by
  have hge : 48 ≤ c.toNat := le_toNat_of_isDigit h
  have hne : c ≠ ' ' := by
    rintro rfl
    exact absurd hge (by decide)
  have hlt : ¬ c.toNat ≤ 13 := by omega
  simp [isBlank, hne, hlt]

/-- **`to_s` undone by `to_i`.** -/
@[simp] theorem toI_signed (n : Int) : toI (signed n) = n := by
  cases n with
  | ofNat n =>
    obtain ⟨c, t, hn⟩ := List.exists_cons_of_ne_nil (decimal_ne_nil n)
    have hc : c.isDigit = true := isDigit_of_mem_decimal (n := n) (by simp [hn])
    have hdrop : (decimal n).dropWhile isBlank = decimal n := by
      rw [hn, List.dropWhile_cons_of_neg (by simp [isBlank_of_isDigit hc])]
    simp only [toI, signed, hdrop]
    split
    · exact absurd ‹_› (decimal_ne_cons (by decide) _)
    · exact absurd ‹_› (decimal_ne_cons (by decide) _)
    · rw [unsigned_decimal]
      rfl
  | negSucc n =>
    have hdrop : ('-' :: decimal (n + 1)).dropWhile isBlank = '-' :: decimal (n + 1) :=
      List.dropWhile_cons_of_neg (by decide)
    simp only [toI, signed, hdrop]
    rw [unsigned_decimal]
    rfl
/-- `assert_node`. -/
def assertNode (node : Text) : Except RubyError Unit := assert (!decide ('.' ∈ node)) (' ' :: node)

/-- `assert_node_container`. -/
def assertNodeContainer (node container : Text) : Except RubyError Unit :=
  assert (!decide ('.' ∈ node) && !decide ('.' ∈ container) && !(container == "container".toList) &&
    !(node == "node".toList)) (node ++ ' ' :: container)

/-- `assert_ip`. -/
def assertIp (ip : Text) : Except RubyError Unit := assert (decide ('.' ∈ ip)) (' ' :: ip)

/-- `assert_port`. -/
def assertPort (port : Text) : Except RubyError Unit := assert (decide (toI port < 65000)) (' ' :: port)

/-- What the registry keeps of a node or a container. -/
inductive Attribute
  | primaryIp
  | tunnelIp
  | vpnPort
  deriving DecidableEq

/-- The last component of a path. -/
def Attribute.text : Attribute → Text
  | .primaryIp => "primary_ip".toList
  | .tunnelIp => "tunnel_ip".toList
  | .vpnPort => "vpn_port".toList

/-- The assertion on a value that is set. -/
def Attribute.assertValue : Attribute → Text → Except RubyError Unit
  | .primaryIp => assertIp
  | .tunnelIp => assertIp
  | .vpnPort => assertPort

/-- The assertion on a value that is read: `assert_ip`, or `assert_nnil`. -/
def Attribute.assertResult : Attribute → Text → Except RubyError Unit
  | .primaryIp => assertIp
  | .tunnelIp => assertIp
  | .vpnPort => fun _ => .ok ()

/-- What the registry keeps. -/
inductive Key
  | container (node container : Text) (attr : Attribute)
  | node (node : Text) (attr : Attribute)
  deriving DecidableEq

/-- The attribute of a key. -/
def Key.attr : Key → Attribute
  | .container _ _ attr => attr
  | .node _ attr => attr

/-- `/nodes/#{node}`. -/
def nodePath (node : Text) : Text := "/nodes/".toList ++ node

/-- `/nodes/#{node}/info`. -/
def infoPath (node : Text) : Text := nodePath node ++ "/info".toList

/-- `/nodes/#{node}/containers`. -/
def containersPath (node : Text) : Text := nodePath node ++ "/containers".toList

/-- `/nodes/#{node}/containers/#{container}`. -/
def containerPath (node container : Text) : Text := containersPath node ++ '/' :: container

/-- The path of a value. -/
def Key.path : Key → Text
  | .container n c attr => containerPath n c ++ '/' :: attr.text
  | .node n attr => nodePath n ++ '/' :: attr.text

/-- The assertion on the names of a key. -/
def Key.assertNames : Key → Except RubyError Unit
  | .container n c _ => assertNodeContainer n c
  | .node n _ => assertNode n

/-- A registry operation. -/
inductive Op
  | createNode (node : Text)
  | createContainerDir (node container : Text)
  | set (key : Key) (value : Text)
  | get (key : Key)

/-- A call that returns nothing. -/
def silent {σ : Type} (m : Except RubyError σ) : Except RubyError (Option Text × σ) := do
  let s ← m
  return (none, s)

/-- A call that returns a value. -/
def answering {σ : Type} (m : Except RubyError (Text × σ)) : Except RubyError (Option Text × σ) := do
  let (value, s) ← m
  return (some value, s)

/-! ## ZooKeeper -/

/-- The path of the parent of a znode. -/
def parentPath (p : Text) : Text :=
  match ((p.reverse.dropWhile (· != '/')).drop 1).reverse with
  | [] => ['/']
  | q => q

/-- A path ZooKeeper accepts for a new znode: no component of it is empty. -/
def validPath (p : Text) : Bool :=
  match p.splitOn '/' with
  | [] :: component :: rest => (component :: rest).all (· != [])
  | _ => false

/-- The server and `$z_dictionary`. -/
structure Zookeeper where
  tree : Text → Option Text
  dictionary : Text → Option Text

namespace Zookeeper

/-- `$zk.create(:path => p)`: the return code and the tree. -/
def create (tree : Text → Option Text) (p : Text) : Int × (Text → Option Text) :=
  if validPath p = false then (-8, tree)
  else if (tree p).isSome then (-110, tree)
  else if (tree (parentPath p)).isSome then (0, Function.update tree p (some []))
  else (-101, tree)

/-- `zcheckexit`. -/
def zcheckexit (rc : Int) : Except RubyError Unit :=
  assert (decide (rc = 0)) ("Non zero exit code ".toList ++ (toString rc).toList ++ " ".toList)

/-- `zcreate`. -/
def zcreate (p : Text) (z : Zookeeper) : Except RubyError Zookeeper :=
  if (create z.tree p).1 = -110 then .ok z
  else do
    zcheckexit (create z.tree p).1
    return { z with tree := (create z.tree p).2 }

/-- `zput`. -/
def zput (p data : Text) (z : Zookeeper) : Except RubyError Zookeeper := do
  zcheckexit (if (z.tree p).isSome then 0 else -101)
  return { z with tree := Function.update z.tree p (some data) }

/-- `zget`. -/
def zget (p : Text) (z : Zookeeper) : Except RubyError (Text × Zookeeper) :=
  match z.dictionary p with
  | some value => .ok (value, z)
  | none =>
    match z.tree p with
    | none => do
      zcheckexit (-101)
      return ([], z)
    | some data => .ok (data, { z with dictionary := Function.update z.dictionary p (some data) })

/-- `zcreate_node`. -/
def zcreateNode (node : Text) (z : Zookeeper) : Except RubyError Zookeeper := do
  assertNode node
  let z ← zcreate (nodePath node) z
  let z ← zcreate (infoPath node) z
  zcreate (containersPath node) z

/-- `zcreate_container_dir`. -/
def zcreateContainerDir (node container : Text) (z : Zookeeper) : Except RubyError Zookeeper := do
  assertNodeContainer node container
  zcreate (containerPath node container) z

/-- The setters: `zset_container_ip` and the like. -/
def zset (key : Key) (value : Text) (z : Zookeeper) : Except RubyError Zookeeper := do
  key.assertNames
  key.attr.assertValue value
  let z ← zcreate key.path z
  zput key.path value z

/-- The getters: `zget_container_ip` and the like. -/
def zgetKey (key : Key) (z : Zookeeper) : Except RubyError (Text × Zookeeper) := do
  key.assertNames
  let (value, z) ← zget key.path z
  key.attr.assertResult value
  return (value, z)

/-- `zset_container_ip`. -/
def zsetContainerIp (node container ip : Text) : Zookeeper → Except RubyError Zookeeper :=
  zset (.container node container .primaryIp) ip

/-- `zget_container_ip`. -/
def zgetContainerIp (node container : Text) : Zookeeper → Except RubyError (Text × Zookeeper) :=
  zgetKey (.container node container .primaryIp)

/-- `zset_container_tunnel_ip`. -/
def zsetContainerTunnelIp (node container ip : Text) : Zookeeper → Except RubyError Zookeeper :=
  zset (.container node container .tunnelIp) ip

/-- `zget_container_tunnel_ip`. -/
def zgetContainerTunnelIp (node container : Text) : Zookeeper → Except RubyError (Text × Zookeeper) :=
  zgetKey (.container node container .tunnelIp)

/-- `zset_container_vpn_port`. -/
def zsetContainerVpnPort (node container port : Text) : Zookeeper → Except RubyError Zookeeper :=
  zset (.container node container .vpnPort) port

/-- `zget_container_vpn_port`. -/
def zgetContainerVpnPort (node container : Text) : Zookeeper → Except RubyError (Text × Zookeeper) :=
  zgetKey (.container node container .vpnPort)

/-- `zset_node_ip`. -/
def zsetNodeIp (node ip : Text) : Zookeeper → Except RubyError Zookeeper :=
  zset (.node node .primaryIp) ip

/-- `zget_node_ip`. -/
def zgetNodeIp (node : Text) : Zookeeper → Except RubyError (Text × Zookeeper) :=
  zgetKey (.node node .primaryIp)

/-- `zset_node_tunnel_ip`. -/
def zsetNodeTunnelIp (node ip : Text) : Zookeeper → Except RubyError Zookeeper :=
  zset (.node node .tunnelIp) ip

/-- `zget_node_tunnel_ip`. -/
def zgetNodeTunnelIp (node : Text) : Zookeeper → Except RubyError (Text × Zookeeper) :=
  zgetKey (.node node .tunnelIp)

/-- `zset_node_vpn_port`. -/
def zsetNodeVpnPort (node port : Text) : Zookeeper → Except RubyError Zookeeper :=
  zset (.node node .vpnPort) port

/-- `zget_node_vpn_port`. -/
def zgetNodeVpnPort (node : Text) : Zookeeper → Except RubyError (Text × Zookeeper) :=
  zgetKey (.node node .vpnPort)

/-- One registry operation on ZooKeeper. -/
def perform (z : Zookeeper) : Op → Except RubyError (Option Text × Zookeeper)
  | .createNode node => silent (zcreateNode node z)
  | .createContainerDir node container => silent (zcreateContainerDir node container z)
  | .set (.container node container .primaryIp) value =>
    silent (zsetContainerIp node container value z)
  | .set (.container node container .tunnelIp) value =>
    silent (zsetContainerTunnelIp node container value z)
  | .set (.container node container .vpnPort) value =>
    silent (zsetContainerVpnPort node container value z)
  | .set (.node node .primaryIp) value => silent (zsetNodeIp node value z)
  | .set (.node node .tunnelIp) value => silent (zsetNodeTunnelIp node value z)
  | .set (.node node .vpnPort) value => silent (zsetNodeVpnPort node value z)
  | .get (.container node container .primaryIp) => answering (zgetContainerIp node container z)
  | .get (.container node container .tunnelIp) => answering (zgetContainerTunnelIp node container z)
  | .get (.container node container .vpnPort) => answering (zgetContainerVpnPort node container z)
  | .get (.node node .primaryIp) => answering (zgetNodeIp node z)
  | .get (.node node .tunnelIp) => answering (zgetNodeTunnelIp node z)
  | .get (.node node .vpnPort) => answering (zgetNodeVpnPort node z)

end Zookeeper

/-! ## Consul -/

/-- The server: the value of each key. -/
structure Consul where
  kv : Text → Option Text

namespace Consul

/-- `Diplomat::Kv.put`. -/
def put (p value : Text) (k : Consul) : Consul := ⟨Function.update k.kv p (some value)⟩

/-- `Diplomat::Kv.get`, which raises for a key that is not there. -/
def get (p : Text) (k : Consul) : Except RubyError Text :=
  match k.kv p with
  | none => .error (.exception "Diplomat::KeyNotFound".toList)
  | some value => .ok value

/-- `consul_create_node`. -/
def consulCreateNode (node : Text) (k : Consul) : Except RubyError Consul := do
  assertNode node
  return put (containersPath node) [] (put (infoPath node) [] (put (nodePath node) [] k))

/-- `consul_create_container_dir`. -/
def consulCreateContainerDir (node container : Text) (k : Consul) : Except RubyError Consul := do
  assertNodeContainer node container
  return put (containerPath node container) [] k

/-- The setters: `consul_set_container_ip` and the like. -/
def consulSet (key : Key) (value : Text) (k : Consul) : Except RubyError Consul := do
  key.assertNames
  key.attr.assertValue value
  return put key.path value k

/-- The getters: `consul_get_container_ip` and the like. -/
def consulGetKey (key : Key) (k : Consul) : Except RubyError (Text × Consul) := do
  key.assertNames
  let value ← get key.path k
  key.attr.assertResult value
  return (value, k)

/-- `consul_set_container_ip`. -/
def consulSetContainerIp (node container ip : Text) : Consul → Except RubyError Consul :=
  consulSet (.container node container .primaryIp) ip

/-- `consul_get_container_ip`. -/
def consulGetContainerIp (node container : Text) : Consul → Except RubyError (Text × Consul) :=
  consulGetKey (.container node container .primaryIp)

/-- `consul_set_container_tunnel_ip`. -/
def consulSetContainerTunnelIp (node container ip : Text) : Consul → Except RubyError Consul :=
  consulSet (.container node container .tunnelIp) ip

/-- `consul_get_container_tunnel_ip`. -/
def consulGetContainerTunnelIp (node container : Text) : Consul → Except RubyError (Text × Consul) :=
  consulGetKey (.container node container .tunnelIp)

/-- `consul_set_container_vpn_port`. -/
def consulSetContainerVpnPort (node container port : Text) : Consul → Except RubyError Consul :=
  consulSet (.container node container .vpnPort) port

/-- `consul_get_container_vpn_port`. -/
def consulGetContainerVpnPort (node container : Text) : Consul → Except RubyError (Text × Consul) :=
  consulGetKey (.container node container .vpnPort)

/-- `consul_set_node_ip`. -/
def consulSetNodeIp (node ip : Text) : Consul → Except RubyError Consul :=
  consulSet (.node node .primaryIp) ip

/-- `consul_get_node_ip`. -/
def consulGetNodeIp (node : Text) : Consul → Except RubyError (Text × Consul) :=
  consulGetKey (.node node .primaryIp)

/-- `consul_set_node_tunnel_ip`. -/
def consulSetNodeTunnelIp (node ip : Text) : Consul → Except RubyError Consul :=
  consulSet (.node node .tunnelIp) ip

/-- `consul_get_node_tunnel_ip`. -/
def consulGetNodeTunnelIp (node : Text) : Consul → Except RubyError (Text × Consul) :=
  consulGetKey (.node node .tunnelIp)

/-- `consul_set_node_vpn_port`. -/
def consulSetNodeVpnPort (node port : Text) : Consul → Except RubyError Consul :=
  consulSet (.node node .vpnPort) port

/-- `consul_get_node_vpn_port`. -/
def consulGetNodeVpnPort (node : Text) : Consul → Except RubyError (Text × Consul) :=
  consulGetKey (.node node .vpnPort)

/-- One registry operation on Consul. -/
def perform (k : Consul) : Op → Except RubyError (Option Text × Consul)
  | .createNode node => silent (consulCreateNode node k)
  | .createContainerDir node container => silent (consulCreateContainerDir node container k)
  | .set (.container node container .primaryIp) value =>
    silent (consulSetContainerIp node container value k)
  | .set (.container node container .tunnelIp) value =>
    silent (consulSetContainerTunnelIp node container value k)
  | .set (.container node container .vpnPort) value =>
    silent (consulSetContainerVpnPort node container value k)
  | .set (.node node .primaryIp) value => silent (consulSetNodeIp node value k)
  | .set (.node node .tunnelIp) value => silent (consulSetNodeTunnelIp node value k)
  | .set (.node node .vpnPort) value => silent (consulSetNodeVpnPort node value k)
  | .get (.container node container .primaryIp) =>
    answering (consulGetContainerIp node container k)
  | .get (.container node container .tunnelIp) =>
    answering (consulGetContainerTunnelIp node container k)
  | .get (.container node container .vpnPort) =>
    answering (consulGetContainerVpnPort node container k)
  | .get (.node node .primaryIp) => answering (consulGetNodeIp node k)
  | .get (.node node .tunnelIp) => answering (consulGetNodeTunnelIp node k)
  | .get (.node node .vpnPort) => answering (consulGetNodeVpnPort node k)

end Consul

/-! ## The families -/

/-- A setter on ZooKeeper, whatever its key. -/
theorem Zookeeper.perform_set (z : Zookeeper) (key : Key) (value : Text) :
    z.perform (.set key value) = silent (zset key value z) := by
  obtain ⟨node, container, attr⟩ | ⟨node, attr⟩ := key <;> cases attr <;> rfl

/-- A getter on ZooKeeper, whatever its key. -/
theorem Zookeeper.perform_get (z : Zookeeper) (key : Key) :
    z.perform (.get key) = answering (zgetKey key z) := by
  obtain ⟨node, container, attr⟩ | ⟨node, attr⟩ := key <;> cases attr <;> rfl

/-- A setter on Consul, whatever its key. -/
theorem Consul.perform_set (k : Consul) (key : Key) (value : Text) :
    k.perform (.set key value) = silent (consulSet key value k) := by
  obtain ⟨node, container, attr⟩ | ⟨node, attr⟩ := key <;> cases attr <;> rfl

/-- A getter on Consul, whatever its key. -/
theorem Consul.perform_get (k : Consul) (key : Key) :
    k.perform (.get key) = answering (consulGetKey key k) := by
  obtain ⟨node, container, attr⟩ | ⟨node, attr⟩ := key <;> cases attr <;> rfl

end GexCloud.Registry
