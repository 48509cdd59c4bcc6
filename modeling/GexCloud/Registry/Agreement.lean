import GexCloud.Registry.Stores
import GexCloud.Support.Runs

/-! # The two registries compared

What a registry is for, whichever store keeps it: a getter returns what was written last. A `Ledger`
is such a registry, which besides remembers which znodes there are and what each path held when it was
read first, the value that `$z_dictionary` answers with from then on.

* `Ledger.Admissible` — the operations a script may perform: names and values accepted, parents
  created, nothing read that was not written.
* `Ledger.Sound` — the operations that both stores perform like the registry.
* **`registries_agree`** — runs of sound operations give the same answers in both stores, those of
  the registry. -/

namespace GexCloud.Registry

open Texts Runs

/-! ## The abstract registry -/

/-- A registry: the paths created, the value written last at each path, and the value that was there
when the path was read first. -/
structure Ledger where
  created : Text → Bool
  written : Text → Option Text
  firstRead : Text → Option Text

/-- The paths an operation creates. -/
def Op.creates : Op → List Text
  | .createNode node => [nodePath node, infoPath node, containersPath node]
  | .createContainerDir node container => [containerPath node container]
  | .set key _ => [key.path]
  | .get _ => []

/-- The assertions on an operation pass. -/
def Op.Accepted : Op → Prop
  | .createNode node => assertNode node = .ok ()
  | .createContainerDir node container => assertNodeContainer node container = .ok ()
  | .set key value => key.assertNames = .ok () ∧ key.attr.assertValue value = .ok ()
  | .get key => key.assertNames = .ok ()

namespace Ledger

/-- The paths created once some are created. -/
def create (created : Text → Bool) (p : Text) : Text → Bool := Function.update created p true

/-- Every path is one a znode can have, below a parent created before. -/
def ParentsCreated (created : Text → Bool) : List Text → Prop
  | [] => True
  | p :: ps => validPath p = true ∧ (created p = true ∨ created (parentPath p) = true) ∧
      ParentsCreated (create created p) ps

/-- What a getter returns. -/
def answer (s : Ledger) : Op → Option Text
  | .get key => s.written key.path
  | _ => none

/-- The registry after an operation. -/
def after (s : Ledger) (op : Op) : Ledger where
  created := op.creates.foldl create s.created
  written :=
    match op with
    | .set key value => Function.update s.written key.path (some value)
    | _ => s.written
  firstRead :=
    match op with
    | .get key =>
      if s.firstRead key.path = none then
        Function.update s.firstRead key.path (s.written key.path)
      else s.firstRead
    | _ => s.firstRead

/-- **An operation a script may perform**: its assertions pass, its parents are created, and a value
is read only once it is written. -/
def Admissible (s : Ledger) (op : Op) : Prop :=
  op.Accepted ∧ ParentsCreated s.created op.creates ∧
    ∀ key, op = .get key → s.written key.path ≠ none

/-- **The condition**: nothing else was written to a path since it was read first, and no directory is
created where a value is. -/
def Sound (s : Ledger) : Op → Prop
  | .createNode node => ∀ p ∈ (Op.createNode node).creates, s.written p = none
  | .createContainerDir node container => s.written (containerPath node container) = none
  | .set _ _ => True
  | .get key => s.firstRead key.path = none ∨ s.firstRead key.path = s.written key.path

/-- One operation of a script. -/
def Step (s : Ledger) (op : Op) (t : Ledger) : Prop := s.Admissible op ∧ t = s.after op

/-- The answers of the registry to a sequence of operations. -/
def answers (s : Ledger) : List Op → List (Option Text)
  | [] => []
  | op :: ops => s.answer op :: (s.after op).answers ops

end Ledger

/-- The answers of a store to a sequence of operations; the first exception ends it. -/
def outputs {σ : Type} (perform : σ → Op → Except RubyError (Option Text × σ)) :
    σ → List Op → Except RubyError (List (Option Text))
  | _, [] => .ok []
  | s, op :: ops => do
    let (out, s) ← perform s op
    let rest ← outputs perform s ops
    return out :: rest

/-! ## The stores represent the registry -/

/-- Both stores hold what the registry does. -/
structure Represents (s : Ledger) (z : Zookeeper) (k : Consul) : Prop where
  tree_isSome : ∀ p, (z.tree p).isSome = s.created p
  tree_written : ∀ p v, s.written p = some v → z.tree p = some v
  kv_written : ∀ p v, s.written p = some v → k.kv p = some v
  dictionary_eq : z.dictionary = s.firstRead
  accepted : ∀ key v, s.written (Key.path key) = some v → key.attr.assertValue v = .ok ()

/-- Two keys with one path have one attribute, which is the last component. -/
theorem Key.attr_eq_of_path_eq {key key' : Key} (h : key.path = key'.path) : key.attr = key'.attr := by
  have hsuffix : ∀ k : Key, ('/' :: k.attr.text) <:+ k.path := by
    intro k
    cases k with
    | container n c attr => exact List.suffix_append _ _
    | node n attr => exact List.suffix_append _ _
  have hcases := List.suffix_or_suffix_of_suffix (hsuffix key) (h ▸ hsuffix key')
  revert hcases
  cases key.attr <;> cases key'.attr <;> decide

/-- A value that passed the assertion of its attribute passes the one on what is read. -/
theorem Attribute.assertResult_of_assertValue {attr : Attribute} {v : Text}
    (h : attr.assertValue v = .ok ()) : attr.assertResult v = .ok () := by
  cases attr with
  | primaryIp => exact h
  | tunnelIp => exact h
  | vpnPort => rfl

variable {s t : Ledger} {z : Zookeeper} {k : Consul}

/-- **Creating a znode** below a parent that is there, or finding it there, adds its path and leaves
the data of every other. -/
theorem Zookeeper.zcreate_eq_ok {p : Text} (hvalid : validPath p = true)
    (hparent : (z.tree p).isSome = true ∨ (z.tree (parentPath p)).isSome = true) :
    ∃ tree, Zookeeper.zcreate p z = .ok { z with tree := tree } ∧
      (∀ q, (tree q).isSome = Function.update (fun q => (z.tree q).isSome) p true q) ∧
      ∀ q v, z.tree q = some v → tree q = some v := by
  by_cases hp : (z.tree p).isSome = true
  · refine ⟨z.tree, ?_, ?_, fun q v hv => hv⟩
    · have hcreate : Zookeeper.create z.tree p = (-110, z.tree) := by
        simp [Zookeeper.create, hvalid, hp]
      rw [Zookeeper.zcreate, hcreate, if_pos rfl]
    · intro q
      by_cases hq : q = p
      · rw [hq, hp, Function.update_self]
      · rw [Function.update_of_ne hq]
  · have hparent' : (z.tree (parentPath p)).isSome = true := hparent.resolve_left hp
    have hcreate : Zookeeper.create z.tree p = (0, Function.update z.tree p (some [])) := by
      simp [Zookeeper.create, hvalid, hp, hparent']
    refine ⟨Function.update z.tree p (some []), ?_, ?_, ?_⟩
    · rw [Zookeeper.zcreate, hcreate, if_neg (show ¬(0 : Int) = -110 by decide)]
      rfl
    · intro q
      by_cases hq : q = p
      · rw [hq, Function.update_self, Function.update_self]
        rfl
      · rw [Function.update_of_ne hq, Function.update_of_ne hq]
    · intro q v hv
      have hq : q ≠ p := by
        rintro rfl
        exact hp (by rw [hv]; rfl)
      rw [Function.update_of_ne hq, hv]

/-- Creating several znodes, each below a parent that is there by then. -/
theorem Zookeeper.zcreates_eq_ok {created : Text → Bool} {ps : List Text}
    (hparents : Ledger.ParentsCreated created ps) (hz : ∀ q, (z.tree q).isSome = created q) :
    ∃ tree, ps.foldlM (fun z p => Zookeeper.zcreate p z) z = .ok { z with tree := tree } ∧
      (∀ q, (tree q).isSome = ps.foldl Ledger.create created q) ∧
      ∀ q v, z.tree q = some v → tree q = some v := by
  induction ps generalizing z created with
  | nil => exact ⟨z.tree, rfl, hz, fun q v hv => hv⟩
  | cons p ps ih =>
    obtain ⟨hvalid, hparent, hrest⟩ := hparents
    obtain ⟨tree, hcreate, hsome, hkeep⟩ :=
      Zookeeper.zcreate_eq_ok hvalid (by rwa [hz, hz] : (z.tree p).isSome = true ∨ _)
    have hsome' : ∀ q, (tree q).isSome = Ledger.create created p q := by
      intro q
      rw [hsome, Ledger.create]
      by_cases hq : q = p
      · rw [hq, Function.update_self, Function.update_self]
      · rw [Function.update_of_ne hq, Function.update_of_ne hq, hz]
    obtain ⟨tree', hcreates, hsome'', hkeep'⟩ := ih (z := { z with tree := tree }) hrest hsome'
    refine ⟨tree', ?_, hsome'', fun q v hv => hkeep' q v (hkeep q v hv)⟩
    rw [List.foldlM_cons, hcreate]
    exact hcreates

/-- Putting empty values where nothing was written keeps what was. -/
theorem Consul.put_nil_written {p : Text} (hp : s.written p = none)
    (h : ∀ q v, s.written q = some v → k.kv q = some v) :
    ∀ q v, s.written q = some v → (Consul.put p [] k).kv q = some v := by
  intro q v hv
  have hq : q ≠ p := by
    rintro rfl
    rw [hp] at hv
    cases hv
  show Function.update k.kv p _ q = _
  rw [Function.update_of_ne hq, h q v hv]

/-- Creating directories keeps the stores together. -/
theorem Represents.creates (h : Represents s z k) {ps : List Text} {z' : Zookeeper} {k' : Consul}
    (hsome : ∀ q, (z'.tree q).isSome = ps.foldl Ledger.create s.created q)
    (hkeep : ∀ q v, z.tree q = some v → z'.tree q = some v)
    (hdictionary : z'.dictionary = z.dictionary)
    (hkv : ∀ q v, s.written q = some v → k'.kv q = some v) :
    Represents { s with created := ps.foldl Ledger.create s.created } z' k' where
  tree_isSome := hsome
  tree_written p v hv := hkeep p v (h.tree_written p v hv)
  kv_written := hkv
  dictionary_eq := hdictionary.trans h.dictionary_eq
  accepted := h.accepted

/-- Setting a value keeps the stores together, the znode once created. -/
theorem Represents.set (h : Represents s z k) {key : Key} {value : Text} {tree : Text → Option Text}
    (hsome : ∀ q, (tree q).isSome = Function.update (fun q => (z.tree q).isSome) key.path true q)
    (hkeep : ∀ q v, z.tree q = some v → tree q = some v)
    (hvalue : key.attr.assertValue value = .ok ()) :
    Represents (s.after (.set key value))
      { z with tree := Function.update tree key.path (some value) } (Consul.put key.path value k) := by
  refine ⟨fun p => ?_, fun p v hv => ?_, fun p v hv => ?_, h.dictionary_eq, fun key' v hv => ?_⟩
  · show (Function.update tree key.path (some value) p).isSome = Ledger.create s.created key.path p
    rw [Ledger.create]
    by_cases hp : p = key.path
    · rw [hp, Function.update_self, Function.update_self]
      rfl
    · rw [Function.update_of_ne hp, Function.update_of_ne hp, hsome, Function.update_of_ne hp,
        h.tree_isSome]
  · show Function.update tree key.path (some value) p = some v
    have hv' : Function.update s.written key.path (some value) p = some v := hv
    by_cases hp : p = key.path
    · rw [hp, Function.update_self] at hv' ⊢
      exact hv'
    · rw [Function.update_of_ne hp] at hv' ⊢
      exact hkeep p v (h.tree_written p v hv')
  · show Function.update k.kv key.path (some value) p = some v
    have hv' : Function.update s.written key.path (some value) p = some v := hv
    by_cases hp : p = key.path
    · rw [hp, Function.update_self] at hv' ⊢
      exact hv'
    · rw [Function.update_of_ne hp] at hv' ⊢
      exact h.kv_written p v hv'
  · have hv' : Function.update s.written key.path (some value) key'.path = some v := hv
    by_cases hp : key'.path = key.path
    · rw [hp, Function.update_self] at hv'
      rw [← Option.some.inj hv', Key.attr_eq_of_path_eq hp]
      exact hvalue
    · rw [Function.update_of_ne hp] at hv'
      exact h.accepted key' v hv'

/-- **One operation**: both stores perform it like the registry. -/
theorem Represents.step (h : Represents s z k) {op : Op} (hadmissible : s.Admissible op)
    (hsound : s.Sound op) : ∃ z' k', z.perform op = .ok (s.answer op, z') ∧
      k.perform op = .ok (s.answer op, k') ∧ Represents (s.after op) z' k' := by
  obtain ⟨haccepted, hparents, hwritten⟩ := hadmissible
  cases op with
  | createNode node =>
    obtain ⟨tree, hcreates, hsome, hkeep⟩ := Zookeeper.zcreates_eq_ok hparents h.tree_isSome
    have hnode : assertNode node = .ok () := haccepted
    have hzookeeper : Zookeeper.zcreateNode node z = .ok { z with tree := tree } := by
      rw [← hcreates, Zookeeper.zcreateNode, hnode]
      show (do
        let z ← Zookeeper.zcreate (nodePath node) z
        let z ← Zookeeper.zcreate (infoPath node) z
        Zookeeper.zcreate (containersPath node) z) = _
      simp only [Op.creates, List.foldlM_cons, List.foldlM_nil, bind_pure]
    have hconsul : Consul.consulCreateNode node k = .ok (Consul.put (containersPath node) []
        (Consul.put (infoPath node) [] (Consul.put (nodePath node) [] k))) := by
      rw [Consul.consulCreateNode, hnode]
      rfl
    have hempty : ∀ p ∈ [nodePath node, infoPath node, containersPath node], s.written p = none :=
      hsound
    have hkv := Consul.put_nil_written (hempty (containersPath node) (by simp))
      (Consul.put_nil_written (hempty (infoPath node) (by simp))
        (Consul.put_nil_written (hempty (nodePath node) (by simp)) h.kv_written))
    refine ⟨{ z with tree := tree }, _, ?_, ?_, h.creates hsome hkeep rfl hkv⟩
    · rw [Zookeeper.perform, silent, hzookeeper]
      rfl
    · rw [Consul.perform, silent, hconsul]
      rfl
  | createContainerDir node container =>
    obtain ⟨tree, hcreates, hsome, hkeep⟩ := Zookeeper.zcreates_eq_ok hparents h.tree_isSome
    have hnames : assertNodeContainer node container = .ok () := haccepted
    have hzookeeper : Zookeeper.zcreateContainerDir node container z =
        .ok { z with tree := tree } := by
      rw [← hcreates, Zookeeper.zcreateContainerDir, hnames]
      show Zookeeper.zcreate (containerPath node container) z = _
      simp only [Op.creates, List.foldlM_cons, List.foldlM_nil, bind_pure]
    have hconsul : Consul.consulCreateContainerDir node container k =
        .ok (Consul.put (containerPath node container) [] k) := by
      rw [Consul.consulCreateContainerDir, hnames]
      rfl
    have hkv := Consul.put_nil_written (p := containerPath node container) hsound h.kv_written
    refine ⟨{ z with tree := tree }, _, ?_, ?_, h.creates hsome hkeep rfl hkv⟩
    · rw [Zookeeper.perform, silent, hzookeeper]
      rfl
    · rw [Consul.perform, silent, hconsul]
      rfl
  | set key value =>
    obtain ⟨hnames, hvalue⟩ := haccepted
    obtain ⟨hvalid, hparent, -⟩ := hparents
    obtain ⟨tree, hcreate, hsome, hkeep⟩ := Zookeeper.zcreate_eq_ok (z := z) hvalid
      (by rwa [h.tree_isSome, h.tree_isSome])
    have hthere : (tree key.path).isSome = true := by rw [hsome, Function.update_self]
    have hzookeeper : Zookeeper.zset key value z =
        .ok { z with tree := Function.update tree key.path (some value) } := by
      simp only [Zookeeper.zset, hnames, hvalue, hcreate, Zookeeper.zput, hthere, bind, Except.bind,
        if_true]
      rfl
    have hconsul : Consul.consulSet key value k = .ok (Consul.put key.path value k) := by
      rw [Consul.consulSet, hnames, hvalue]
      rfl
    refine ⟨_, _, ?_, ?_, h.set hsome hkeep hvalue⟩
    · rw [Zookeeper.perform_set, silent, hzookeeper]
      rfl
    · rw [Consul.perform_set, silent, hconsul]
      rfl
  | get key =>
    have hnames : key.assertNames = .ok () := haccepted
    obtain ⟨value, hvalue⟩ := Option.ne_none_iff_exists'.1 (hwritten key rfl)
    have hresult := Attribute.assertResult_of_assertValue (h.accepted key value hvalue)
    have hconsul : Consul.consulGetKey key k = .ok (value, k) := by
      simp only [Consul.consulGetKey, hnames, Consul.get, h.kv_written _ _ hvalue, hresult, bind,
        Except.bind]
      rfl
    have hanswer : s.answer (.get key) = some value := hvalue
    rw [hanswer, Zookeeper.perform_get, Consul.perform_get, hconsul]
    -- the first read fills the cache, a later one is answered from it
    by_cases hread : s.firstRead key.path = none
    · have hmiss : z.dictionary key.path = none := by rw [h.dictionary_eq, hread]
      let dictionary := Function.update z.dictionary key.path (some value)
      have hzookeeper : Zookeeper.zgetKey key z = .ok (value, { z with dictionary := dictionary }) := by
        simp only [Zookeeper.zgetKey, hnames, Zookeeper.zget, hmiss, h.tree_written _ _ hvalue, hresult,
          bind, Except.bind]
        rfl
      rw [hzookeeper]
      refine ⟨_, k, rfl, rfl, h.tree_isSome, h.tree_written, h.kv_written, ?_, h.accepted⟩
      show dictionary = if s.firstRead key.path = none then _ else _
      rw [if_pos hread, hvalue, ← h.dictionary_eq]
    · have hhit : z.dictionary key.path = some value := by
        rw [h.dictionary_eq, hsound.resolve_left hread, hvalue]
      have hzookeeper : Zookeeper.zgetKey key z = .ok (value, z) := by
        simp only [Zookeeper.zgetKey, hnames, Zookeeper.zget, hhit, hresult, bind, Except.bind]
        rfl
      rw [hzookeeper]
      refine ⟨z, k, rfl, rfl, h.tree_isSome, h.tree_written, h.kv_written, ?_, h.accepted⟩
      show z.dictionary = if s.firstRead key.path = none then _ else _
      rw [if_neg hread, h.dictionary_eq]

/-- **The registries agree**: over every sequence of sound operations both stores give the answers of
the registry, each getter the value written last. -/
theorem registries_agree {ops : List Op} (hrep : Represents s z k)
    (hrun : Run (guarded Ledger.Sound Ledger.Step) s ops t) :
    outputs Zookeeper.perform z ops = .ok (s.answers ops) ∧
    outputs Consul.perform k ops = .ok (s.answers ops) := by
  induction hrun generalizing z k with
  | nil => exact ⟨rfl, rfl⟩
  | cons head tail ih =>
    obtain ⟨hsound, hadmissible, rfl⟩ := head
    obtain ⟨z', k', hz, hk, hrep'⟩ := hrep.step hadmissible hsound
    obtain ⟨hzookeeper, hconsul⟩ := ih hrep'
    constructor
    · rw [outputs, hz]
      show (do let rest ← outputs Zookeeper.perform z' _; return _ :: rest) = _
      rw [hzookeeper]
      rfl
    · rw [outputs, hk]
      show (do let rest ← outputs Consul.perform k' _; return _ :: rest) = _
      rw [hconsul]
      rfl

/-! ## From an empty registry -/

/-- The registry of an initialized cluster without nodes. -/
def Ledger.start : Ledger :=
  ⟨fun p => decide (p = "/".toList ∨ p = "/nodes".toList), fun _ => none, fun _ => none⟩

/-- The tree of an initialized cluster without nodes, nothing read yet. -/
def Zookeeper.start : Zookeeper :=
  ⟨fun p => if p = "/".toList ∨ p = "/nodes".toList then some [] else none, fun _ => none⟩

/-- The map of an initialized cluster without nodes. -/
def Consul.start : Consul := ⟨fun p => if p = "/nodes".toList then some [] else none⟩

/-- The stores start together. -/
theorem represents_start : Represents Ledger.start Zookeeper.start Consul.start where
  tree_isSome p := by
    show (if p = "/".toList ∨ p = "/nodes".toList then some [] else none : Option Text).isSome =
      decide (p = "/".toList ∨ p = "/nodes".toList)
    by_cases hp : p = "/".toList ∨ p = "/nodes".toList
    · rw [if_pos hp, decide_eq_true hp]
      rfl
    · rw [if_neg hp, decide_eq_false hp]
      rfl
  tree_written p v hv := by cases hv
  kv_written p v hv := by cases hv
  dictionary_eq := rfl
  accepted key v hv := by cases hv

/-- The names in a key have no slash. -/
def Key.SlashFree : Key → Prop
  | .container n c _ => '/' ∉ n ∧ '/' ∉ c
  | .node n _ => '/' ∉ n

/-- The names in an operation have no slash. -/
def Op.SlashFree : Op → Prop
  | .createNode node => '/' ∉ node
  | .createContainerDir node container => '/' ∉ node ∧ '/' ∉ container
  | .set key _ => key.SlashFree
  | .get key => key.SlashFree

/-- The components of the directory of a node. -/
theorem nodePath_splitOn {n : Text} (hn : '/' ∉ n) :
    (nodePath n).splitOn '/' = [[], "nodes".toList, n] := by
  have hpath : nodePath n = [] ++ '/' :: ("nodes".toList ++ '/' :: n) := rfl
  rw [hpath, List.splitOn_append_cons_self, List.splitOn_append_cons_self, List.splitOn_eq_singleton hn]
  rfl

/-- The components of a directory below that of a node. -/
theorem nodePath_append_splitOn {n x : Text} (hn : '/' ∉ n) (hx : '/' ∉ x) :
    (nodePath n ++ '/' :: x).splitOn '/' = [[], "nodes".toList, n, x] := by
  rw [List.splitOn_append_cons_self, nodePath_splitOn hn, List.splitOn_eq_singleton hx]
  rfl

/-- The components of the directory of a container. -/
theorem containerPath_splitOn {n c : Text} (hn : '/' ∉ n) (hc : '/' ∉ c) :
    (containerPath n c).splitOn '/' = [[], "nodes".toList, n, "containers".toList, c] := by
  have hpath : containersPath n = nodePath n ++ '/' :: "containers".toList := rfl
  rw [containerPath, hpath, List.splitOn_append_cons_self,
    nodePath_append_splitOn hn (by decide), List.splitOn_eq_singleton hc]
  rfl

/-- **Without slashes no directory is a value**: a directory that an operation creates has fewer
components than a value of a container, and another last component than a value of a node. -/
theorem Op.creates_ne_path {op : Op} (hop : op.SlashFree) {key : Key} (hkey : key.SlashFree)
    (hset : ∀ key' value, op ≠ .set key' value) : key.path ∉ op.creates := by
  have hattr : ∀ attr : Attribute, '/' ∉ attr.text ∧ attr.text ≠ "info".toList ∧
      attr.text ≠ "containers".toList := by
    intro attr
    cases attr <;> decide
  have hkeyPath : (key.path.splitOn '/').length = 6 ∨
      ∃ n attr, key.path.splitOn '/' = [[], "nodes".toList, n, Attribute.text attr] := by
    cases key with
    | container n c attr =>
      left
      rw [Key.path, List.splitOn_append_cons_self, containerPath_splitOn hkey.1 hkey.2,
        List.splitOn_eq_singleton (hattr attr).1]
      rfl
    | node n attr => exact .inr ⟨n, attr, nodePath_append_splitOn hkey (hattr attr).1⟩
  -- a value has six components, or four with an attribute as the last
  have hlast : ∀ {n x : Text}, key.path.splitOn '/' = [[], "nodes".toList, n, x] →
      ∃ attr, x = Attribute.text attr := by
    intro n x heq
    obtain hlength | ⟨n', attr, h⟩ := hkeyPath
    · rw [heq] at hlength
      cases hlength
    · rw [heq] at h
      simp only [List.cons.injEq, true_and, and_true] at h
      exact ⟨attr, h.2⟩
  have hlength : (key.path.splitOn '/').length = 6 ∨ (key.path.splitOn '/').length = 4 := by
    obtain hlength | ⟨n, attr, h⟩ := hkeyPath
    · exact .inl hlength
    · exact .inr (by rw [h]; rfl)
  intro hmem
  cases op with
  | createNode node =>
    have hinfo : (infoPath node).splitOn '/' = [[], "nodes".toList, node, "info".toList] :=
      nodePath_append_splitOn hop (by decide)
    have hcontainers : (containersPath node).splitOn '/' =
        [[], "nodes".toList, node, "containers".toList] := nodePath_append_splitOn hop (by decide)
    simp only [creates, List.mem_cons, List.not_mem_nil, or_false] at hmem
    obtain hmem | hmem | hmem := hmem
    · rw [hmem, nodePath_splitOn hop] at hlength
      obtain hlength | hlength := hlength <;> cases hlength
    · obtain ⟨attr, h⟩ := hlast (hmem ▸ hinfo)
      exact (hattr attr).2.1 h.symm
    · obtain ⟨attr, h⟩ := hlast (hmem ▸ hcontainers)
      exact (hattr attr).2.2 h.symm
  | createContainerDir node container =>
    rw [List.mem_singleton.mp hmem, containerPath_splitOn hop.1 hop.2] at hlength
    obtain hlength | hlength := hlength <;> cases hlength
  | set key' value => exact hset key' value rfl
  | get key' => cases hmem

/-- Every written path is that of a key without slashes. -/
def Ledger.WrittenSlashFree (s : Ledger) : Prop :=
  ∀ p, s.written p ≠ none → ∃ key : Key, key.SlashFree ∧ key.path = p

/-- Operations without slashes in their names write such paths only. -/
theorem Ledger.WrittenSlashFree.after (h : s.WrittenSlashFree) {op : Op} (hop : op.SlashFree) :
    (s.after op).WrittenSlashFree := by
  intro p hp
  cases op with
  | set key value =>
    by_cases heq : p = key.path
    · exact ⟨key, hop, heq.symm⟩
    · refine h p ?_
      have hp' : Function.update s.written key.path (some value) p ≠ none := hp
      rwa [Function.update_of_ne heq] at hp'
  | createNode node => exact h p hp
  | createContainerDir node container => exact h p hp
  | get key => exact h p hp

/-- An operation without slashes in its names is sound unless it reads a value that was changed since
it was read first. -/
theorem Ledger.sound_of_slashFree {op : Op} (hop : op.SlashFree)
    (hwritten : s.WrittenSlashFree)
    (hget : ∀ key, op = .get key →
      s.firstRead key.path = none ∨ s.firstRead key.path = s.written key.path) : s.Sound op := by
  have hcreates : (∀ key' value, op ≠ .set key' value) → ∀ p ∈ op.creates, s.written p = none := by
    intro hset p hp
    by_contra hne
    obtain ⟨key, hkey, rfl⟩ := hwritten p hne
    exact Op.creates_ne_path hop hkey hset hp
  cases op with
  | createNode node => exact hcreates (fun _ _ h => by cases h)
  | createContainerDir node container =>
    exact hcreates (fun _ _ h => by cases h) _ (List.mem_singleton_self _)
  | set key value => trivial
  | get key => exact hget key rfl

/-- **The registries agree on names without slashes** wherever no value is read that was changed since
it was read first. -/
theorem registries_agree_slashFree {ops : List Op}
    (hrun : Run (guarded (fun s op => op.SlashFree ∧ ∀ key, op = .get key →
      s.firstRead key.path = none ∨ s.firstRead key.path = s.written key.path) Ledger.Step)
      Ledger.start ops t) :
    outputs Zookeeper.perform Zookeeper.start ops = .ok (Ledger.start.answers ops) ∧
    outputs Consul.perform Consul.start ops = .ok (Ledger.start.answers ops) := by
  have hsound : ∃ t', Run (guarded Ledger.Sound Ledger.Step) Ledger.start ops t' ∧
      t = t' ∧ t.WrittenSlashFree := by
    refine hrun.simulation (fun s s' => s = s' ∧ s.WrittenSlashFree) ?_
      ⟨rfl, fun p hp => absurd rfl hp⟩
    rintro s op u s' ⟨rfl, hs⟩ ⟨⟨hop, hget⟩, hadmissible, rfl⟩
    exact ⟨_, ⟨Ledger.sound_of_slashFree hop hs hget, hadmissible, rfl⟩, rfl, hs.after hop⟩
  obtain ⟨t', hrun', -⟩ := hsound
  exact registries_agree represents_start hrun'

/-- The address of node `n`. -/
def nodeAddress : Key := .node "n".toList .primaryIp

/-- Node `n` is created. -/
theorem step_createNode : Ledger.Step Ledger.start (.createNode "n".toList)
    (Ledger.start.after (.createNode "n".toList)) := by
  refine ⟨⟨rfl, ?_, fun _ h => by cases h⟩, rfl⟩
  exact ⟨by decide, .inr (by decide), by decide, .inr (by decide), by decide, .inr (by decide),
    trivial⟩

/-- The address of node `n` is set where it is there or its directory is. -/
theorem step_setAddress {s : Ledger} {ip : Text} (hip : assertIp ip = .ok ())
    (hparent : s.created nodeAddress.path = true ∨ s.created (parentPath nodeAddress.path) = true) :
    Ledger.Step s (.set nodeAddress ip) (s.after (.set nodeAddress ip)) :=
  ⟨⟨⟨rfl, hip⟩, ⟨by decide, hparent, trivial⟩, fun _ h => by cases h⟩, rfl⟩

/-- The address of node `n` is read where it is written. -/
theorem step_getAddress {s : Ledger} (hwritten : s.written nodeAddress.path ≠ none) :
    Ledger.Step s (.get nodeAddress) (s.after (.get nodeAddress)) := by
  refine ⟨⟨rfl, trivial, ?_⟩, rfl⟩
  rintro _ ⟨⟩
  exact hwritten

/-- An address that is changed before it is read is read as it was written last. -/
theorem registries_agree_changed :
    outputs Zookeeper.perform Zookeeper.start [.createNode "n".toList,
      .set nodeAddress "10.0.0.1".toList, .set nodeAddress "10.0.0.2".toList, .get nodeAddress] =
        .ok [none, none, none, some "10.0.0.2".toList] ∧
    outputs Consul.perform Consul.start [.createNode "n".toList,
      .set nodeAddress "10.0.0.1".toList, .set nodeAddress "10.0.0.2".toList, .get nodeAddress] =
        .ok [none, none, none, some "10.0.0.2".toList] :=
  registries_agree represents_start
    (.cons ⟨fun p _ => rfl, step_createNode⟩
      (.cons ⟨trivial, step_setAddress rfl (.inr (by decide))⟩
        (.cons ⟨trivial, step_setAddress rfl (.inl (by decide))⟩
          (.cons ⟨.inl rfl, step_getAddress (by decide)⟩ (.nil _)))))

/-- **A value changed after it was read**: ZooKeeper's cache answers with the old address, Consul with
the new one. -/
theorem registries_agree_fails :
    ¬∀ (ops : List Op) (t : Ledger), Run Ledger.Step Ledger.start ops t →
      outputs Zookeeper.perform Zookeeper.start ops = .ok (Ledger.start.answers ops) ∧
      outputs Consul.perform Consul.start ops = .ok (Ledger.start.answers ops) := by
  intro h
  have hops := (h [.createNode "n".toList, .set nodeAddress "10.0.0.1".toList, .get nodeAddress,
    .set nodeAddress "10.0.0.2".toList, .get nodeAddress] _
    (.cons step_createNode (.cons (step_setAddress rfl (.inr (by decide)))
      (.cons (step_getAddress (by decide)) (.cons (step_setAddress rfl (.inl (by decide)))
        (.cons (step_getAddress (by decide)) (.nil _))))))).1
  revert hops
  decide

end GexCloud.Registry
