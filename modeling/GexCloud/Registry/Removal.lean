import GexCloud.Registry.Agreement

/-! # Removing a container or a node from ZooKeeper

`zremove_container_dir` and `zremove_node_dir` issue one `delete`, and ZooKeeper refuses to delete a
znode that has children. What the scripts create decides where that is enough.

* `Delete` — `$zk.delete`: refused for a znode that is absent or has children.
* `Reachable` — the trees that the registry operations build from that of an initialized cluster.
* `Removed` — what a removal is for: the znode and everything below it is gone, nothing else changed.
* **`removal_iff`** — a removal does that exactly where nothing is below the znode: for a container
  without addresses and ports, and for no node. -/

namespace GexCloud.Registry

open Texts Runs

/-! ## Paths -/

/-- A path below another. -/
def Below (p q : Text) : Prop := p ++ ['/'] <+: q

/-- The parent of a path whose last component is written out. -/
theorem parentPath_append {a b : Text} (ha : a ≠ []) (hb : '/' ∉ b) :
    parentPath (a ++ '/' :: b) = a := by
  have hdrop : (a ++ '/' :: b).reverse.dropWhile (· != '/') = '/' :: a.reverse := by
    have hreverse : (a ++ '/' :: b).reverse = b.reverse ++ '/' :: a.reverse := by simp
    rw [hreverse, List.dropWhile_append_of_pos]
    · exact List.dropWhile_cons_of_neg (by decide)
    · intro c hc
      have hne : c ≠ '/' := by
        rintro rfl
        exact hb (List.mem_reverse.mp hc)
      simpa using hne
  obtain ⟨c, a', rfl⟩ := List.exists_cons_of_ne_nil ha
  simp only [parentPath, hdrop, List.drop_succ_cons, List.drop_zero, List.reverse_reverse]

/-- A path is below its parent, the root apart. -/
theorem below_of_parentPath {p q : Text} (h : parentPath q = p) (hp : p ≠ ['/']) : Below p q := by
  have happend := List.takeWhile_append_dropWhile (p := (· != '/')) (l := q.reverse)
  cases hdrop : q.reverse.dropWhile (· != '/') with
  | nil =>
    simp only [parentPath, hdrop] at h
    exact absurd h.symm hp
  | cons c rest =>
    have hc : c = '/' := by
      have hhead := List.head_dropWhile_not (· != '/') (l := q.reverse) (by simp [hdrop])
      simpa [hdrop] using hhead
    have hq : q = rest.reverse ++ '/' :: (q.reverse.takeWhile (· != '/')).reverse := by
      have hreverse := congrArg List.reverse happend
      rw [hdrop, hc] at hreverse
      simpa using hreverse.symm
    have hparent : p = rest.reverse := by
      simp only [parentPath, hdrop, List.drop_succ_cons, List.drop_zero] at h
      cases hrest : rest.reverse with
      | nil =>
        rw [hrest] at h
        exact absurd h.symm hp
      | cons d rest' =>
        rw [hrest] at h
        exact h.symm
    refine ⟨(q.reverse.takeWhile (· != '/')).reverse, ?_⟩
    rw [hparent]
    conv_rhs => rw [hq]
    simp

/-- The directory of a node is longer than the two it is below. -/
theorem length_nodePath (node : Text) : (nodePath node).length = node.length + 7 := by
  have hlength : ∀ t : Text, (t ++ node).length = node.length + t.length := by
    intro t
    rw [List.length_append, Nat.add_comm]
  exact hlength "/nodes/".toList

/-- That of a container is below one of a node. -/
theorem containerPath_eq (node container : Text) : containerPath node container =
    nodePath node ++ '/' :: ("containers".toList ++ '/' :: container) := by
  have hcontainers : "/containers".toList = '/' :: "containers".toList := by decide
  rw [containerPath, containersPath, hcontainers, List.append_assoc, List.cons_append]

/-! ## `$zk.delete` and the removals -/

/-- A znode has a child. -/
def HasChild (tree : Text → Option Text) (p : Text) : Prop :=
  ∃ q, parentPath q = p ∧ q ≠ p ∧ (tree q).isSome = true

/-- `$zk.delete(:path => p)`: the return code and the tree. -/
structure Delete where
  delete : (Text → Option Text) → Text → Int × (Text → Option Text)
  /-- There is nothing to delete. -/
  refused_absent : ∀ tree p, tree p = none → (delete tree p).1 ≠ 0
  /-- A znode that has children is not deleted. -/
  refused_parent : ∀ tree p, HasChild tree p → (delete tree p).1 ≠ 0
  /-- Any other is. -/
  deleted : ∀ tree p, (tree p).isSome = true → ¬HasChild tree p →
    delete tree p = (0, Function.update tree p none)

namespace Delete

/-- `zdelete`. -/
def zdelete (D : Delete) (p : Text) (z : Zookeeper) : Except RubyError Zookeeper := do
  Zookeeper.zcheckexit (D.delete z.tree p).1
  return { z with tree := (D.delete z.tree p).2 }

/-- `zremove_container_dir`. -/
def zremoveContainerDir (D : Delete) (node container : Text) (z : Zookeeper) :
    Except RubyError Zookeeper := do
  assertNodeContainer node container
  D.zdelete (containerPath node container) z

/-- `zremove_node_dir`. -/
def zremoveNodeDir (D : Delete) (node : Text) (z : Zookeeper) : Except RubyError Zookeeper := do
  assertNode node
  D.zdelete (nodePath node) z

variable {D : Delete} {z z' : Zookeeper} {p : Text}

/-- Deleting a znode that is there and has no children, and no other, succeeds. -/
theorem zdelete_eq_ok_iff : D.zdelete p z = .ok z' ↔ (z.tree p).isSome = true ∧
    ¬HasChild z.tree p ∧ z' = { z with tree := Function.update z.tree p none } := by
  by_cases hp : (z.tree p).isSome = true ∧ ¬HasChild z.tree p
  · have hdelete : D.zdelete p z = .ok { z with tree := Function.update z.tree p none } := by
      rw [zdelete, D.deleted z.tree p hp.1 hp.2]
      rfl
    rw [hdelete, Except.ok.injEq]
    exact ⟨fun h => ⟨hp.1, hp.2, h.symm⟩, fun h => h.2.2.symm⟩
  · have hrc : (D.delete z.tree p).1 ≠ 0 := by
      by_cases hsome : (z.tree p).isSome = true
      · exact D.refused_parent _ _ (not_not.mp fun hchild => hp ⟨hsome, hchild⟩)
      · exact D.refused_absent _ _ (Option.not_isSome_iff_eq_none.mp hsome)
    constructor
    · intro h
      simp [zdelete, Zookeeper.zcheckexit, assert, hrc, bind, Except.bind] at h
    · intro h
      exact absurd ⟨h.1, h.2.1⟩ hp

end Delete

/-- **What a removal is for**: the znode and everything below it is gone, and nothing else changed. -/
def Removed (p : Text) (before after : Text → Option Text) : Prop :=
  (∀ q, q = p ∨ Below p q → after q = none) ∧ ∀ q, q ≠ p → ¬Below p q → after q = before q

/-! ## The trees the operations build -/

/-- The parent of a znode is a znode. -/
def Closed (tree : Text → Option Text) : Prop :=
  ∀ q, (tree q).isSome = true → (tree (parentPath q)).isSome = true

/-- In such a tree a znode with something below it has a child. -/
theorem Closed.hasChild {tree : Text → Option Text} (h : Closed tree) {p q : Text} (hp : p ≠ [])
    (hbelow : Below p q) (hq : (tree q).isSome = true) : HasChild tree p := by
  have hparent : ∀ r b : Text, '/' ∉ b → (tree (p ++ '/' :: (r ++ b))).isSome = true →
      HasChild tree p := by
    intro r
    -- up to the last slash of the rest, which is the parent's path
    induction r using List.reverseRecOn with
    | nil =>
      intro b hb hsome
      exact ⟨p ++ '/' :: b, parentPath_append hp hb, by simp, hsome⟩
    | append_singleton r c ih =>
      intro b hb hsome
      by_cases hc : c = '/'
      · have hpath : p ++ '/' :: (r ++ [c] ++ b) = (p ++ '/' :: r) ++ '/' :: b := by simp [hc]
        rw [hpath] at hsome
        have hup := h _ hsome
        rw [parentPath_append (by simp) hb] at hup
        exact ih [] (by simp) (by simpa using hup)
      · refine ih (c :: b) ?_ (by simpa using hsome)
        rintro (_ | ⟨_, hmem⟩)
        · exact hc rfl
        · exact hb hmem
  obtain ⟨r, rfl⟩ := hbelow
  exact hparent r [] (by simp) (by simpa using hq)

/-- Adding a znode below one that is there keeps a tree so. -/
theorem Closed.update {tree : Text → Option Text} (h : Closed tree) {p data : Text}
    (hp : (tree (parentPath p)).isSome = true) : Closed (Function.update tree p (some data)) := by
  have hkeep : ∀ q, (tree q).isSome = true → (Function.update tree p (some data) q).isSome = true := by
    intro q hq
    by_cases heq : q = p
    · rw [heq, Function.update_self]
      rfl
    · rwa [Function.update_of_ne heq]
  intro q hq
  apply hkeep
  by_cases heq : q = p
  · rwa [heq]
  · rw [Function.update_of_ne heq] at hq
    exact h q hq

variable {z z' : Zookeeper}

/-- **Creating a znode** adds its path, if it was missing, below a znode that is there. -/
theorem Zookeeper.zcreate_grows {p : Text} (h : Zookeeper.zcreate p z = .ok z') :
    (∀ q, (z'.tree q).isSome = true ↔ (z.tree q).isSome = true ∨ q = p) ∧
    (Closed z.tree → Closed z'.tree) := by
  by_cases hvalid : validPath p = false
  · have hcreate : Zookeeper.create z.tree p = (-8, z.tree) := if_pos hvalid
    rw [Zookeeper.zcreate, hcreate] at h
    cases h
  by_cases hp : (z.tree p).isSome = true
  · have hcreate : Zookeeper.create z.tree p = (-110, z.tree) := by
      rw [Zookeeper.create, if_neg hvalid, if_pos hp]
    rw [Zookeeper.zcreate, hcreate, if_pos rfl, Except.ok.injEq] at h
    subst h
    refine ⟨fun q => ⟨.inl, ?_⟩, id⟩
    rintro (hq | rfl)
    · exact hq
    · exact hp
  by_cases hparent : (z.tree (parentPath p)).isSome = true
  · have hcreate : Zookeeper.create z.tree p = (0, Function.update z.tree p (some [])) := by
      rw [Zookeeper.create, if_neg hvalid, if_neg hp, if_pos hparent]
    rw [Zookeeper.zcreate, hcreate, if_neg (show ¬(0 : Int) = -110 by decide)] at h
    obtain rfl : ({ z with tree := Function.update z.tree p (some []) } : Zookeeper) = z' :=
      Except.ok.inj h
    refine ⟨fun q => ?_, fun hclosed => hclosed.update hparent⟩
    show (Function.update z.tree p (some []) q).isSome = true ↔ _
    by_cases hq : q = p
    · simp [hq]
    · simp [hq]
  · have hcreate : Zookeeper.create z.tree p = (-101, z.tree) := by
      rw [Zookeeper.create, if_neg hvalid, if_neg hp, if_neg hparent]
    rw [Zookeeper.zcreate, hcreate] at h
    cases h

/-- Creating several znodes adds their paths. -/
theorem Zookeeper.zcreates_grow {ps : List Text}
    (h : ps.foldlM (fun z p => Zookeeper.zcreate p z) z = .ok z') :
    (∀ q, (z'.tree q).isSome = true ↔ (z.tree q).isSome = true ∨ q ∈ ps) ∧
    (Closed z.tree → Closed z'.tree) := by
  induction ps generalizing z with
  | nil =>
    obtain rfl : z = z' := Except.ok.inj h
    exact ⟨fun q => by simp, id⟩
  | cons p ps ih =>
    rw [List.foldlM_cons, bind_eq_ok_iff] at h
    obtain ⟨z₁, hhead, htail⟩ := h
    obtain ⟨hfirst, hclosed⟩ := Zookeeper.zcreate_grows hhead
    obtain ⟨hrest, hclosed'⟩ := ih htail
    refine ⟨fun q => ?_, fun hz => hclosed' (hclosed hz)⟩
    rw [hrest, hfirst, List.mem_cons, or_assoc]

/-- Putting data into a znode adds no path. -/
theorem Zookeeper.zput_isSome {p data : Text} (h : Zookeeper.zput p data z = .ok z') (q : Text) :
    (z'.tree q).isSome = (z.tree q).isSome := by
  by_cases hp : (z.tree p).isSome = true
  · have hput : Zookeeper.zput p data z =
        .ok { z with tree := Function.update z.tree p (some data) } := by
      rw [Zookeeper.zput, if_pos hp]
      rfl
    rw [hput] at h
    obtain rfl := Except.ok.inj h
    show (Function.update z.tree p (some data) q).isSome = _
    by_cases hq : q = p
    · rw [hq, Function.update_self, hp]
      rfl
    · rw [Function.update_of_ne hq]
  · rw [Zookeeper.zput, if_neg hp] at h
    cases h

/-- Reading a value leaves the tree. -/
theorem Zookeeper.zget_tree {p value : Text} (h : Zookeeper.zget p z = .ok (value, z')) :
    z'.tree = z.tree := by
  rw [Zookeeper.zget] at h
  split at h
  · cases h
    rfl
  · split at h
    · cases h
    · cases h
      rfl

/-- **What an operation does to the tree**: it creates its paths in order; data and reads add none. -/
theorem Zookeeper.perform_creates {op : Op} {out : Option Text}
    (h : z.perform op = .ok (out, z')) :
    ∃ z₁, op.creates.foldlM (fun z p => Zookeeper.zcreate p z) z = .ok z₁ ∧
      ∀ q, (z'.tree q).isSome = (z₁.tree q).isSome := by
  have hsilent : ∀ {m : Except RubyError Zookeeper}, silent m = .ok (out, z') → m = .ok z' := by
    intro m hm
    obtain ⟨s, hs, hout⟩ := bind_eq_ok_iff.mp hm
    rw [hs, (Prod.mk.inj (Except.ok.inj hout)).2]
  cases op with
  | createNode node =>
    obtain ⟨_, -, hcreates⟩ := bind_eq_ok_iff.mp (hsilent h)
    refine ⟨z', ?_, fun q => rfl⟩
    simpa only [Op.creates, List.foldlM_cons, List.foldlM_nil, bind_pure] using hcreates
  | createContainerDir node container =>
    obtain ⟨_, -, hcreates⟩ := bind_eq_ok_iff.mp (hsilent h)
    refine ⟨z', ?_, fun q => rfl⟩
    simpa only [Op.creates, List.foldlM_cons, List.foldlM_nil, bind_pure] using hcreates
  | set key value =>
    rw [Zookeeper.perform_set] at h
    obtain ⟨_, -, hset⟩ := bind_eq_ok_iff.mp (hsilent h)
    obtain ⟨_, -, hset⟩ := bind_eq_ok_iff.mp hset
    obtain ⟨z₁, hcreate, hput⟩ := bind_eq_ok_iff.mp hset
    refine ⟨z₁, ?_, Zookeeper.zput_isSome hput⟩
    simpa only [Op.creates, List.foldlM_cons, List.foldlM_nil, bind_pure] using hcreate
  | get key =>
    rw [Zookeeper.perform_get] at h
    obtain ⟨⟨value, z₂⟩, hget, hout⟩ := bind_eq_ok_iff.mp h
    obtain rfl : z₂ = z' := (Prod.mk.inj (Except.ok.inj hout)).2
    obtain ⟨_, -, hget⟩ := bind_eq_ok_iff.mp hget
    obtain ⟨⟨value', z₃⟩, hread, hrest⟩ := bind_eq_ok_iff.mp hget
    obtain ⟨_, -, hrest⟩ := bind_eq_ok_iff.mp hrest
    obtain rfl : z₃ = z₂ := (Prod.mk.inj (Except.ok.inj hrest)).2
    exact ⟨z, rfl, fun q => by rw [Zookeeper.zget_tree hread]⟩

/-- The states reached from an initialized cluster by operations that succeed; one that raises has
created nothing, since only the first of its paths can be refused. -/
def Reachable (z : Zookeeper) : Prop :=
  ∃ ops, Run (fun z op z' => ∃ out, Zookeeper.perform z op = .ok (out, z')) Zookeeper.start ops z

/-- The trees of such states: no znode without its parent, and no node without its `info`. -/
structure Grown (tree : Text → Option Text) : Prop where
  closed : Closed tree
  info : ∀ node, '/' ∉ node → (tree (nodePath node)).isSome = true →
    (tree (infoPath node)).isSome = true

/-- Only `zcreate_node` creates the directory of a node. -/
theorem Op.createNode_of_mem {op : Op} {node : Text} (hnode : '/' ∉ node)
    (h : nodePath node ∈ op.creates) : op = .createNode node := by
  have hdeep : ∀ n x : Text, nodePath node ≠ nodePath n ++ '/' :: x := by
    intro n x heq
    have htail : node = n ++ '/' :: x := by
      have heq' : "/nodes/".toList ++ node = "/nodes/".toList ++ (n ++ '/' :: x) := by
        rw [← List.append_assoc]
        exact heq
      exact List.append_cancel_left heq'
    exact hnode (htail ▸ by simp)
  cases op with
  | createNode n =>
    obtain heq | heq | heq : nodePath node = nodePath n ∨ nodePath node = infoPath n ∨
        nodePath node = containersPath n := by simpa [Op.creates] using h
    · rw [List.append_cancel_left heq]
    · exact absurd heq (hdeep n _)
    · exact absurd heq (hdeep n _)
  | createContainerDir n c =>
    have heq := (List.mem_singleton.mp h).trans (containerPath_eq n c)
    exact absurd heq (hdeep n _)
  | set key value =>
    have heq : nodePath node = key.path := List.mem_singleton.mp h
    cases key with
    | container n c attr =>
      rw [Key.path, containerPath_eq, List.append_assoc, List.cons_append] at heq
      exact absurd heq (hdeep n _)
    | node n attr => exact absurd heq (hdeep n _)
  | get key => cases h

/-- **One operation** keeps the shape. -/
theorem Grown.perform (h : Grown z.tree) {op : Op} {out : Option Text}
    (hop : z.perform op = .ok (out, z')) : Grown z'.tree := by
  obtain ⟨z₁, hcreates, hsame⟩ := Zookeeper.perform_creates hop
  obtain ⟨hgrow, hclosed⟩ := Zookeeper.zcreates_grow hcreates
  refine ⟨fun q hq => ?_, fun node hnode hq => ?_⟩
  · rw [hsame] at hq ⊢
    exact hclosed h.closed q hq
  · rw [hsame, hgrow] at hq ⊢
    obtain hq | hmem := hq
    · exact .inl (h.info node hnode hq)
    · rw [Op.createNode_of_mem hnode hmem]
      exact .inr (by simp [Op.creates])

/-- What an initialized cluster does not have. -/
theorem Zookeeper.start_tree {p : Text} (h : ¬(p = "/".toList ∨ p = "/nodes".toList)) :
    Zookeeper.start.tree p = none := if_neg h

/-- **Every reached tree** has it. -/
theorem Reachable.grown (h : Reachable z) : Grown z.tree := by
  obtain ⟨ops, hrun⟩ := h
  refine hrun.invariant (fun z => Grown z.tree) (fun z op z' hz hop => ?_) ⟨fun q hq => ?_, ?_⟩
  · obtain ⟨out, hout⟩ := hop
    exact hz.perform hout
  · obtain rfl | rfl : q = "/".toList ∨ q = "/nodes".toList := by
      by_contra hne
      rw [Zookeeper.start_tree hne] at hq
      cases hq
    · decide
    · decide
  · intro node _ hq
    have hne : ¬(nodePath node = "/".toList ∨ nodePath node = "/nodes".toList) := by
      have hlength := length_nodePath node
      rintro (heq | heq)
      · rw [heq] at hlength
        have hone : 1 = node.length + 7 := hlength
        omega
      · rw [heq] at hlength
        have hsix : 6 = node.length + 7 := hlength
        omega
    rw [Zookeeper.start_tree hne] at hq
    cases hq

/-! ## The removals -/

/-- **One delete** removes a znode with everything below it exactly where nothing is below it. -/
theorem Delete.zdelete_removed_iff {D : Delete} {p : Text} (hz : Closed z.tree)
    (hp : 1 < p.length) :
    (∃ z', D.zdelete p z = .ok z' ∧ Removed p z.tree z'.tree) ↔
    (z.tree p).isSome = true ∧ ∀ q, Below p q → z.tree q = none := by
  have hnil : p ≠ [] := by
    rintro rfl
    cases hp
  have hroot : p ≠ ['/'] := by
    rintro rfl
    exact absurd hp (by decide)
  constructor
  · rintro ⟨z', hdelete, -⟩
    obtain ⟨hp, hchild, -⟩ := Delete.zdelete_eq_ok_iff.mp hdelete
    refine ⟨hp, fun q hq => ?_⟩
    by_contra hne
    exact hchild (hz.hasChild hnil hq (Option.isSome_iff_ne_none.mpr hne))
  · rintro ⟨hp, hnone⟩
    have hchild : ¬HasChild z.tree p := by
      rintro ⟨q, hparent, -, hq⟩
      rw [hnone q (below_of_parentPath hparent hroot)] at hq
      cases hq
    refine ⟨_, Delete.zdelete_eq_ok_iff.mpr ⟨hp, hchild, rfl⟩, ?_, ?_⟩
    · rintro q (rfl | hq)
      · exact Function.update_self ..
      · by_cases heq : q = p
        · rw [heq]
          exact Function.update_self ..
        · exact (Function.update_of_ne heq ..).trans (hnone q hq)
    · intro q hne _
      exact Function.update_of_ne hne ..

/-- A call behind an assertion does something iff the assertion passes and the call does. -/
theorem exists_assert_iff {m : Except RubyError Unit} {f : Except RubyError Zookeeper}
    {P : Zookeeper → Prop} :
    (∃ z', (do m; f) = .ok z' ∧ P z') ↔ m = .ok () ∧ ∃ z', f = .ok z' ∧ P z' := by
  constructor
  · rintro ⟨z', hz', hP⟩
    obtain ⟨_, hm, hf⟩ := bind_eq_ok_iff.mp hz'
    exact ⟨hm, z', hf, hP⟩
  · rintro ⟨hm, z', hf, hP⟩
    exact ⟨z', bind_eq_ok_iff.mpr ⟨(), hm, hf⟩, hP⟩

/-- **A removal is complete and local exactly where nothing is below the znode**: for a container
without addresses and ports, and for no node that `zcreate_node` made. -/
theorem removal_iff (D : Delete) (hz : Reachable z) :
    (∀ node container, (∃ z', D.zremoveContainerDir node container z = .ok z' ∧
        Removed (containerPath node container) z.tree z'.tree) ↔
      assertNodeContainer node container = .ok () ∧
      (z.tree (containerPath node container)).isSome = true ∧
      ∀ q, Below (containerPath node container) q → z.tree q = none) ∧
    (∀ node, (∃ z', D.zremoveNodeDir node z = .ok z' ∧ Removed (nodePath node) z.tree z'.tree) ↔
      assertNode node = .ok () ∧ (z.tree (nodePath node)).isSome = true ∧
      ∀ q, Below (nodePath node) q → z.tree q = none) ∧
    ∀ node, '/' ∉ node →
      ¬∃ z', D.zremoveNodeDir node z = .ok z' ∧ Removed (nodePath node) z.tree z'.tree := by
  have hgrown := hz.grown
  have hnode : ∀ node, (∃ z', D.zremoveNodeDir node z = .ok z' ∧
      Removed (nodePath node) z.tree z'.tree) ↔
      assertNode node = .ok () ∧ (z.tree (nodePath node)).isSome = true ∧
      ∀ q, Below (nodePath node) q → z.tree q = none := by
    intro node
    have hlong : 1 < (nodePath node).length := by
      rw [length_nodePath]
      omega
    rw [← Delete.zdelete_removed_iff hgrown.closed hlong]
    exact exists_assert_iff
  refine ⟨fun node container => ?_, hnode, fun node hslash h => ?_⟩
  · have hlong : 1 < (containerPath node container).length := by
      rw [containerPath_eq, List.length_append, length_nodePath]
      omega
    rw [← Delete.zdelete_removed_iff hgrown.closed hlong]
    exact exists_assert_iff
  · obtain ⟨-, hsome, hnone⟩ := (hnode node).mp h
    have hinfo := hgrown.info node hslash hsome
    have hbelow : Below (nodePath node) (infoPath node) :=
      ⟨"info".toList, List.append_assoc ..⟩
    rw [hnone _ hbelow] at hinfo
    cases hinfo

/-- ZooKeeper's answers to a delete: no such znode, not empty, or done. -/
noncomputable def Delete.zookeeper : Delete where
  delete tree p :=
    open Classical in
    if tree p = none then (-101, tree)
    else if HasChild tree p then (-111, tree)
    else (0, Function.update tree p none)
  refused_absent tree p hp := by
    rw [if_pos hp]
    exact (by decide : (-101 : Int) ≠ 0)
  refused_parent tree p hchild := by
    split
    · exact (by decide : (-101 : Int) ≠ 0)
    · exact (by decide : (-111 : Int) ≠ 0)
  deleted tree p hp hchild := by
    have hne : tree p ≠ none := Option.isSome_iff_ne_none.mp hp
    rw [if_neg hne, if_neg hchild]

/-- The directory of a container, just created, is removed. -/
theorem removal_fresh : ∃ z, Reachable z ∧
    ∃ z', Delete.zookeeper.zremoveContainerDir "n1".toList "hue".toList z = .ok z' ∧
      Removed (containerPath "n1".toList "hue".toList) z.tree z'.tree := by
  obtain ⟨z₁, hnode⟩ : ∃ z₁, Zookeeper.start.perform (.createNode "n1".toList) = .ok (none, z₁) :=
    ⟨_, rfl⟩
  obtain ⟨z₂, hcontainer, hsome⟩ : ∃ z₂, z₁.perform (.createContainerDir "n1".toList "hue".toList) =
      .ok (none, z₂) ∧ (z₂.tree (containerPath "n1".toList "hue".toList)).isSome = true := by
    obtain rfl := (Prod.mk.inj (Except.ok.inj hnode)).2
    exact ⟨_, rfl, rfl⟩
  have hreach : Reachable z₂ :=
    ⟨[_, _], .cons ⟨none, hnode⟩ (.cons ⟨none, hcontainer⟩ (.nil z₂))⟩
  refine ⟨z₂, hreach, ((removal_iff Delete.zookeeper hreach).1 _ _).mpr ⟨by decide, hsome, ?_⟩⟩
  intro q hbelow
  by_contra hne
  -- what was created is not longer than the directory of the container
  obtain ⟨_, hcreates, hsame⟩ := Zookeeper.perform_creates hnode
  obtain ⟨_, hcreates', hsame'⟩ := Zookeeper.perform_creates hcontainer
  have hq := Option.isSome_iff_ne_none.mpr hne
  rw [hsame', (Zookeeper.zcreates_grow hcreates').1, hsame, (Zookeeper.zcreates_grow hcreates).1] at hq
  have hshort : ∀ q ∈ "/".toList :: "/nodes".toList :: ((Op.createNode "n1".toList).creates ++
      (Op.createContainerDir "n1".toList "hue".toList).creates),
      q.length ≤ (containerPath "n1".toList "hue".toList).length := by decide
  have hmem : q ∈ "/".toList :: "/nodes".toList :: ((Op.createNode "n1".toList).creates ++
      (Op.createContainerDir "n1".toList "hue".toList).creates) := by
    obtain (hq | hq) | hq := hq
    · by_cases hstart : q = "/".toList ∨ q = "/nodes".toList
      · obtain rfl | rfl := hstart
        · exact List.mem_cons_self
        · exact List.mem_cons_of_mem _ List.mem_cons_self
      · rw [Zookeeper.start_tree hstart] at hq
        cases hq
    · exact List.mem_cons_of_mem _ (List.mem_cons_of_mem _ (List.mem_append_left _ hq))
    · exact List.mem_cons_of_mem _ (List.mem_cons_of_mem _ (List.mem_append_right _ hq))
  obtain ⟨r, rfl⟩ := hbelow
  have hlong := hshort _ hmem
  simp only [List.length_append, List.length_singleton] at hlong
  omega

/-- One with an address is not, nor is its node, whatever else ZooKeeper does. -/
theorem addressed_stays : ∃ z, Reachable z ∧
    (z.tree (containerPath "n1".toList "hue".toList)).isSome = true ∧
    ∀ D : Delete, (∀ z', D.zremoveContainerDir "n1".toList "hue".toList z ≠ .ok z') ∧
      ∀ z', D.zremoveNodeDir "n1".toList z ≠ .ok z' := by
  obtain ⟨z, hreach, hcontainer, hip, hinfo⟩ : ∃ z, Reachable z ∧
      (z.tree (containerPath "n1".toList "hue".toList)).isSome = true ∧
      (z.tree (Key.container "n1".toList "hue".toList .primaryIp).path).isSome = true ∧
      (z.tree (infoPath "n1".toList)).isSome = true :=
    ⟨_, ⟨[.createNode "n1".toList, .createContainerDir "n1".toList "hue".toList,
      .set (.container "n1".toList "hue".toList .primaryIp) "51.1.0.7".toList],
      .cons ⟨none, rfl⟩ (.cons ⟨none, rfl⟩ (.cons ⟨none, rfl⟩ (.nil _)))⟩, rfl, rfl, rfl⟩
  refine ⟨z, hreach, hcontainer, fun D => ⟨fun z' h => ?_, fun z' h => ?_⟩⟩
  · obtain ⟨_, -, hdelete⟩ := bind_eq_ok_iff.mp h
    exact (Delete.zdelete_eq_ok_iff.mp hdelete).2.1 ⟨_, by decide, by decide, hip⟩
  · obtain ⟨_, -, hdelete⟩ := bind_eq_ok_iff.mp h
    exact (Delete.zdelete_eq_ok_iff.mp hdelete).2.1 ⟨_, by decide, by decide, hinfo⟩

end GexCloud.Registry
