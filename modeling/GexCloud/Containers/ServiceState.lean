import GexCloud.Containers.Create

/-! # `change_container_state.rb`

A container of a node is known under the host name `container-node`, in which `tr` has replaced the underscores. The
script is given that name and takes the node off again, to start or stop the service of the container.

* `registeredHostName` — the host name of a container; `changeContainerState` — the command of the script.
* **`sub_append_self_iff`** — when taking off the first occurrence of an ending leaves what was before the ending.
* **`changes_own_service_iff`** — when the script acts on the service of the container. -/

namespace GexCloud.Containers

open Texts

/-- `tr('_', '-')`. -/
def trUnderscore (s : Text) : Text := s.map fun ch => if ch = '_' then '-' else ch

/-- The host name of a container: `gex_create_slave_container` joins the names, and `dcreate_container` rewrites the
underscores. -/
def registeredHostName (container node : Text) : Text := trUnderscore (container ++ '-' :: node)

/-- `change_service_state`. -/
def changeServiceState (service_name action : Text) : Text :=
  "service ".toList ++ (service_name ++ ' ' :: action)

/-- `change_container_state.rb`: the command that it runs. -/
def changeContainerState (node_name container_name action : Text) : Text :=
  changeServiceState ((sub ('-' :: node_name) [] container_name).getD container_name) action

variable {w c : Text}

/-! ## Taking off an ending -/

/-- A text that moves to the other side of `w` takes its endings that begin with `w` along. -/
theorem append_comm_of_suffix {x y : Text} (hx : x ++ w = w ++ x) (hy : y <:+ x) (h : w <+: y ++ w) :
    y ++ w = w ++ y := by
  obtain ⟨front, rfl⟩ := hy
  obtain ⟨v, hv⟩ := h
  -- what is left of `y` and `w` is as long as `y`, and ends the same text
  have hlength : v.length = y.length := by
    have hlength := congrArg List.length hv
    rw [List.length_append, List.length_append] at hlength
    omega
  have hends : (front ++ w) ++ v = (w ++ front) ++ y := by
    rw [List.append_assoc, hv, ← List.append_assoc, hx, List.append_assoc]
  rw [← hv, (List.append_inj' hends hlength).2]

/-- **The first occurrence of an ending is the ending itself**, or might be: wherever it occurs, it can be moved to the
end. -/
theorem sub_append_self_iff (hw : w ≠ []) :
    sub w [] (c ++ w) = some c ↔ ∀ x, x <:+ c → w <+: x ++ w → x ++ w = w ++ x := by
  induction c with
  | nil =>
    have hfront : sub w [] (w ++ []) = some ([] ++ []) := sub_front hw
    rw [List.append_nil] at hfront
    refine iff_of_true hfront fun x hx _ => ?_
    rw [List.suffix_nil.mp hx, List.nil_append, List.append_nil]
  | cons d c ih =>
    rw [List.cons_append, sub]
    split
    · rename_i hprefix
      obtain ⟨v, hv⟩ := hprefix
      rw [List.nil_append, Option.some.injEq, ← hv, List.drop_left]
      constructor
      · rintro rfl x hx hmatch
        exact append_comm_of_suffix hv.symm hx hmatch
      · intro h
        have hall := h (d :: c) List.suffix_rfl ⟨v, hv⟩
        rw [List.cons_append, ← hv] at hall
        exact List.append_cancel_left hall
    · rename_i hprefix
      rw [Option.map_eq_some_iff]
      constructor
      · rintro ⟨rest, hrest, hcons⟩ x hx hmatch
        obtain rfl := List.tail_eq_of_cons_eq hcons
        rcases List.suffix_cons_iff.mp hx with rfl | hx
        · exact absurd hmatch hprefix
        · exact ih.mp hrest x hx hmatch
      · exact fun h => ⟨c, ih.mpr fun x hx => h x (hx.trans (List.suffix_cons d c)), rfl⟩

/-- Taking something off adds no characters. -/
theorem mem_of_mem_sub {text r : Text} (h : sub w [] text = some r) {ch : Char} (hch : ch ∈ r) : ch ∈ text := by
  induction text generalizing r with
  | nil =>
    -- an empty pattern leaves nothing, another one is not found
    rw [sub] at h
    split at h
    · exact absurd hch (Option.some.inj h ▸ List.not_mem_nil)
    · cases h
  | cons d text ih =>
    rw [sub] at h
    split at h
    · rw [List.nil_append, Option.some.injEq] at h
      exact List.mem_of_mem_drop (h ▸ hch)
    · obtain ⟨rest, hrest, rfl⟩ := Option.map_eq_some_iff.mp h
      rcases List.mem_cons.mp hch with rfl | hch
      · exact List.mem_cons_self
      · exact List.mem_cons_of_mem d (ih hrest hch)

/-! ## The service of a container -/

/-- There are no underscores in a host name. -/
theorem underscore_not_mem_trUnderscore (s : Text) : '_' ∉ trUnderscore s := by
  intro h
  obtain ⟨ch, -, heq⟩ := List.mem_map.mp h
  split at heq
  · cases heq
  · rename_i hne
    exact hne heq

/-- A text without underscores is left. -/
theorem trUnderscore_eq_self {s : Text} (h : '_' ∉ s) : trUnderscore s = s := by
  refine (List.map_congr_left fun ch hch => if_neg ?_).trans (List.map_id s)
  rintro rfl
  exact h hch

/-- The command names its service. -/
theorem changeServiceState_inj {a b action : Text} :
    changeServiceState a action = changeServiceState b action ↔ a = b := by
  unfold changeServiceState
  exact ⟨fun h => List.append_cancel_right (List.append_cancel_left h), fun h => by rw [h]⟩

/-- **When the script acts on the service of the container**: there is no underscore in the two names, and wherever the
ending `-node` occurs in the host name, it can be moved to the end. -/
theorem changes_own_service_iff (container node action : Text) :
    changeContainerState node (registeredHostName container node) action = changeServiceState container action ↔
      '_' ∉ container ∧ '_' ∉ node ∧
        ∀ x, x <:+ container → '-' :: node <+: x ++ '-' :: node → x ++ '-' :: node = ('-' :: node) ++ x := by
  have hservice : changeContainerState node (registeredHostName container node) action =
      changeServiceState container action ↔
        (sub ('-' :: node) [] (registeredHostName container node)).getD (registeredHostName container node) =
          container := changeServiceState_inj
  have hno : '_' ∉ registeredHostName container node := underscore_not_mem_trUnderscore _
  rw [hservice]
  by_cases hc : '_' ∈ container
  · refine iff_of_false (fun h => ?_) fun h => h.1 hc
    -- the service would have a character that the host name does not have
    rw [← h] at hc
    cases hsub : sub ('-' :: node) [] (registeredHostName container node) with
    | none =>
      rw [hsub] at hc
      exact hno hc
    | some r =>
      rw [hsub] at hc
      exact hno (mem_of_mem_sub hsub hc)
  by_cases hn : '_' ∈ node
  · refine iff_of_false (fun h => ?_) fun h => h.2.1 hn
    rw [sub_eq_none (List.mem_cons_of_mem '-' hn) hno, Option.getD_none] at h
    have hlength := congrArg List.length h
    rw [registeredHostName, trUnderscore, List.length_map, List.length_append, List.length_cons] at hlength
    omega
  have hsame : registeredHostName container node = container ++ '-' :: node := by
    refine trUnderscore_eq_self fun h => ?_
    rcases List.mem_append.mp h with h | h
    · exact hc h
    · rcases List.mem_cons.mp h with h | h
      · cases h
      · exact hn h
  rw [hsame, ← sub_append_self_iff (List.cons_ne_nil '-' node), and_iff_right hc, and_iff_right hn]
  cases hsub : sub ('-' :: node) [] (container ++ '-' :: node) with
  | some r => rw [Option.getD_some, Option.some.injEq]
  | none =>
    refine iff_of_false (fun h => ?_) (Option.some_ne_none container).symm
    rw [Option.getD_none] at h
    exact absurd (List.append_right_eq_self.mp h) (List.cons_ne_nil '-' node)

/-- **A node with an underscore**: the service is looked for under the host name. -/
theorem underscore_stays :
    changeContainerState "node_1".toList (registeredHostName "hue".toList "node_1".toList) "restart".toList =
        "service hue-node-1 restart".toList ∧
      "service hue-node-1 restart".toList ≠ changeServiceState "hue".toList "restart".toList := by
  decide +kernel

end GexCloud.Containers
