import GexCloud.Containers.Volumes

/-! # The names of volumes

The name of a volume is the name of its container with the path of the mount point behind it, and nothing between the
two. No mangled path of `VOLUMES` ends another one, so the name tells the container and the mount point
(`volumeName_injective`).

* **`place_injective`** — nor do different containers or mount points share the place of a link.
* `Spares` — what a container loses by what is done for another one: nothing.
* **`volumes_apart`** — the names, and with them what `erase_volumes` and `link_volumes` do. -/

namespace GexCloud.Containers

open Texts FileTree Scripts

variable {D : Docker} {A : Answers} {container other v w : Text} {vs : List Text}

/-! ## Names -/

/-- **Different containers or mount points do not share the place of a link**, either. -/
theorem place_injective (hv : v ∈ VOLUMES) (hw : w ∈ VOLUMES)
    (h : containerFilesDir container ++ v = containerFilesDir other ++ w) : container = other ∧ v = w := by
  have hends : ∀ v ∈ VOLUMES, ∀ w ∈ VOLUMES, v <:+ w → v = w := by decide
  obtain rfl := eq_of_append_eq_append hends hv hw h
  exact ⟨List.append_cancel_right (List.append_cancel_left (List.append_cancel_right h)), rfl⟩

/-! ## What is done for another container -/

/-- **A container loses nothing**: its volumes are what they were, what stands in the places of its links stays, and no
new link leads to one of its volumes. -/
structure Spares (D : Docker) (other : Text) (s t : Host) : Prop where
  volumes : ∀ w ∈ VOLUMES, t.volumes (volumeName other w) = s.volumes (volumeName other w)
  places : ∀ w ∈ VOLUMES, ∀ node, s.tree (containerFilesDir other ++ w) = some node →
    t.tree (containerFilesDir other ++ w) = some node
  links : ∀ path target, t.tree path = some (.link target) → s.tree path = some (.link target) ∨
    ∃ name, target = D.mountpoint name ∧ ∀ w ∈ VOLUMES, name ≠ volumeName other w

/-- A host as it is spares everyone. -/
theorem Spares.refl (s : Host) : Spares D other s s := ⟨fun _ _ => rfl, fun _ _ _ h => h, fun _ _ h => .inl h⟩

/-- Two steps that spare a container are one. -/
theorem Spares.trans (s t u : Host) (h₁ : Spares D other s t) (h₂ : Spares D other t u) : Spares D other s u where
  volumes w hw := (h₂.volumes w hw).trans (h₁.volumes w hw)
  places w hw node hnode := h₂.places w hw node (h₁.places w hw node hnode)
  links path target h := by
    rcases h₂.links path target h with hold | hnew
    · exact h₁.links path target hold
    · exact .inr hnew

/-- A change of the tree alone. -/
theorem Spares.of_tree {s : Host} {tree : Tree}
    (places : ∀ w ∈ VOLUMES, ∀ node, s.tree (containerFilesDir other ++ w) = some node →
      tree (containerFilesDir other ++ w) = some node)
    (links : ∀ path target, tree path = some (.link target) → s.tree path = some (.link target) ∨
      ∃ name, target = D.mountpoint name ∧ ∀ w ∈ VOLUMES, name ≠ volumeName other w) :
    Spares D other s { s with tree := tree } := ⟨fun _ _ => rfl, places, links⟩

/-- A path is emptied that is none of the other container's places. -/
theorem Spares.update_none {s : Host} {path : Text} (h : ∀ w ∈ VOLUMES, containerFilesDir other ++ w ≠ path) :
    Spares D other s { s with tree := Function.update s.tree path none } := by
  refine Spares.of_tree (fun w hw node hnode => ?_) fun q target hq => ?_
  · rwa [Function.update_of_ne (h w hw)]
  · by_cases hpath : q = path
    · rw [hpath, Function.update_self] at hq
      cases hq
    · rw [Function.update_of_ne hpath] at hq
      exact .inl hq

/-- A path that is empty, and is none of the other container's places where something stands, becomes a link. -/
theorem Spares.update_link {s : Host} {path name : Text} (hnone : s.tree path = none)
    (hname : ∀ w ∈ VOLUMES, name ≠ volumeName other w) :
    Spares D other s { s with tree := Function.update s.tree path (some (.link (D.mountpoint name))) } := by
  refine Spares.of_tree (fun w hw node hnode => ?_) fun q target hq => ?_
  · rwa [Function.update_of_ne]
    rintro rfl
    rw [hnone] at hnode
    cases hnode
  · by_cases hpath : q = path
    · rw [hpath, Function.update_self, Option.some.injEq, Node.link.injEq] at hq
      exact .inr ⟨name, hq.symm, hname⟩
    · rw [Function.update_of_ne hpath] at hq
      exact .inl hq

/-- A command on the tree. -/
theorem onTree_spares {c : Command} {op : Tree → Option Tree}
    (h : ∀ (s : Host) tree, op s.tree = some tree → Spares D other s { s with tree := tree }) :
    Keeps (Spares D other) (onTree A c op) := by
  refine Keeps.bind Spares.trans (Keeps.ensure Spares.refl _ _) fun _ s => ?_
  refine run_bind_rel Spares.trans (Spares.refl s) fun host t hget => ?_
  obtain ⟨rfl, rfl⟩ := returns_get_iff.mp hget
  split
  · exact h s _ ‹_›
  · exact Spares.refl s

/-- Looking for the directory of a volume changes nothing. -/
theorem volumePath_spares : Keeps (Spares D other) (volumePath D A container v) := by
  refine Keeps.bind Spares.trans (Keeps.ensure Spares.refl _ _) fun _ => ?_
  refine Keeps.bind Spares.trans (Keeps.get Spares.refl) fun host => ?_
  split
  · exact Keeps.pure Spares.refl _
  · exact Keeps.throw Spares.refl _

section
variable (hne : container ≠ other)
include hne

/-- A round of `erase_volumes` for a container spares the others. -/
theorem eraseVolume_spares (hv : v ∈ VOLUMES) : Keeps (Spares D other) (eraseVolume A container v) := by
  refine Keeps.bind Spares.trans (Keeps.modify fun s => ?_) fun _ => Keeps.modify fun s => ?_
  · unfold unlink
    split
    · exact Spares.refl s
    · exact Spares.update_none fun w hw heq => hne (place_injective hv hw heq.symm).1
  · split
    · refine ⟨fun w hw => Function.update_of_ne (fun heq => ?_) _ _, fun _ _ _ h => h, fun _ _ h => .inl h⟩
      exact hne (volumeName_injective hv hw heq.symm).1
    · exact Spares.refl s

/-- Making the directory for a link. -/
theorem makeParent_spares (hv : v ∈ VOLUMES) :
    Keeps (Spares D other) (makeParent A (containerFilesDir container ++ v)) := by
  refine Keeps.bind Spares.trans (Keeps.get Spares.refl) fun host => ?_
  split
  · exact Keeps.pure Spares.refl _
  · refine Keeps.bind Spares.trans (onTree_spares fun s tree htree => ?_) fun _ => onTree_spares fun s tree htree => ?_
    · -- directories are made where nothing stands
      refine Spares.of_tree (fun w _ node hnode => ?_) fun path target hpath => ?_
      · rw [mkdirP_apply htree (by rw [hnode]; exact Option.some_ne_none node), hnode]
      · rcases mkdirP_apply_or htree with hold | hnew
        · exact .inl (hold ▸ hpath)
        · rw [hnew] at hpath
          cases hpath
    · unfold rmdir at htree
      split at htree
      · obtain rfl := Option.some.inj htree
        exact Spares.update_none fun w hw heq => hne (place_injective hv hw heq.symm).1
      · cases htree

/-- A round of `link_volumes` for a container spares the others. -/
theorem linkVolume_spares (hv : v ∈ VOLUMES) : Keeps (Spares D other) (linkVolume D A container v) := by
  have hname : ∀ w ∈ VOLUMES, volumeName container v ≠ volumeName other w := fun w hw heq =>
    hne (volumeName_injective hv hw heq).1
  refine Keeps.bind Spares.trans (Keeps.get Spares.refl) fun host => ?_
  dsimp only
  split
  · exact Keeps.pure Spares.refl _
  refine Keeps.bind Spares.trans (makeParent_spares hne hv) fun _ s => ?_
  refine run_bind_rel Spares.trans (volumePath_spares s) fun path t hpath => ?_
  obtain ⟨-, -, rfl, -⟩ := returns_volumePath_iff.mp hpath
  refine onTree_spares (fun s tree htree => ?_) t
  unfold lnS at htree
  split at htree
  · obtain rfl := Option.some.inj htree
    exact Spares.update_link ‹_› hname
  · -- in a directory the link is made inside
    dsimp only at htree
    split at htree
    · obtain rfl := Option.some.inj htree
      exact Spares.update_link ‹_› hname
    · cases htree
  · cases htree

/-- `erase_volumes` for a container spares the others. -/
theorem eraseVolumes_spares (hvs : ∀ v ∈ vs, v ∈ VOLUMES) : Keeps (Spares D other) (eraseVolumes A container vs) :=
  Keeps.forM Spares.refl Spares.trans vs fun v hv => eraseVolume_spares hne (hvs v hv)

/-- `link_volumes` for a container spares the others. -/
theorem linkVolumes_spares (hvs : ∀ v ∈ vs, v ∈ VOLUMES) : Keeps (Spares D other) (linkVolumes D A container vs) :=
  Keeps.forM Spares.refl Spares.trans vs fun v hv => linkVolume_spares hne (hvs v hv)

end

/-- **Volumes of different containers are apart**: in their names, and so in what is done for one of them, however it
ends. -/
theorem volumes_apart (c₁ c₂ : Text) :
    (∀ v₁ ∈ VOLUMES, ∀ v₂ ∈ VOLUMES, volumeName c₁ v₁ = volumeName c₂ v₂ → c₁ = c₂ ∧ v₁ = v₂) ∧
    (c₁ ≠ c₂ → ∀ (D : Docker) (A : Answers) (volumes : List Text) (host : Host), (∀ v ∈ volumes, v ∈ VOLUMES) →
      Spares D c₂ host (run (eraseVolumes A c₁ volumes) host).2 ∧
        Spares D c₂ host (run (linkVolumes D A c₁ volumes) host).2) := by
  refine ⟨fun v₁ hv₁ v₂ hv₂ h => volumeName_injective hv₁ hv₂ h, fun hne D A volumes host hvolumes => ⟨?_, ?_⟩⟩
  · exact eraseVolumes_spares hne hvolumes host
  · exact linkVolumes_spares hne hvolumes host

/-- A container whose name begins as that of a volume of another one. -/
theorem volumes_apart_var :
    Spares box "web_var".toList (earlierHost fun _ => some [])
        (run (eraseVolumes obliging "web".toList VOLUMES) (earlierHost fun _ => some [])).2 ∧
      Spares box "web_var".toList (earlierHost fun _ => some [])
        (run (linkVolumes box obliging "web".toList VOLUMES) (earlierHost fun _ => some [])).2 :=
  (volumes_apart "web".toList "web_var".toList).2 (by decide) box obliging VOLUMES _ fun _ h => h

end GexCloud.Containers
