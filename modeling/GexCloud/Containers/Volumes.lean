import GexCloud.Containers.Create

/-! # The volumes of a new container

Whether a container that is created anew starts without the data of an earlier one of the same name.

* `Fresh` — what its volumes should hold, and where the links should lead.
* `Careful` — the hosts on which they do.
* **`fresh_iff`** — when `dcreate_container` goes through, the container is fresh exactly when the host was
  careful.

The volumes are erased only after the new container has taken them, and a volume that a container has is not
removed. -/

namespace GexCloud.Containers

open Texts FileTree Scripts

/-- The files that `dcreate_container` puts into the volumes: the mount point, the path below it and the
contents. -/
def putByCall (D : Docker) (cmd : Text) : List (Text × Text × Text) :=
  if cmd = bootstrapFileName then [("/etc".toList, "/bootstrap.sh".toList, D.bootstrap)]
  else if cmd = bootstrapFileAppName then [("/etc".toList, "/bootstrap".toList, D.bootstrap)]
  else []

/-- **A container without old data**: each of its volumes holds only what the image and the call put there,
and the link below the directory of its files leads to it. -/
def Fresh (D : Docker) (container imageTag cmd : Text) (host : Host) : Prop :=
  ∀ v ∈ VOLUMES,
    (∃ k ∈ host.containers, k.name = container ∧ ⟨.volume (volumeName container v), v⟩ ∈ k.mounts) ∧
    (∃ data, host.volumes (volumeName container v) = some data ∧
      ∀ entry ∈ data, entry ∈ D.image imageTag v ∨ (v, entry) ∈ putByCall D cmd) ∧
    host.tree (containerFilesDir container ++ v) = some (.link (D.mountpoint (volumeName container v)))

/-- A file that the call writes over. -/
def Replaced (cmd v path : Text) : Prop :=
  cmd = bootstrapFileName ∧ v = "/etc".toList ∧ path = "/bootstrap.sh".toList

/-- **Where a container starts fresh**: no regular file stands in the place of a link, and a volume that
exists holds nothing but what is written over or is put there anyway. -/
def Careful (D : Docker) (container imageTag cmd : Text) (host : Host) : Prop :=
  ∀ v ∈ VOLUMES, isRegular host.tree (containerFilesDir container ++ v) = false ∧
    ∀ data, host.volumes (volumeName container v) = some data → ∀ entry ∈ data,
      Replaced cmd v entry.1 ∨ entry ∈ D.image imageTag v ∨ (v, entry) ∈ putByCall D cmd

variable {D : Docker} {A : Answers} {host host' : Host} {r : PUnit} {container imageTag cmd v w : Text}
  {tree : Tree}

/-! ## Names and paths of the volumes -/

/-- Where no ending of a volume ends another one's, the ending tells the volume. -/
theorem eq_of_append_eq_append {ending : Text → Text} {s t : Text}
    (hends : ∀ v ∈ VOLUMES, ∀ w ∈ VOLUMES, ending v <:+ ending w → v = w) (hv : v ∈ VOLUMES) (hw : w ∈ VOLUMES)
    (h : s ++ ending v = t ++ ending w) : v = w := by
  have hsuffix : ending w <:+ s ++ ending v := h ▸ List.suffix_append t (ending w)
  rcases List.suffix_or_suffix_of_suffix (List.suffix_append s (ending v)) hsuffix with hvw | hwv
  · exact hends v hv w hw hvw
  · exact (hends w hw v hv hwv).symm

/-- **Different containers or mount points have different names.** -/
theorem volumeName_injective {other : Text} (hv : v ∈ VOLUMES) (hw : w ∈ VOLUMES)
    (h : volumeName container v = volumeName other w) : container = other ∧ v = w := by
  have hends : ∀ v ∈ VOLUMES, ∀ w ∈ VOLUMES, mangle v <:+ mangle w → v = w := by decide
  obtain rfl := eq_of_append_eq_append hends hv hw h
  exact ⟨List.append_cancel_right h, rfl⟩

/-- No volume is mounted below another one. -/
theorem eq_of_within (hv : v ∈ VOLUMES) (hw : w ∈ VOLUMES) (h : Within w v) : v = w := by
  have hwithin : ∀ v ∈ VOLUMES, ∀ w ∈ VOLUMES, Within w v → v = w := by decide
  exact hwithin v hv w hw h

/-- The place of a link is not above that of another one. -/
theorem not_mem_ancestors (hv : v ∈ VOLUMES) (hw : w ∈ VOLUMES) (hne : w ≠ v) :
    containerFilesDir container ++ w ∉ ancestors (containerFilesDir container ++ v) := by
  intro h
  exact hne (eq_of_within hv hw (within_append_iff.mp (mem_ancestors_iff.mp h).2)).symm

/-- A volume of the container that is not bound to a file. -/
theorem volumeSource_eq (h : isRegular tree (containerFilesDir container ++ v) = false) :
    volumeSource container tree v = .volume (volumeName container v) := by
  rw [volumeSource, h]
  rfl

/-- Only its own mount has the volume of a path. -/
theorem eq_of_volumeSource (hv : v ∈ VOLUMES) (hw : w ∈ VOLUMES)
    (h : volumeSource container tree w = .volume (volumeName container v)) : w = v := by
  unfold volumeSource at h
  split at h
  · cases h
  · exact (volumeName_injective hw hv (Source.volume.inj h)).2

/-! ## Creating the container -/

/-- The only element with a property is the one that is found. -/
theorem find?_eq_some_of_unique {α : Type} {p : α → Bool} {l : List α} {a : α} (ha : a ∈ l) (hp : p a = true)
    (h : ∀ x ∈ l, p x = true → x = a) : l.find? p = some a := by
  obtain ⟨x, hx⟩ := Option.isSome_iff_exists.mp (List.find?_isSome.mpr ⟨a, ha, hp⟩)
  rw [hx, h x (List.mem_of_find?_eq_some hx) (List.find?_some hx)]

/-- The only element that has a value is the one whose value is found. -/
theorem findSome?_eq_of_unique {α β : Type} [DecidableEq α] {f : α → Option β} {l : List α} {a : α}
    (ha : a ∈ l) (h : ∀ x ∈ l, x ≠ a → f x = none) : l.findSome? f = f a := by
  induction l with
  | nil => cases ha
  | cons y l ih =>
    rw [List.findSome?_cons]
    by_cases hy : y = a
    · subst hy
      cases hf : f y with
      | some b => rfl
      | none =>
        rw [List.findSome?_eq_none_iff]
        intro x hx
        by_cases hxy : x = y
        · rwa [hxy]
        · exact h x (List.mem_cons_of_mem y hx) hxy
    · rw [h y List.mem_cons_self hy]
      exact ih (List.mem_of_ne_of_mem (Ne.symm hy) ha) fun x hx => h x (List.mem_cons_of_mem y hx)

/-- A created container has its volumes filled from the image where they are new or empty. -/
theorem createVolumes_volumesString (hv : v ∈ VOLUMES)
    (hfile : isRegular tree (containerFilesDir container ++ v) = false) (volumes : Text → Option Volume) :
    createVolumes D imageTag (volumesString container tree) volumes (volumeName container v) =
      some (populate (D.image imageTag v) (volumes (volumeName container v))) := by
  have hfind : (volumesString container tree).find?
      (fun m => decide (m.source = .volume (volumeName container v))) =
      some ⟨volumeSource container tree v, v⟩ := by
    refine find?_eq_some_of_unique (List.mem_map_of_mem hv) (decide_eq_true (volumeSource_eq hfile)) ?_
    intro m hm hsource
    obtain ⟨w, hw, rfl⟩ := List.mem_map.mp hm
    rw [eq_of_volumeSource hv hw (of_decide_eq_true hsource)]
  rw [createVolumes, hfind]

/-- The container is the one with this name, and has the default volumes. -/
def Mounted (container : Text) (tree : Tree) (host : Host) : Prop :=
  (∀ k ∈ host.containers, k.name = container → k = ⟨container, volumesString container tree⟩) ∧
    ⟨container, volumesString container tree⟩ ∈ host.containers

/-- A new container. -/
theorem mounted_create {containers : List Container} (hnone : ∀ k ∈ containers, k.name ≠ container)
    (hcontainers : host.containers = containers ++ [⟨container, volumesString container tree⟩]) :
    Mounted container tree host := by
  constructor
  · intro k hk hname
    rw [hcontainers] at hk
    rcases List.mem_append.mp hk with hk | hk
    · exact absurd hname (hnone k hk)
    · exact List.mem_singleton.mp hk
  · rw [hcontainers]
    exact List.mem_append_right _ (List.mem_singleton_self _)

/-- A container that is mounted has its volumes. -/
theorem Mounted.uses (h : Mounted container tree host) (hv : v ∈ VOLUMES)
    (hfile : isRegular tree (containerFilesDir container ++ v) = false) :
    host.containers.any (fun k => k.uses (volumeName container v)) = true := by
  refine List.any_eq_true.mpr ⟨_, h.2, List.any_eq_true.mpr ⟨⟨volumeSource container tree v, v⟩, ?_, ?_⟩⟩
  · exact List.mem_map_of_mem hv
  · exact decide_eq_true (volumeSource_eq hfile)

/-! ## The file that is copied -/

/-- A mount above which a path does not lie has no volume for it. -/
theorem Mount.volumeAt_eq_none {m : Mount} {path : Text} (h : ¬ m.path ++ ['/'] <+: path) :
    m.volumeAt path = none := by
  unfold Mount.volumeAt
  split
  · rw [if_neg h]
  · rfl

/-- The volume of a path in `/etc`. -/
theorem Mounted.volumeAt (h : Mounted container tree host) {rest : Text}
    (hother : ∀ w ∈ VOLUMES, w ≠ "/etc".toList → ¬ w ++ ['/'] <+: "/etc".toList ++ '/' :: rest) :
    host.volumeAt container ("/etc".toList ++ '/' :: rest) =
      if isRegular tree (containerFilesDir container ++ "/etc".toList) then none
      else some (volumeName container "/etc".toList, '/' :: rest) := by
  have hfind : host.containers.find? (fun k => k.name = container) =
      some ⟨container, volumesString container tree⟩ := by
    refine find?_eq_some_of_unique h.2 (decide_eq_true rfl) ?_
    exact fun k hk hname => h.1 k hk (of_decide_eq_true hname)
  have hprefix : "/etc".toList ++ ['/'] <+: "/etc".toList ++ '/' :: rest := ⟨rest, by simp⟩
  have hetc : "/etc".toList ∈ VOLUMES := by decide
  have hfound := findSome?_eq_of_unique (f := (fun m : Mount => m.volumeAt ("/etc".toList ++ '/' :: rest)) ∘
    fun v => ⟨volumeSource container tree v, v⟩) hetc
    fun w hw hne => Mount.volumeAt_eq_none (hother w hw hne)
  rw [Host.volumeAt, hfind, Option.bind_some, volumesString, List.findSome?_map, hfound,
    Function.comp_apply, Mount.volumeAt]
  by_cases hfile : isRegular tree (containerFilesDir container ++ "/etc".toList) = true
  · rw [if_pos hfile]
    simp only [volumeSource, if_pos hfile]
  · rw [if_neg hfile]
    simp only [volumeSource, if_neg hfile, if_pos hprefix, List.drop_left]

/-- What becomes of the data of a volume when the file is copied. -/
def written (D : Docker) (cmd v : Text) (data : Volume) : Volume :=
  if v = "/etc".toList then
    if cmd = bootstrapFileName then data.put "/bootstrap.sh".toList D.bootstrap
    else if cmd = bootstrapFileAppName then
      if data.any fun entry => entry.1 = "/bootstrap".toList then data
      else data.put "/bootstrap".toList D.bootstrap
    else data
  else data

/-- A file that is put into `/etc` of the container. -/
theorem Mounted.putFile (hm : Mounted container tree host) {rest content : Text}
    (hother : ∀ w ∈ VOLUMES, w ≠ "/etc".toList → ¬ w ++ ['/'] <+: "/etc".toList ++ '/' :: rest)
    (hput : host' = host.putFile container ("/etc".toList ++ '/' :: rest) content) :
    host'.tree = host.tree ∧ host'.containers = host.containers ∧
      ∀ v ∈ VOLUMES, isRegular tree (containerFilesDir container ++ v) = false → ∀ data,
        host.volumes (volumeName container v) = some data → host'.volumes (volumeName container v) =
          some (if v = "/etc".toList then data.put ('/' :: rest) content else data) := by
  subst hput
  unfold Host.putFile
  rw [hm.volumeAt hother]
  by_cases hetc : isRegular tree (containerFilesDir container ++ "/etc".toList) = true
  · rw [if_pos hetc]
    refine ⟨rfl, rfl, fun v _ hfile data hdata => ?_⟩
    have hne : v ≠ "/etc".toList := by
      rintro rfl
      rw [hetc] at hfile
      cases hfile
    rw [if_neg hne]
    exact hdata
  · rw [if_neg hetc]
    refine ⟨rfl, rfl, fun v hv hfile data hdata => ?_⟩
    by_cases hv' : v = "/etc".toList
    · subst hv'
      simp only [if_true, Function.update_self, hdata, Option.map_some]
    · have hname : volumeName container v ≠ volumeName container "/etc".toList := fun h =>
        hv' (volumeName_injective hv (by decide) h).2
      simp only [if_neg hv', Function.update_of_ne hname, hdata]

/-- Only `/etc` is above the files that are copied. -/
theorem not_prefix_bootstrap : ∀ w ∈ VOLUMES, w ≠ "/etc".toList →
    ¬ w ++ ['/'] <+: "/etc".toList ++ '/' :: "bootstrap.sh".toList ∧
      ¬ w ++ ['/'] <+: "/etc".toList ++ '/' :: "bootstrap".toList := by decide

/-- Whether the container has the other file is seen in its volume. -/
theorem Mounted.hasFile (hm : Mounted container tree host)
    (hfile : isRegular tree (containerFilesDir container ++ "/etc".toList) = false) {data : Volume}
    (hdata : host.volumes (volumeName container "/etc".toList) = some data) :
    host.hasFile A container bootstrapFileAppName = data.any fun entry => entry.1 = "/bootstrap".toList := by
  have hat : host.volumeAt container bootstrapFileAppName =
      some (volumeName container "/etc".toList, "/bootstrap".toList) :=
    (hm.volumeAt fun w hw hne => (not_prefix_bootstrap w hw hne).2).trans
      (if_neg (by rw [hfile]; exact Bool.false_ne_true))
  rw [Host.hasFile, hat]
  simp only [hdata, Option.any_some]

/-- **Copying the file** changes the volume of `/etc` and nothing else. -/
theorem copyBootstrap_returns (hm : Mounted container tree host)
    (h : Returns (copyBootstrap D A container cmd) host r host') :
    host'.tree = host.tree ∧ host'.containers = host.containers ∧
      ∀ v ∈ VOLUMES, isRegular tree (containerFilesDir container ++ v) = false → ∀ data,
        host.volumes (volumeName container v) = some data →
          host'.volumes (volumeName container v) = some (written D cmd v data) := by
  rw [returns_copyBootstrap_iff] at h
  unfold written
  split at h
  · rename_i hcmd
    obtain ⟨htree, hcontainers, hvolumes⟩ :=
      hm.putFile (fun w hw hne => (not_prefix_bootstrap w hw hne).1) h.2
    refine ⟨htree, hcontainers, fun v hv hfile data hdata => ?_⟩
    rw [if_pos hcmd]
    exact hvolumes v hv hfile data hdata
  · rename_i hcmd
    split at h
    · rename_i happ
      obtain ⟨htree, hcontainers, hvolumes⟩ :=
        hm.putFile (fun w hw hne => (not_prefix_bootstrap w hw hne).2) h.2
      refine ⟨htree, hcontainers, fun v hv hfile data hdata => ?_⟩
      rw [hvolumes v hv hfile data hdata, if_neg hcmd, if_pos happ.1]
      by_cases hetc : v = "/etc".toList
      · subst hetc
        have hnone := (hm.hasFile hfile hdata).symm.trans happ.2
        rw [if_pos rfl, if_pos rfl, hnone]
        rfl
      · rw [if_neg hetc, if_neg hetc]
    · rename_i hskip
      refine ⟨by rw [h], by rw [h], fun v hv hfile data hdata => ?_⟩
      rw [h, hdata, if_neg hcmd]
      by_cases hetc : v = "/etc".toList
      · subst hetc
        rw [if_pos rfl]
        by_cases happ : cmd = bootstrapFileAppName
        · have hfound : host.hasFile A container bootstrapFileAppName = true := by
            rw [← Bool.not_eq_false]
            exact fun hnone => hskip ⟨happ, hnone⟩
          rw [if_pos happ, if_pos ((hm.hasFile hfile hdata).symm.trans hfound)]
        · rw [if_neg happ]
      · rw [if_neg hetc]

/-! ## Erasing and linking -/

/-- What erasing one volume does: its link is gone, and so is the volume when no container uses it. Errors are passed
over. -/
theorem returns_eraseVolume_iff : Returns (eraseVolume A container v) host r host' ↔ host' =
    { host with
      tree := (unlink (containerFilesDir container ++ v) host.tree).getD host.tree,
      volumes := if A.succeeds (.volumeRm (volumeName container v)) &&
          !host.containers.any fun k => k.uses (volumeName container v) then
        Function.update host.volumes (volumeName container v) none else host.volumes } := by
  rw [eraseVolume, returns_then_iff]
  simp only [returns_modify_iff]
  constructor
  · rintro ⟨_, rfl, rfl⟩
    split <;> rfl
  · rintro rfl
    refine ⟨_, rfl, ?_⟩
    split <;> rfl

/-- **Erasing does nothing to what the new container has**: there is no link to remove, and its volumes
are in use. -/
theorem eraseVolumes_returns (hm : Mounted container tree host)
    (hempty : ∀ v ∈ VOLUMES, host.tree (containerFilesDir container ++ v) = none)
    (h : Returns (eraseVolumes A container VOLUMES) host r host') :
    host'.tree = host.tree ∧ host'.containers = host.containers ∧
      ∀ v ∈ VOLUMES, isRegular tree (containerFilesDir container ++ v) = false →
        host'.volumes (volumeName container v) = host.volumes (volumeName container v) := by
  refine h.forM_invariant (fun t => t.tree = host.tree ∧ t.containers = host.containers ∧ ∀ v ∈ VOLUMES,
    isRegular tree (containerFilesDir container ++ v) = false →
      t.volumes (volumeName container v) = host.volumes (volumeName container v)) ?_ ⟨rfl, rfl, fun _ _ _ => rfl⟩
  rintro w hw s t ⟨htree, hcontainers, hvolumes⟩ hstep
  obtain rfl := returns_eraseVolume_iff.mp hstep
  refine ⟨?_, hcontainers, fun v hv hfile => ?_⟩
  · have hnone : unlink (containerFilesDir container ++ w) s.tree = none := if_pos (.inl (by rw [htree, hempty w hw]))
    rw [hnone]
    exact htree
  · rw [← hvolumes v hv hfile]
    split
    · rename_i hremoved
      -- the removed volume is not one that the container uses
      have hne : volumeName container v ≠ volumeName container w := by
        intro hname
        obtain rfl := (volumeName_injective hv hw hname).2
        rw [hcontainers, hm.uses hv hfile, Bool.and_eq_true] at hremoved
        exact absurd hremoved.2 Bool.false_ne_true
      exact Function.update_of_ne hne _ _
    · rfl

/-- Looking up the directory of a volume. -/
theorem returns_volumePath_iff {path : Text} : Returns (volumePath D A container v) host path host' ↔
    A.succeeds (.volumeInspect (volumeName container v)) = true ∧
      (host.volumes (volumeName container v)).isSome = true ∧
      path = D.mountpoint (volumeName container v) ∧ host' = host := by
  rw [volumePath, returns_then_iff]
  simp only [returns_texec_iff, returns_get_bind_iff]
  constructor
  · rintro ⟨_, ⟨hc, rfl⟩, h⟩
    split at h
    · rename_i hsome
      obtain ⟨rfl, rfl⟩ := returns_pure_iff.mp h
      exact ⟨hc, hsome, rfl, rfl⟩
    · exact absurd h not_returns_throw
  · rintro ⟨hc, hsome, rfl, rfl⟩
    refine ⟨_, ⟨hc, rfl⟩, ?_⟩
    rw [if_pos hsome]
    exact returns_pure_iff.mpr ⟨rfl, rfl⟩

/-- The place for a link is made where there is nothing yet. -/
theorem returns_makeParent_iff {target : Text} (hempty : host.tree target = none) :
    Returns (makeParent A target) host r host' ↔
      (A.succeeds (.mkdir target) = true ∧ A.succeeds (.rmdir target) = true) ∧
        ∃ made, mkdirP target host.tree = some made ∧
          host' = { host with tree := Function.update made target none } := by
  have hdirectory : isDirectory host.tree target = false := by
    rw [isDirectory, maxLinks, follow, hempty]
    rfl
  rw [makeParent, returns_get_bind_iff]
  simp only [hdirectory, Bool.false_eq_true, if_false]
  rw [returns_then_iff]
  simp only [returns_onTree_iff]
  constructor
  · rintro ⟨_, ⟨hmk, made, hmade, rfl⟩, hrm, tree, htree, rfl⟩
    rw [rmdir, if_pos (mkdirP_self_of_none hmade hempty)] at htree
    obtain rfl := Option.some.inj htree
    exact ⟨⟨hmk, hrm⟩, made, hmade, rfl⟩
  · rintro ⟨⟨hmk, hrm⟩, made, hmade, rfl⟩
    exact ⟨_, ⟨hmk, made, hmade, rfl⟩, hrm, _, if_pos (mkdirP_self_of_none hmade hempty), rfl⟩

/-- A round of linking where there is nothing yet: the directories above are made, and the link. -/
theorem returns_linkVolume_iff (hempty : host.tree (containerFilesDir container ++ v) = none) :
    Returns (linkVolume D A container v) host r host' ↔
      (A.succeeds (.mkdir (containerFilesDir container ++ v)) = true ∧
        A.succeeds (.rmdir (containerFilesDir container ++ v)) = true ∧
        A.succeeds (.volumeInspect (volumeName container v)) = true ∧
        A.succeeds (.ln (D.mountpoint (volumeName container v)) (containerFilesDir container ++ v)) = true) ∧
      (host.volumes (volumeName container v)).isSome = true ∧
      ∃ made, mkdirP (containerFilesDir container ++ v) host.tree = some made ∧
        host' = { host with
          tree := Function.update made (containerFilesDir container ++ v)
            (some (.link (D.mountpoint (volumeName container v)))) } := by
  have hregular : isRegular host.tree (containerFilesDir container ++ v) = false := by
    rw [isRegular, maxLinks, follow, hempty]
    rfl
  rw [linkVolume, returns_get_bind_iff]
  simp only [hregular, Bool.false_eq_true, if_false]
  rw [returns_then_iff]
  simp only [returns_makeParent_iff hempty, returns_bind_iff, returns_volumePath_iff, returns_onTree_iff]
  constructor
  · rintro ⟨_, ⟨⟨hmk, hrm⟩, made, hmade, rfl⟩, _, _, ⟨hinspect, hsome, rfl, rfl⟩, hln, tree, htree, rfl⟩
    obtain rfl := Option.some.inj ((lnS_update_none _ _ _).symm.trans htree)
    exact ⟨⟨hmk, hrm, hinspect, hln⟩, hsome, made, hmade, rfl⟩
  · rintro ⟨⟨hmk, hrm, hinspect, hln⟩, hsome, made, hmade, rfl⟩
    refine ⟨_, ⟨⟨hmk, hrm⟩, made, hmade, rfl⟩, _, _, ⟨hinspect, hsome, rfl, rfl⟩, hln, _, ?_, rfl⟩
    exact lnS_update_none _ _ _

/-- **Linking** makes a link to the directory of every volume, and leaves everything else. -/
theorem linkVolumes_returns {volumes : List Text} (hsub : ∀ v ∈ volumes, v ∈ VOLUMES) (hnodup : volumes.Nodup)
    (hempty : ∀ v ∈ volumes, host.tree (containerFilesDir container ++ v) = none)
    (h : Returns (linkVolumes D A container volumes) host r host') :
    host'.volumes = host.volumes ∧ host'.containers = host.containers ∧
      (∀ v ∈ volumes, host'.tree (containerFilesDir container ++ v) =
        some (.link (D.mountpoint (volumeName container v)))) ∧
      ∀ w ∈ VOLUMES, w ∉ volumes → host'.tree (containerFilesDir container ++ w) =
        host.tree (containerFilesDir container ++ w) := by
  induction volumes generalizing host with
  | nil =>
    obtain ⟨-, rfl⟩ := returns_pure_iff.mp h
    exact ⟨rfl, rfl, by simp, fun _ _ _ => rfl⟩
  | cons v volumes ih =>
    obtain ⟨s, hv, hrest⟩ := returns_forM_cons_iff.mp h
    obtain ⟨-, -, made, hmade, rfl⟩ := (returns_linkVolume_iff (hempty v List.mem_cons_self)).mp hv
    obtain ⟨hnotin, hnodup⟩ := List.nodup_cons.mp hnodup
    -- the other places are as they were
    have hother : ∀ w ∈ VOLUMES, w ≠ v → Function.update made (containerFilesDir container ++ v)
        (some (.link (D.mountpoint (volumeName container v)))) (containerFilesDir container ++ w) =
          host.tree (containerFilesDir container ++ w) := by
      intro w hw hne
      rw [Function.update_of_ne fun heq => hne (List.append_cancel_left heq)]
      exact mkdirP_apply_of_not_mem hmade (not_mem_ancestors (hsub v List.mem_cons_self) hw hne)
    obtain ⟨hvolumes, hcontainers, hlinks, hothers⟩ := ih
      (fun w hw => hsub w (List.mem_cons_of_mem v hw)) hnodup
      (fun w hw => (hother w (hsub w (List.mem_cons_of_mem v hw)) fun heq => hnotin (heq ▸ hw)).trans
        (hempty w (List.mem_cons_of_mem v hw))) hrest
    refine ⟨hvolumes, hcontainers, ?_, fun w hw hne => ?_⟩
    · intro w hw
      rcases List.mem_cons.mp hw with rfl | hw
      · rw [hothers w (hsub w List.mem_cons_self) hnotin]
        exact Function.update_self _ _ _
      · exact hlinks w hw
    · rw [List.mem_cons, not_or] at hne
      rw [hothers w hw hne.2]
      exact hother w hw hne.1

/-! ## The whole call -/

/-- The directory of the files is empty after it has been made again. -/
theorem wiped_apply (hmade : mkdirP (containerFilesDir container) (rmRf (containerFilesDir container) host.tree) =
    some tree) (hv : v ∈ VOLUMES) : tree (containerFilesDir container ++ v) = none := by
  have hslash : ∀ v ∈ VOLUMES, ['/'] <+: v := by decide
  rw [mkdirP_apply_of_not_mem hmade, rmRf, if_pos (.inr (List.prefix_append_right_inj _ |>.mpr (hslash v hv)))]
  intro hmem
  have hlength := (mem_ancestors_iff.mp hmem).2.length_le
  have hne := (hslash v hv).length_le
  rw [List.length_append] at hlength
  rw [List.length_singleton] at hne
  omega

/-- **The call**: the container has its mounts, chosen from the tree as it was; its volumes hold what they
held, filled and written to; and every link leads to its volume. -/
theorem dcreateContainer_returns {ip hostName dnsIp : Text} {hostRecords : List Text}
    (h : Returns (dcreateContainer D A container imageTag cmd VOLUMES ip hostName dnsIp hostRecords false)
      host r host') :
    Mounted container host.tree host' ∧
      (∀ v ∈ VOLUMES, isRegular host.tree (containerFilesDir container ++ v) = false →
        host'.volumes (volumeName container v) = some
          (written D cmd v (populate (D.image imageTag v) (host.volumes (volumeName container v))))) ∧
      ∀ v ∈ VOLUMES, host'.tree (containerFilesDir container ++ v) =
        some (.link (D.mountpoint (volumeName container v))) := by
  have hvolumes : ¬ VOLUMES = [] := List.cons_ne_nil _ _
  simp only [dcreateContainer, initContainerDir, unlessRecreate_false, returns_then_iff, returns_assertIp_iff,
    returns_assertHostname_iff, returns_get_bind_iff, if_neg hvolumes, returns_initContainerHosts_iff,
    returns_initContainerResolv_iff, returns_createFileWithLines_iff] at h
  obtain ⟨_, ⟨-, rfl⟩, _, ⟨-, rfl⟩, _, ⟨-, rfl⟩, s, hrm, t, hdir, _, ⟨-, -, rfl⟩, _, ⟨-, -, rfl⟩, u, hcreate,
    copied, hcopy, erased, herase, linked, hlink, havahi⟩ := h
  -- the container is removed and its directory made again
  have hs : s.tree = host.tree ∧ s.volumes = host.volumes := by
    rcases returns_dockerRm_iff.mp hrm with ⟨-, rfl⟩ | ⟨-, rfl⟩ <;> exact ⟨rfl, rfl⟩
  obtain ⟨-, wiped, hwiped, rfl⟩ := returns_removeAndCreateDir_iff.mp hdir
  rw [hs.1] at hwiped
  -- the container is created with volumes that have their data
  obtain ⟨-, hnone, rfl⟩ := returns_dockerCreate_iff.mp hcreate
  have hm : Mounted container host.tree { s with
      tree := wiped,
      volumes := createVolumes D imageTag (volumesString container host.tree) s.volumes,
      containers := s.containers ++ [⟨container, volumesString container host.tree⟩] } :=
    mounted_create hnone rfl
  obtain ⟨hcopyTree, hcopyContainers, hcopyVolumes⟩ := copyBootstrap_returns hm hcopy
  have hmcopied : Mounted container host.tree copied := by rw [Mounted, hcopyContainers]; exact hm
  -- nothing is erased
  obtain ⟨heraseTree, heraseContainers, heraseVolumes⟩ := eraseVolumes_returns hmcopied
    (fun v hv => by rw [hcopyTree]; exact wiped_apply hwiped hv) herase
  -- the links are made
  obtain ⟨hlinkVolumes, hlinkContainers, hlinks, -⟩ := linkVolumes_returns (fun _ hv => hv) (by decide)
    (fun v hv => by rw [heraseTree, hcopyTree]; exact wiped_apply hwiped hv) hlink
  obtain ⟨-, rfl⟩ := returns_addContanerToAvahi_iff.mp havahi
  refine ⟨?_, fun v hv hfile => ?_, hlinks⟩
  · rw [Mounted, hlinkContainers, heraseContainers]
    exact hmcopied
  · change linked.volumes (volumeName container v) = _
    rw [hlinkVolumes, heraseVolumes v hv hfile, ← hs.2]
    exact hcopyVolumes v hv hfile _ (createVolumes_volumesString hv hfile s.volumes)

/-! ## Old data -/

/-- What is not written over stays. -/
theorem mem_written {entry : Text × Text} {data : Volume} (h : entry ∈ data) (hkeep : ¬ Replaced cmd v entry.1) :
    entry ∈ written D cmd v data := by
  unfold written
  split
  · rename_i hetc
    split
    · rename_i hcmd
      refine List.mem_cons_of_mem _ (List.mem_filter.mpr ⟨h, decide_eq_true fun hpath => ?_⟩)
      exact hkeep ⟨hcmd, hetc, hpath⟩
    · split
      · split
        · exact h
        · rename_i hnone
          refine List.mem_cons_of_mem _ (List.mem_filter.mpr ⟨h, decide_eq_true fun hpath => hnone ?_⟩)
          exact List.any_eq_true.mpr ⟨entry, h, decide_eq_true hpath⟩
      · exact h
  · exact h

/-- What is there afterwards was there and is not written over, or is put there. -/
theorem of_mem_written {entry : Text × Text} {data : Volume} (h : entry ∈ written D cmd v data) :
    (v, entry) ∈ putByCall D cmd ∨ entry ∈ data ∧ ¬ Replaced cmd v entry.1 := by
  unfold written at h
  unfold putByCall
  split at h
  · rename_i hetc
    split at h
    · rename_i hcmd
      rw [if_pos hcmd]
      rcases List.mem_cons.mp h with rfl | h
      · exact .inl (by rw [hetc]; exact List.mem_singleton_self _)
      · obtain ⟨hmem, hpath⟩ := List.mem_filter.mp h
        exact .inr ⟨hmem, fun hreplaced => of_decide_eq_true hpath hreplaced.2.2⟩
    · rename_i hcmd
      rw [if_neg hcmd]
      have hkeep : ¬ Replaced cmd v entry.1 := fun hreplaced => hcmd hreplaced.1
      split at h
      · rename_i happ
        rw [if_pos happ]
        split at h
        · exact .inr ⟨h, hkeep⟩
        · rcases List.mem_cons.mp h with rfl | h
          · exact .inl (by rw [hetc]; exact List.mem_singleton_self _)
          · exact .inr ⟨(List.mem_filter.mp h).1, hkeep⟩
      · exact .inr ⟨h, hkeep⟩
  · rename_i hetc
    exact .inr ⟨h, fun hreplaced => hetc hreplaced.2.1⟩

/-- A volume that holds something keeps it when a container is created. -/
theorem mem_populate {image data : Volume} {entry : Text × Text} (h : entry ∈ data) :
    entry ∈ populate image (some data) := by
  rw [populate, if_neg (List.ne_nil_of_mem h)]
  exact h

/-- What a volume of a new container holds is from the image, or was there. -/
theorem of_mem_populate {image : Volume} {volume : Option Volume} {entry : Text × Text}
    (h : entry ∈ populate image volume) : entry ∈ image ∨ ∃ data, volume = some data ∧ entry ∈ data := by
  cases volume with
  | none => exact .inl h
  | some data =>
    rw [populate] at h
    split at h
    · exact .inl h
    · exact .inr ⟨data, rfl, h⟩

/-! ## A call that goes through -/

/-- No file is in the way of a link. -/
def Unblocked (container : Text) (tree : Tree) : Prop :=
  ∀ v ∈ VOLUMES, ∀ a ∈ ancestors (containerFilesDir container ++ v), (tree a).any Node.isFile = false

/-- Nothing is in the way in a directory that has been made again. -/
theorem wiped_unblocked (hmade : mkdirP (containerFilesDir container) (rmRf (containerFilesDir container) host.tree) =
    some tree) : Unblocked container tree := by
  have hslash : ∀ v ∈ VOLUMES, ['/'] <+: v := by decide
  obtain ⟨-, hfile⟩ := mkdirP_eq_some_iff.mp ⟨tree, hmade⟩
  intro v hv a ha
  rcases mkdirP_apply_or hmade (q := a) with h | h
  · obtain ⟨hne, hwithin⟩ := mem_ancestors_iff.mp ha
    obtain ⟨rest, rfl⟩ := hslash v hv
    rw [h]
    rcases within_or_within hwithin with hwithin | hwithin
    · rw [rmRf]
      split
      · rfl
      · rename_i hout
        have hkept := hfile a (mem_ancestors_iff.mpr ⟨hne, hwithin⟩)
        rwa [rmRf, if_neg hout] at hkept
    · rw [rmRf, if_pos hwithin]
      rfl
  · rw [h]
    rfl

/-- Links are made when nothing is in the way and the volumes are there. -/
theorem exists_returns_linkVolumes (hA : ∀ c, A.succeeds c = true) {volumes : List Text}
    (hsub : ∀ v ∈ volumes, v ∈ VOLUMES) (hnodup : volumes.Nodup)
    (hempty : ∀ v ∈ volumes, host.tree (containerFilesDir container ++ v) = none)
    (hopen : Unblocked container host.tree)
    (hvolumes : ∀ v ∈ VOLUMES, (host.volumes (volumeName container v)).isSome = true) :
    ∃ host', Returns (linkVolumes D A container volumes) host ⟨⟩ host' := by
  refine exists_returns_forM (fun volumes t => (∀ v ∈ volumes, v ∈ VOLUMES) ∧ volumes.Nodup ∧
    (∀ v ∈ volumes, t.tree (containerFilesDir container ++ v) = none) ∧ Unblocked container t.tree ∧
    ∀ v ∈ VOLUMES, (t.volumes (volumeName container v)).isSome = true) ?_ ⟨hsub, hnodup, hempty, hopen, hvolumes⟩
  rintro v volumes s ⟨hsub, hnodup, hempty, hopen, hvolumes⟩
  obtain ⟨hnotin, hnodup⟩ := List.nodup_cons.mp hnodup
  have hv := hsub v List.mem_cons_self
  have hdir : containerFilesDir container ++ v ≠ [] := List.cons_ne_nil _ _
  obtain ⟨made, hmade⟩ := mkdirP_eq_some_iff.mpr ⟨hdir, hopen v hv⟩
  refine ⟨_, (returns_linkVolume_iff (hempty v List.mem_cons_self)).mpr
    ⟨⟨hA _, hA _, hA _, hA _⟩, hvolumes v hv, made, hmade, rfl⟩,
    fun w hw => hsub w (List.mem_cons_of_mem v hw), hnodup, fun w hw => ?_, fun w hw a ha => ?_, hvolumes⟩
  · have hne : w ≠ v := fun heq => hnotin (heq ▸ hw)
    change Function.update made _ _ (containerFilesDir container ++ w) = none
    rw [Function.update_of_ne fun heq => hne (List.append_cancel_left heq),
      mkdirP_apply_of_not_mem hmade (not_mem_ancestors hv (hsub w (List.mem_cons_of_mem v hw)) hne)]
    exact hempty w (List.mem_cons_of_mem v hw)
  · change (Function.update made _ _ a).any Node.isFile = false
    by_cases hlink : a = containerFilesDir container ++ v
    · rw [hlink, Function.update_self]
      rfl
    · rw [Function.update_of_ne hlink]
      rcases mkdirP_apply_or hmade (q := a) with h | h
      · rw [h]
        exact hopen w hw a ha
      · rw [h]
        rfl

/-- The file is copied when the commands succeed. -/
theorem exists_returns_copyBootstrap (hA : ∀ c, A.succeeds c = true) :
    ∃ host', Returns (copyBootstrap D A container cmd) host ⟨⟩ host' := by
  simp only [returns_copyBootstrap_iff, hA, true_and]
  split
  · exact ⟨_, rfl⟩
  · split
    · exact ⟨_, rfl⟩
    · exact ⟨_, rfl⟩

/-- Volumes are erased without errors. -/
theorem exists_returns_eraseVolumes {volumes : List Text} :
    ∃ host', Returns (eraseVolumes A container volumes) host ⟨⟩ host' :=
  exists_returns_forM (fun _ _ => True) (fun _ _ _ _ => ⟨_, returns_eraseVolume_iff.mpr rfl, trivial⟩) trivial

/-- **A call goes through** when the commands succeed, the addresses are ones and no file is in the way. -/
theorem exists_returns_dcreateContainer (hA : ∀ c, A.succeeds c = true) (hrm : A.dockerRm = 0)
    {ip hostName dnsIp : Text} {hostRecords : List Text} (hip : '.' ∈ ip) (hhostName : '.' ∉ hostName)
    (hdnsIp : '.' ∈ dnsIp) (hrecords : ∀ ip ∈ hostRecords, '.' ∈ ip)
    (hpath : ∀ file ∈ ["hosts".toList, "resolv.conf".toList],
      Avahi.assertPath ("/disk2/containers/".toList ++ (container ++ '/' :: file)) = .ok ())
    (hfiles : ∀ v ∈ VOLUMES, isRegular host.tree (containerFilesDir container ++ v) = false)
    (hdir : ∀ a ∈ ancestors (containerFilesDir container),
      (rmRf (containerFilesDir container) host.tree a).any Node.isFile = false) :
    ∃ host', Returns (dcreateContainer D A container imageTag cmd VOLUMES ip hostName dnsIp hostRecords false)
      host ⟨⟩ host' := by
  have hvolumes : ¬ VOLUMES = [] := List.cons_ne_nil _ _
  obtain ⟨wiped, hwiped⟩ := mkdirP_eq_some_iff.mpr ⟨List.cons_ne_nil _ _, hdir⟩
  let created : Host := { host with
    tree := wiped,
    volumes := createVolumes D imageTag (volumesString container host.tree) host.volumes,
    containers := (host.containers.filter fun k => k.name ≠ container) ++
      [⟨container, volumesString container host.tree⟩] }
  have hnone : ∀ k ∈ host.containers.filter fun k => k.name ≠ container, k.name ≠ container :=
    fun k hk => of_decide_eq_true (List.mem_filter.mp hk).2
  have hm : Mounted container host.tree created := mounted_create hnone rfl
  obtain ⟨copied, hcopy⟩ : ∃ copied, Returns (copyBootstrap D A container cmd) created ⟨⟩ copied :=
    exists_returns_copyBootstrap hA
  obtain ⟨hcopyTree, hcopyContainers, hcopyVolumes⟩ := copyBootstrap_returns hm hcopy
  have hmcopied : Mounted container host.tree copied := by rw [Mounted, hcopyContainers]; exact hm
  have hcopied : ∀ v ∈ VOLUMES, copied.tree (containerFilesDir container ++ v) = none :=
    fun v hv => by rw [hcopyTree]; exact wiped_apply hwiped hv
  obtain ⟨erased, herase⟩ : ∃ erased, Returns (eraseVolumes A container VOLUMES) copied ⟨⟩ erased :=
    exists_returns_eraseVolumes
  obtain ⟨heraseTree, -, heraseVolumes⟩ := eraseVolumes_returns hmcopied hcopied herase
  obtain ⟨linked, hlink⟩ : ∃ linked, Returns (linkVolumes D A container VOLUMES) erased ⟨⟩ linked := by
    refine exists_returns_linkVolumes hA (fun _ hv => hv) (by decide) (fun v hv => ?_) ?_ fun v hv => ?_
    · rw [heraseTree]
      exact hcopied v hv
    · rw [heraseTree, hcopyTree]
      exact wiped_unblocked hwiped
    · rw [heraseVolumes v hv (hfiles v hv), hcopyVolumes v hv (hfiles v hv) _
        (createVolumes_volumesString hv (hfiles v hv) host.volumes)]
      rfl
  simp only [dcreateContainer, initContainerDir, unlessRecreate_false, returns_then_iff, returns_assertIp_iff,
    returns_assertHostname_iff, returns_get_bind_iff, if_neg hvolumes, returns_initContainerHosts_iff,
    returns_initContainerResolv_iff, returns_createFileWithLines_iff]
  exact ⟨_, _, ⟨hdnsIp, rfl⟩, _, ⟨hip, rfl⟩, _, ⟨hhostName, rfl⟩, _, returns_dockerRm_iff.mpr (.inl ⟨hrm, rfl⟩),
    _, returns_removeAndCreateDir_iff.mpr ⟨⟨hA _, hA _, hA _⟩, wiped, hwiped, rfl⟩,
    _, ⟨hrecords, ⟨hpath _ List.mem_cons_self, hA _⟩, rfl⟩,
    _, ⟨hdnsIp, ⟨hpath _ (List.mem_cons_of_mem _ List.mem_cons_self), hA _⟩, rfl⟩,
    created, returns_dockerCreate_iff.mpr ⟨hA _, hnone, rfl⟩, copied, hcopy, erased, herase, linked, hlink, returns_addContanerToAvahi_iff.mpr ⟨hA _, rfl⟩⟩

/-! ## Fresh and used hosts -/

/-- A Docker whose image has one file. -/
def box : Docker where
  image _ v := if v = "/etc".toList then [("/hostname".toList, "image".toList)] else []
  mountpoint name := "/var/lib/docker/volumes/".toList ++ (name ++ "/_data".toList)
  bootstrap := "start".toList

/-- Every command succeeds that can. -/
def obliging : Answers := ⟨fun _ => true, 0⟩

/-- A host with an earlier container `web` and these volumes. -/
def earlierHost (volumes : Text → Option Volume) : Host where
  tree _ := none
  files _ := none
  volumes := volumes
  containers := [⟨"web".toList, volumesString "web".toList fun _ => none⟩]

/-- The call for a container `web`. -/
def createWeb : Script PUnit :=
  dcreateContainer box obliging "web".toList "web".toList bootstrapFileName VOLUMES "51.0.0.2".toList
    "web".toList "51.0.0.1".toList [] false

/-- The call goes through, and the earlier container is removed. -/
theorem createWeb_returns (volumes : Text → Option Volume) :
    ∃ host', Returns createWeb (earlierHost volumes) ⟨⟩ host' := by
  refine exists_returns_dcreateContainer (fun _ => rfl) rfl (by decide) (by decide) (by decide) (by simp)
    (by decide) (fun _ _ => rfl) fun a _ => ?_
  rw [rmRf_none rfl]
  rfl

/-! ## Fresh containers -/

/-- **A created container starts fresh exactly on a careful host.** -/
theorem fresh_iff (D : Docker) (A : Answers) (container imageTag cmd ip hostName dnsIp : Text)
    (hostRecords : List Text) (host host' : Host)
    (h : Returns (dcreateContainer D A container imageTag cmd VOLUMES ip hostName dnsIp hostRecords false)
      host ⟨⟩ host') :
    Fresh D container imageTag cmd host' ↔ Careful D container imageTag cmd host := by
  obtain ⟨hm, hvolumes, hlinks⟩ := dcreateContainer_returns h
  constructor
  · intro hfresh v hv
    obtain ⟨⟨k, hk, hname, hmount⟩, ⟨now, hnow, hentries⟩, -⟩ := hfresh v hv
    have hfile : isRegular host.tree (containerFilesDir container ++ v) = false := by
      -- a volume bound to a file has another source
      rw [hm.1 k hk hname] at hmount
      obtain ⟨w, -, heq⟩ := List.mem_map.mp hmount
      obtain ⟨hsource, rfl⟩ := Mount.mk.inj heq
      rw [← Bool.not_eq_true]
      intro hregular
      rw [volumeSource, if_pos hregular] at hsource
      cases hsource
    refine ⟨hfile, fun data hdata entry hentry => ?_⟩
    by_cases hreplaced : Replaced cmd v entry.1
    · exact .inl hreplaced
    · right
      rw [hvolumes v hv hfile, hdata, Option.some_inj] at hnow
      subst hnow
      exact hentries entry (mem_written (mem_populate hentry) hreplaced)
  · intro hcareful v hv
    obtain ⟨hfile, hold⟩ := hcareful v hv
    refine ⟨⟨_, hm.2, rfl, ?_⟩, ⟨_, hvolumes v hv hfile, fun entry hentry => ?_⟩, hlinks v hv⟩
    · exact List.mem_map.mpr ⟨v, hv, by rw [volumeSource_eq hfile]⟩
    · rcases of_mem_written hentry with hput | ⟨hmem, hkeep⟩
      · exact .inr hput
      · rcases of_mem_populate hmem with himage | ⟨data, hdata, hmem⟩
        · exact .inl himage
        · exact (hold data hdata entry hmem).resolve_left hkeep

/-- The volumes that an earlier container leaves when it has written nothing, and an old start script in one of them. -/
def cleanVolumes (name : Text) : Option Volume :=
  some (if name = "web_etc".toList then [("/hostname".toList, "image".toList), ("/bootstrap.sh".toList, [])] else [])

/-- After such a container the next one starts fresh. -/
theorem fresh_iff_clean : ∃ host', Returns createWeb (earlierHost cleanVolumes) ⟨⟩ host' ∧
    Fresh box "web".toList "web".toList bootstrapFileName host' := by
  obtain ⟨host', h⟩ := createWeb_returns cleanVolumes
  refine ⟨host', h, (fresh_iff _ _ _ _ _ _ _ _ _ _ _ h).mpr fun v hv => ⟨rfl, fun data hdata entry hentry => ?_⟩⟩
  have hclean : ∀ v ∈ VOLUMES, ∀ entry ∈ (cleanVolumes (volumeName "web".toList v)).getD [],
      Replaced bootstrapFileName v entry.1 ∨ entry ∈ box.image "web".toList v := by
    unfold Replaced
    decide
  refine (hclean v hv entry ?_).imp_right .inl
  rwa [show cleanVolumes (volumeName "web".toList v) = some data from hdata]

/-- The data of an earlier container is in the new one. -/
theorem used_not_fresh : ∃ host', Returns createWeb
    (earlierHost fun name => if name = "web_data".toList then some [("/old".toList, "data".toList)] else none)
      ⟨⟩ host' ∧ ¬ Fresh box "web".toList "web".toList bootstrapFileName host' := by
  obtain ⟨host', h⟩ := createWeb_returns
    fun name => if name = "web_data".toList then some [("/old".toList, "data".toList)] else none
  refine ⟨host', h, fun hfresh => ?_⟩
  have hdata : "/data".toList ∈ VOLUMES := by decide
  obtain ⟨-, ⟨data, hnow, hentries⟩, -⟩ := hfresh "/data".toList hdata
  have hold := (dcreateContainer_returns h).2.1 "/data".toList hdata rfl
  rw [hold, Option.some_inj] at hnow
  subst hnow
  have hentry : ("/old".toList, "data".toList) ∈ written box bootstrapFileName "/data".toList
      (populate [] (some [("/old".toList, "data".toList)])) := by decide
  exact absurd (hentries _ hentry) (by decide)

end GexCloud.Containers
