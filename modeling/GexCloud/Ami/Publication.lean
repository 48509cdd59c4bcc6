import GexCloud.Ami.Builders

/-! # Which runs of `main.rb` publish safely

The id files are what users of the images read. A builder that publishes a new image should never
leave its file without an image, and once `main.rb` ends every file should name the image of the run.

* `PublicationSafe` — both, over all runs of a step relation.
* `Careful` — the steps that neither deregister an image nor end `main.rb` before the builder that it
  does not join.
* **`publicationSafe_careful`** — runs of careful steps publish safely; `deregister_breaks` says that
  the old image always goes too early. -/

namespace GexCloud.Ami

open Texts Runs

/-! ## The specification -/

/-- The file of a builder and a region names a public image that was created for it in the run. -/
def PublishedBy (past : List Event) (c : Cloud) (b : Builder) (r : Region) : Prop :=
  ∃ ami, .call b r (.image ami) ∈ past ∧ c.bucket (getAmiS3FileName b r) = some ami ∧
    c.images (r, ami) = some .everyone

/-- **Safe publication**, for the runs of a step relation: a file that named a registered image names
one ever after, and when `main.rb` has ended without an aborted thread every file names a public image
created in the run. -/
def PublicationSafe (R : World → Event → World → Prop) : Prop :=
  ∀ w₀ w₁ w₂ before after, w₀.Start → Run R w₀ before w₁ → Run R w₁ after w₂ →
    (∀ b r, w₁.cloud.Names b r → w₂.cloud.Names b r) ∧
    (w₂.main = .exited → w₂.NoAbort → ∀ b r, PublishedBy (before ++ after) w₂.cloud b r)

/-- The step is no successful `deregister_image`. -/
def KeepsImages (w : World) : Event → Prop
  | .call b r answer => answer = .ok → (w.job (b, r)).isDeleting = false
  | _ => True

/-- The step does not end `main.rb` while the builder that it does not join is still at work. -/
def WaitsForProd (w : World) : Event → Prop
  | .exit => w.NoAbort → ∀ r, w.Published .nodeProd r
  | _ => True

/-- **The condition on a step.** -/
def Careful (w : World) (e : Event) : Prop := KeepsImages w e ∧ WaitsForProd w e

instance (w : World) (e : Event) : Decidable (KeepsImages w e) := by
  cases e <;> unfold KeepsImages <;> infer_instance

instance (w : World) (e : Event) : Decidable (WaitsForProd w e) := by
  cases e <;> unfold WaitsForProd <;> infer_instance

instance (w : World) (e : Event) : Decidable (Careful w e) := by unfold Careful; infer_instance

/-! ## What a step does -/

/-- The remote calls with their answers, and what they change. -/
inductive Called (c : Cloud) (b : Builder) (r : Region) : Stage → Answer → Stage → Cloud → Prop
  | imaged (ami : Text) (isId : IsImageId ami) (fresh : ami ∉ c.issued) :
      Called c b r .imaging (.image ami) (.reading ami) (c.register r ami)
  | imagingFailed : Called c b r .imaging .failed .aborted c
  | read (ami t : Text) (h : c.bucket (getAmiS3FileName b r) = some t ∨ ¬ IsImageId t) :
      Called c b r (.reading ami) (.body t) (.deleting ami (some t)) c
  | unread (ami : Text) : Called c b r (.reading ami) .failed (.deleting ami none) c
  | deregistered (ami previous : Text) (h : c.images (r, previous) ≠ none) :
      Called c b r (.deleting ami (some previous)) .ok (.saving ami) (c.deregister r previous)
  | kept (ami : Text) (previous : Option Text) :
      Called c b r (.deleting ami previous) .failed (.saving ami) c
  | saved (ami : Text) :
      Called c b r (.saving ami) .ok (.publishing ami) (c.saveAmiId (getAmiS3FileName b r) ami)
  | savingFailed (ami : Text) : Called c b r (.saving ami) .failed .aborted c
  | shared (ami : Text) (h : c.images (r, ami) ≠ none) :
      Called c b r (.publishing ami) .ok (.published ami) (c.share r ami)
  | retried (ami : Text) : Called c b r (.publishing ami) .failed (.publishing ami) c

variable {c c' : Cloud} {b : Builder} {r : Region} {stage stage' : Stage} {answer : Answer}

/-- Every remote call is one of those. -/
theorem called_of_call (h : c.call b r stage answer = some (stage', c')) :
    Called c b r stage answer stage' c' := by
  unfold Cloud.call at h
  split at h
  · split at h
    · rename_i ami hguard
      cases h
      exact .imaged ami hguard.1 hguard.2
    · cases h
  · cases h
    exact .imagingFailed
  · split at h
    · rename_i ami t hguard
      cases h
      exact .read ami t hguard
    · cases h
  · cases h
    exact .unread _
  · split at h
    · rename_i ami previous hguard
      cases h
      exact .deregistered ami previous hguard
    · cases h
  · cases h
    exact .kept _ _
  · cases h
    exact .saved _
  · cases h
    exact .savingFailed _
  · split at h
    · rename_i ami hguard
      cases h
      exact .shared ami hguard
    · cases h
  · cases h
    exact .retried _
  · cases h

/-- The steps of the program, and what they change. -/
inductive Moved (w : World) : Event → World → Prop
  | prepared (b : Builder) (hb : w.builder b = .preparing) :
      Moved w (.prepare b true) { w with
        builder := Function.update w.builder b .imaging
        job := Function.update w.job (b, defaultRegion) .imaging }
  | prepareFailed (b : Builder) (hb : w.builder b = .preparing) :
      Moved w (.prepare b false) { w with builder := Function.update w.builder b .aborted }
  | called (b : Builder) (r : Region) (answer : Answer) (stage : Stage) (cloud : Cloud)
      (h : Called w.cloud b r (w.job (b, r)) answer stage cloud) :
      Moved w (.call b r answer) { w with
        cloud := cloud, job := Function.update w.job (b, r) stage }
  | spawned (b : Builder) (hb : w.builder b = .imaging) (hjob : w.Published b defaultRegion) :
      Moved w (.spawn b) { w with
        builder := Function.update w.builder b (.joining awsRegions)
        job := fun j => if j.1 = b ∧ j.2 ∈ awsRegions then .imaging else w.job j }
  | regionJoined (b : Builder) (r : Region) (rest : List Region)
      (hb : w.builder b = .joining (r :: rest)) (hjob : w.Published b r) :
      Moved w (.join b) { w with builder := Function.update w.builder b (.joining rest) }
  | joinRaised (b : Builder) (r : Region) (rest : List Region)
      (hb : w.builder b = .joining (r :: rest)) :
      Moved w (.join b) { w with builder := Function.update w.builder b .aborted }
  | terminated (b : Builder) (ok : Bool) (hb : w.builder b = .joining []) :
      Moved w (.terminate b ok) { w with
        builder := Function.update w.builder b (if ok then .finished else .aborted) }
  | builderJoined (b : Builder) (rest : List Builder) (hmain : w.main = .joining (b :: rest))
      (hb : w.builder b = .finished) : Moved w .mainJoin { w with main := .joining rest }
  | mainRaised : Moved w .mainJoin { w with main := .raised }
  | exited (hmain : w.main = .joining []) : Moved w .exit { w with main := .exited }

variable {w w' : World} {e : Event}

/-- **Inversion**: a step is one of those, and `main.rb` has not ended before it. -/
theorem World.Step.moved (h : w.Step e w') : Moved w e w' ∧ ∃ rest, w.main = .joining rest := by
  unfold World.Step at h
  obtain ⟨cloud, job, builder, main⟩ := w
  cases main with
  | exited => cases e <;> simp [World.step] at h
  | raised => cases e <;> simp [World.step] at h
  | joining waiting =>
    refine ⟨?_, waiting, rfl⟩
    cases e with
    | prepare b ok =>
      simp only [World.step, true_and] at h
      split at h
      · rename_i hb
        cases ok
        · cases h
          exact .prepareFailed b hb
        · cases h
          exact .prepared b hb
      · cases h
    | call b r answer =>
      simp only [World.step, if_true, Option.map_eq_some_iff] at h
      obtain ⟨⟨stage, cloud'⟩, hcall, rfl⟩ := h
      exact .called b r answer stage cloud' (called_of_call hcall)
    | spawn b =>
      simp only [World.step] at h
      split at h
      · rename_i ami _ hb hjob
        cases h
        exact .spawned b hb ⟨ami, hjob⟩
      · cases h
    | join b =>
      simp only [World.step] at h
      split at h
      · rename_i r rest _ hb
        split at h
        · rename_i ami hjob
          cases h
          exact .regionJoined b r rest hb ⟨ami, hjob⟩
        · cases h
          exact .joinRaised b r rest hb
        · cases h
      · cases h
    | terminate b ok =>
      simp only [World.step] at h
      split at h
      · rename_i hb
        cases h
        exact .terminated b ok hb
      · cases h
    | mainJoin =>
      simp only [World.step] at h
      split at h
      · rename_i b rest hrest
        split at h
        · rename_i hb
          cases h
          exact .builderJoined b rest hrest hb
        · split at h
          · cases h
            exact .mainRaised
          · cases h
      · cases h
    | exit =>
      simp only [World.step] at h
      split at h
      · rename_i hrest
        cases h
        exact .exited hrest
      · cases h

/-! ## The cloud keeps what is published -/

/-- Every registered image has an id that was given out. -/
def Cloud.Issued (c : Cloud) : Prop := ∀ r ami, c.images (r, ami) ≠ none → ami ∈ c.issued

/-- The cloud after a careful call for `b` in `r`: images stay registered, public ones stay public,
and only the file of `b` in `r` changes. -/
structure Grows (c c' : Cloud) (b : Builder) (r : Region) : Prop where
  registered : ∀ p, c.images p ≠ none → c'.images p ≠ none
  everyone : ∀ p, c.images p = some .everyone → c'.images p = some .everyone
  file : ∀ b' r', (b', r') ≠ (b, r) →
    c'.bucket (getAmiS3FileName b' r') = c.bucket (getAmiS3FileName b' r')

/-- Nothing changed. -/
theorem Grows.refl (c : Cloud) (b : Builder) (r : Region) : Grows c c b r :=
  ⟨fun _ h => h, fun _ h => h, fun _ _ _ => rfl⟩

/-- A registered image is not the one with a new id. -/
theorem Cloud.Issued.ne_of_fresh {ami : Text} (issued : c.Issued) (fresh : ami ∉ c.issued)
    {p : Region × Text} (hp : c.images p ≠ none) : p ≠ (r, ami) := by
  rintro rfl
  exact fresh (issued r ami hp)

/-- A call changes no file but its own. -/
theorem Called.file (h : Called c b r stage answer stage' c') {b' : Builder} {r' : Region}
    (hne : (b', r') ≠ (b, r)) :
    c'.bucket (getAmiS3FileName b' r') = c.bucket (getAmiS3FileName b' r') := by
  cases h with
  | saved ami =>
    have hfile : getAmiS3FileName b' r' ≠ getAmiS3FileName b r := by
      intro heq
      obtain ⟨rfl, rfl⟩ := getAmiS3FileName_inj heq
      exact hne rfl
    exact c.saveAmiId_bucket_of_ne ami hfile
  | _ => rfl

/-- **A careful call loses nothing.** -/
theorem Called.grows (h : Called c b r stage answer stage' c') (issued : c.Issued)
    (keeps : answer = .ok → stage.isDeleting = false) : Grows c c' b r := by
  have file : ∀ b' r', (b', r') ≠ (b, r) →
      c'.bucket (getAmiS3FileName b' r') = c.bucket (getAmiS3FileName b' r') :=
    fun _ _ => h.file
  cases h with
  | imaged ami isId fresh =>
    refine ⟨fun p hp => ?_, fun p hp => ?_, file⟩
    · rw [c.register_images_of_ne r ami (issued.ne_of_fresh fresh hp)]
      exact hp
    · have hreg : c.images p ≠ none := by simp [hp]
      rw [c.register_images_of_ne r ami (issued.ne_of_fresh fresh hreg)]
      exact hp
  | deregistered ami previous => cases keeps rfl
  | saved ami => exact ⟨fun _ hp => hp, fun _ hp => hp, file⟩
  | shared ami =>
    refine ⟨fun p hp => ?_, fun p hp => ?_, file⟩
    · by_cases heq : p = (r, ami)
      · simp [heq]
      · rw [c.share_images_of_ne r ami heq]
        exact hp
    · by_cases heq : p = (r, ami)
      · simp [heq]
      · rw [c.share_images_of_ne r ami heq]
        exact hp
  | imagingFailed => exact .refl c b r
  | read => exact .refl c b r
  | unread => exact .refl c b r
  | kept => exact .refl c b r
  | savingFailed => exact .refl c b r
  | retried => exact .refl c b r

/-- Ids stay given out. -/
theorem Called.issued (h : Called c b r stage answer stage' c') (issued : c.Issued) : c'.Issued := by
  cases h with
  | imaged ami =>
    intro r' ami' hreg
    by_cases heq : (r', ami') = (r, ami)
    · obtain ⟨rfl, rfl⟩ := Prod.mk.inj heq
      exact List.mem_cons_self
    · rw [c.register_images_of_ne r ami heq] at hreg
      exact List.mem_cons_of_mem _ (issued r' ami' hreg)
  | deregistered ami previous =>
    intro r' ami' hreg
    by_cases heq : (r', ami') = (r, previous)
    · simp [heq] at hreg
    · rw [c.deregister_images_of_ne r previous heq] at hreg
      exact issued r' ami' hreg
  | shared ami hami =>
    intro r' ami' hreg
    by_cases heq : (r', ami') = (r, ami)
    · exact issued r' ami' (heq ▸ hami)
    · rw [c.share_images_of_ne r ami heq] at hreg
      exact issued r' ami' hreg
  | saved => exact issued
  | imagingFailed => exact issued
  | read => exact issued
  | unread => exact issued
  | kept => exact issued
  | savingFailed => exact issued
  | retried => exact issued

/-! ## The invariant -/

/-- What the stage of a builder in a region says about the cloud. -/
def Stage.Sound (past : List Event) (c : Cloud) (b : Builder) (r : Region) : Stage → Prop
  | .reading ami | .deleting ami _ | .saving ami =>
    .call b r (.image ami) ∈ past ∧ c.images (r, ami) ≠ none
  | .publishing ami =>
    .call b r (.image ami) ∈ past ∧ c.images (r, ami) ≠ none ∧
      c.bucket (getAmiS3FileName b r) = some ami
  | .published _ => PublishedBy past c b r
  | .waiting | .imaging | .aborted => True

variable {past past' : List Event}

/-- Soundness survives later events and a cloud that keeps the images and the file. -/
theorem Stage.Sound.mono (sound : stage.Sound past c b r) (hpast : past ⊆ past')
    {b' : Builder} {r' : Region} (grows : Grows c c' b' r')
    (hfile : c'.bucket (getAmiS3FileName b r) = c.bucket (getAmiS3FileName b r)) :
    stage.Sound past' c' b r := by
  cases stage with
  | reading => exact ⟨hpast sound.1, grows.registered _ sound.2⟩
  | deleting => exact ⟨hpast sound.1, grows.registered _ sound.2⟩
  | saving => exact ⟨hpast sound.1, grows.registered _ sound.2⟩
  | publishing =>
    exact ⟨hpast sound.1, grows.registered _ sound.2.1, hfile.trans sound.2.2⟩
  | published =>
    obtain ⟨ami, hcreated, hbucket, hpublic⟩ := sound
    exact ⟨ami, hpast hcreated, hfile.trans hbucket, grows.everyone _ hpublic⟩
  | waiting => trivial
  | imaging => trivial
  | aborted => trivial

/-- A careful call leads from a sound stage to a sound stage. -/
theorem Called.sound (h : Called c b r stage answer stage' c')
    (keeps : answer = .ok → stage.isDeleting = false)
    (sound : stage.Sound past c b r) : stage'.Sound (past ++ [.call b r answer]) c' b r := by
  have hpast : past ⊆ past ++ [Event.call b r answer] := List.subset_append_left ..
  cases h with
  | imaged ami => exact ⟨by simp, by simp⟩
  | read => exact ⟨hpast sound.1, sound.2⟩
  | unread => exact ⟨hpast sound.1, sound.2⟩
  | deregistered ami previous => cases keeps rfl
  | kept => exact ⟨hpast sound.1, sound.2⟩
  | saved ami => exact ⟨hpast sound.1, sound.2, by simp⟩
  | shared ami => exact ⟨ami, hpast sound.1, sound.2.2, by simp⟩
  | retried => exact ⟨hpast sound.1, sound.2⟩
  | imagingFailed => trivial
  | savingFailed => trivial

/-- What a careful call leaves of the files: one that named a registered image names one. -/
theorem Called.names (h : Called c b r stage answer stage' c') (sound : stage.Sound past c b r)
    (grows : Grows c c' b r) {b' : Builder} {r' : Region} (hnames : c.Names b' r') :
    c'.Names b' r' := by
  obtain ⟨ami', hbucket, hreg⟩ := hnames
  by_cases heq : (b', r') = (b, r)
  · obtain ⟨rfl, rfl⟩ := Prod.mk.inj heq
    -- only `save_ami_id` changes the file, and its image is registered
    cases h with
    | saved ami => exact ⟨ami, by simp, sound.2⟩
    | _ => exact ⟨ami', hbucket, grows.registered _ hreg⟩
  · exact ⟨ami', (grows.file b' r' heq).trans hbucket, grows.registered _ hreg⟩

/-- What the stage of a builder thread says about its regions. -/
def BuilderStage.Sound (published : Region → Prop) : BuilderStage → Prop
  | .joining rest => published defaultRegion ∧ ∀ r ∈ awsRegions, r ∈ rest ∨ published r
  | .finished => ∀ r, published r
  | .preparing | .imaging | .aborted => True

/-- What the stage of the main thread says about the builders. -/
def MainStage.Sound (w : World) : MainStage → Prop
  | .joining rest => ∀ b ∈ joined, b ∈ rest ∨ w.builder b = .finished
  | .exited => (∀ b ∈ joined, w.builder b = .finished) ∧ (w.NoAbort → ∀ r, w.Published .nodeProd r)
  | .raised => True

/-- **The invariant** of careful runs. -/
structure Inv (past : List Event) (w : World) : Prop where
  issued : w.cloud.Issued
  jobs : ∀ b r, (w.job (b, r)).Sound past w.cloud b r
  builders : ∀ b, (w.builder b).Sound (w.Published b)
  main : w.main.Sound w

/-- The jobs stay sound. -/
theorem Moved.jobs (h : Moved w e w') (careful : Careful w e) (inv : Inv past w) (b : Builder)
    (r : Region) : (w'.job (b, r)).Sound (past ++ [e]) w'.cloud b r := by
  have hpast : past ⊆ past ++ [e] := List.subset_append_left ..
  have keep : (w.job (b, r)).Sound (past ++ [e]) w.cloud b r :=
    (inv.jobs b r).mono hpast (.refl w.cloud b r) rfl
  cases h with
  | prepared b₀ =>
    show (Function.update w.job (b₀, defaultRegion) .imaging (b, r)).Sound _ _ b r
    rw [Function.update_apply]
    split
    · trivial
    · exact keep
  | spawned b₀ =>
    show (if b = b₀ ∧ r ∈ awsRegions then Stage.imaging else w.job (b, r)).Sound _ _ b r
    split
    · trivial
    · exact keep
  | called b₀ r₀ answer stage cloud hcall =>
    show (Function.update w.job (b₀, r₀) stage (b, r)).Sound _ _ b r
    by_cases heq : (b, r) = (b₀, r₀)
    · obtain ⟨rfl, rfl⟩ := Prod.mk.inj heq
      rw [Function.update_self]
      exact hcall.sound careful.1 (inv.jobs b r)
    · rw [Function.update_of_ne heq]
      have hgrows := hcall.grows inv.issued careful.1
      exact (inv.jobs b r).mono hpast hgrows (hgrows.file b r heq)
  | prepareFailed => exact keep
  | regionJoined => exact keep
  | joinRaised => exact keep
  | terminated => exact keep
  | builderJoined => exact keep
  | mainRaised => exact keep
  | exited => exact keep

/-- What a builder has published stays published once its region threads run. -/
theorem Moved.published (h : Moved w e w') (hpreparing : w.builder b ≠ .preparing)
    (himaging : w.builder b ≠ .imaging) (hpub : w.Published b r) : w'.Published b r := by
  obtain ⟨ami, hjob⟩ := hpub
  refine ⟨ami, ?_⟩
  cases h with
  | prepared b₀ hb =>
    have hne : (b, r) ≠ (b₀, defaultRegion) := by
      intro heq
      obtain ⟨rfl, -⟩ := Prod.mk.inj heq
      exact hpreparing hb
    exact (Function.update_of_ne hne ..).trans hjob
  | spawned b₀ hb =>
    have hne : ¬ (b = b₀ ∧ r ∈ awsRegions) := by
      rintro ⟨rfl, -⟩
      exact himaging hb
    exact (if_neg hne).trans hjob
  | called b₀ r₀ answer stage cloud hcall =>
    have hne : (b, r) ≠ (b₀, r₀) := by
      intro heq
      -- no remote call follows `set_ami_public`
      rw [← heq, hjob] at hcall
      cases hcall
    exact (Function.update_of_ne hne ..).trans hjob
  | prepareFailed => exact hjob
  | regionJoined => exact hjob
  | joinRaised => exact hjob
  | terminated => exact hjob
  | builderJoined => exact hjob
  | mainRaised => exact hjob
  | exited => exact hjob

/-- A builder that did not move stays sound. -/
theorem Moved.builder_of_eq (h : Moved w e w') (sound : (w.builder b).Sound (w.Published b))
    (heq : w'.builder b = w.builder b) : (w'.builder b).Sound (w'.Published b) := by
  rw [heq]
  cases hb : w.builder b with
  | joining rest =>
    rw [hb] at sound
    have keep : ∀ r, w.Published b r → w'.Published b r := fun r =>
      h.published (by simp [hb]) (by simp [hb])
    exact ⟨keep _ sound.1, fun r hr => (sound.2 r hr).imp_right (keep r)⟩
  | finished =>
    rw [hb] at sound
    exact fun r => h.published (by simp [hb]) (by simp [hb]) (sound r)
  | preparing => trivial
  | imaging => trivial
  | aborted => trivial

/-- The builders stay sound. -/
theorem Moved.builders (h : Moved w e w') (inv : Inv past w) (b : Builder) :
    (w'.builder b).Sound (w'.Published b) := by
  have keep := h.builder_of_eq (inv.builders b)
  cases h with
  | prepared b₀ =>
    by_cases heq : b = b₀
    · subst heq
      simp [BuilderStage.Sound]
    · exact keep (Function.update_of_ne heq ..)
  | prepareFailed b₀ =>
    by_cases heq : b = b₀
    · subst heq
      simp [BuilderStage.Sound]
    · exact keep (Function.update_of_ne heq ..)
  | spawned b₀ _ hjob =>
    by_cases heq : b = b₀
    · subst heq
      obtain ⟨ami, hami⟩ := hjob
      have hdefault : ¬ (b = b ∧ defaultRegion ∈ awsRegions) := fun h => defaultRegion_not_mem h.2
      simp only [Function.update_self]
      exact ⟨⟨ami, (if_neg hdefault).trans hami⟩, fun r hr => Or.inl hr⟩
    · exact keep (Function.update_of_ne heq ..)
  | regionJoined b₀ r rest hb hjob =>
    by_cases heq : b = b₀
    · subst heq
      have hsound := inv.builders b
      rw [hb] at hsound
      simp only [Function.update_self]
      refine ⟨hsound.1, fun r' hr' => ?_⟩
      rcases hsound.2 r' hr' with hmem | hpub
      · rcases List.mem_cons.mp hmem with rfl | hrest
        · exact Or.inr hjob
        · exact Or.inl hrest
      · exact Or.inr hpub
    · exact keep (Function.update_of_ne heq ..)
  | joinRaised b₀ =>
    by_cases heq : b = b₀
    · subst heq
      simp [BuilderStage.Sound]
    · exact keep (Function.update_of_ne heq ..)
  | terminated b₀ ok hb =>
    by_cases heq : b = b₀
    · subst heq
      have hsound := inv.builders b
      rw [hb] at hsound
      simp only [Function.update_self]
      cases ok with
      | false => trivial
      | true =>
        intro r
        rcases eq_defaultRegion_or_mem r with rfl | hr
        · exact hsound.1
        · exact (hsound.2 r hr).resolve_left (by simp)
    · exact keep (Function.update_of_ne heq ..)
  | called => exact keep rfl
  | builderJoined => exact keep rfl
  | mainRaised => exact keep rfl
  | exited => exact keep rfl

/-- A builder that has finished stays finished. -/
theorem Moved.finished (h : Moved w e w') (hb : w.builder b = .finished) :
    w'.builder b = .finished := by
  have keep : ∀ b₀ stage, w.builder b₀ ≠ .finished →
      Function.update w.builder b₀ stage b = .finished := by
    intro b₀ stage hne
    have hbb : b ≠ b₀ := by
      rintro rfl
      exact hne hb
    rw [Function.update_of_ne hbb]
    exact hb
  cases h with
  | prepared b₀ h₀ => exact keep b₀ _ (by simp [h₀])
  | prepareFailed b₀ h₀ => exact keep b₀ _ (by simp [h₀])
  | spawned b₀ h₀ => exact keep b₀ _ (by simp [h₀])
  | regionJoined b₀ _ _ h₀ => exact keep b₀ _ (by simp [h₀])
  | joinRaised b₀ _ _ h₀ => exact keep b₀ _ (by simp [h₀])
  | terminated b₀ _ h₀ => exact keep b₀ _ (by simp [h₀])
  | called => exact hb
  | builderJoined => exact hb
  | mainRaised => exact hb
  | exited => exact hb

/-- The main thread stays sound. -/
theorem Moved.main (h : Moved w e w') (running : ∃ rest, w.main = .joining rest)
    (careful : Careful w e) (inv : Inv past w) : w'.main.Sound w' := by
  obtain ⟨waiting, hmain⟩ := running
  have hsound := inv.main
  rw [hmain] at hsound
  have keep : w'.main = w.main → w'.main.Sound w' := by
    intro heq
    rw [heq, hmain]
    exact fun b hb => (hsound b hb).imp_right h.finished
  cases h with
  | builderJoined b₀ rest hrest hb₀ =>
    obtain rfl : waiting = b₀ :: rest := MainStage.joining.inj (hmain.symm.trans hrest)
    intro b hb
    rcases hsound b hb with hmem | hfinished
    · rcases List.mem_cons.mp hmem with rfl | hrest
      · exact Or.inr hb₀
      · exact Or.inl hrest
    · exact Or.inr hfinished
  | exited hrest =>
    obtain rfl : waiting = [] := MainStage.joining.inj (hmain.symm.trans hrest)
    exact ⟨fun b hb => (hsound b hb).resolve_left (by simp), careful.2⟩
  | mainRaised => trivial
  | prepared => exact keep rfl
  | prepareFailed => exact keep rfl
  | called => exact keep rfl
  | spawned => exact keep rfl
  | regionJoined => exact keep rfl
  | joinRaised => exact keep rfl
  | terminated => exact keep rfl

/-- **A careful step keeps the invariant.** -/
theorem Inv.step (inv : Inv past w) (h : w.Step e w') (careful : Careful w e) :
    Inv (past ++ [e]) w' := by
  obtain ⟨hmoved, running⟩ := h.moved
  refine ⟨?_, hmoved.jobs careful inv, hmoved.builders inv, hmoved.main running careful inv⟩
  cases hmoved with
  | called b r answer stage cloud hcall => exact hcall.issued inv.issued
  | _ => exact inv.issued

/-- The invariant holds at the start. -/
theorem World.Start.inv (start : w.Start) : Inv [] w where
  issued := fun r ami hreg => (start.issued r ami hreg).1
  jobs := fun b r => by simp [start.job_eq, Stage.Sound]
  builders := fun b => by simp [start.builder_eq, BuilderStage.Sound]
  main := by
    rw [start.main_eq]
    exact fun b hb => Or.inl hb

/-- A careful step leaves no file without an image. -/
theorem Inv.names (inv : Inv past w) (h : w.Step e w') (careful : Careful w e)
    (hnames : w.cloud.Names b r) : w'.cloud.Names b r := by
  obtain ⟨hmoved, -⟩ := h.moved
  cases hmoved with
  | called b₀ r₀ answer stage cloud hcall =>
    exact hcall.names (inv.jobs b₀ r₀) (hcall.grows inv.issued careful.1) hnames
  | _ => exact hnames

/-- Once `main.rb` has ended without an aborted thread, every builder has published. -/
theorem Inv.publishedBy (inv : Inv past w) (hexited : w.main = .exited) (hno : w.NoAbort)
    (b : Builder) (r : Region) : PublishedBy past w.cloud b r := by
  have hmain := inv.main
  rw [hexited] at hmain
  have hpub : w.Published b r := by
    cases b with
    | nodeProd => exact hmain.2 hno r
    | coordinator =>
      have hsound := inv.builders .coordinator
      rw [hmain.1 .coordinator (by decide)] at hsound
      exact hsound r
    | nodeMain =>
      have hsound := inv.builders .nodeMain
      rw [hmain.1 .nodeMain (by decide)] at hsound
      exact hsound r
  obtain ⟨ami, hjob⟩ := hpub
  have hsound := inv.jobs b r
  rwa [hjob] at hsound

/-- The invariant along a careful run. -/
theorem Inv.run {events : List Event} (inv : Inv past w)
    (h : Run (guarded Careful World.Step) w events w') : Inv (past ++ events) w' :=
  h.invariant_trace Inv (fun _ _ _ _ inv hstep => inv.step hstep.2 hstep.1) inv

/-! ## The old image -/

/-- What every run keeps: registered images have ids of images, and what a builder is about to
deregister is still in its file, unless it is no id at all. -/
structure Reads (w : World) : Prop where
  ids : ∀ p, w.cloud.images p ≠ none → IsImageId p.2
  files : ∀ b r ami previous, w.job (b, r) = .deleting ami (some previous) →
    w.cloud.bucket (getAmiS3FileName b r) = some previous ∨ ¬ IsImageId previous

/-- Only images with ids of images are registered. -/
theorem Called.ids (h : Called c b r stage answer stage' c')
    (ids : ∀ p, c.images p ≠ none → IsImageId p.2) : ∀ p, c'.images p ≠ none → IsImageId p.2 := by
  intro p hp
  cases h with
  | imaged ami isId =>
    by_cases heq : p = (r, ami)
    · rw [heq]
      exact isId
    · exact ids p (by rwa [c.register_images_of_ne r ami heq] at hp)
  | deregistered ami previous =>
    by_cases heq : p = (r, previous)
    · simp [heq] at hp
    · exact ids p (by rwa [c.deregister_images_of_ne r previous heq] at hp)
  | shared ami hami =>
    by_cases heq : p = (r, ami)
    · exact ids p (by rw [heq]; exact hami)
    · exact ids p (by rwa [c.share_images_of_ne r ami heq] at hp)
  | _ => exact ids p hp

/-- Every step keeps what is read. -/
theorem Reads.step (reads : Reads w) (h : w.Step e w') : Reads w' := by
  obtain ⟨hmoved, -⟩ := h.moved
  cases hmoved with
  | called b₀ r₀ answer stage cloud hcall =>
    refine ⟨hcall.ids reads.ids, fun b r ami previous hjob => ?_⟩
    by_cases heq : (b, r) = (b₀, r₀)
    · obtain ⟨rfl, rfl⟩ := Prod.mk.inj heq
      simp only [Function.update_self] at hjob
      rw [hjob] at hcall
      generalize w.job (b, r) = before at hcall
      cases hcall with
      | read ami t ht => exact ht
    · have hold : w.job (b, r) = .deleting ami (some previous) := by
        simpa only [Function.update_of_ne heq] using hjob
      exact (hcall.file heq).symm ▸ reads.files b r ami previous hold
  | prepared b₀ =>
    refine ⟨reads.ids, fun b r ami previous hjob => ?_⟩
    by_cases heq : (b, r) = (b₀, defaultRegion)
    · simp [heq] at hjob
    · exact reads.files b r ami previous (by simpa only [Function.update_of_ne heq] using hjob)
  | spawned b₀ =>
    refine ⟨reads.ids, fun b r ami previous hjob => ?_⟩
    by_cases heq : b = b₀ ∧ r ∈ awsRegions
    · simp [heq] at hjob
    · exact reads.files b r ami previous (by simpa only [if_neg heq] using hjob)
  | _ => exact ⟨reads.ids, reads.files⟩

/-- **The old image goes too early**: whenever `deregister_image` succeeds, in any run, the file of
the region named a registered image and from then on names none. -/
theorem deregister_breaks {w₀ : World} (start : w₀.Start) (h : Run World.Step w₀ past w)
    (hstep : w.Step (.call b r .ok) w') (hstage : (w.job (b, r)).isDeleting = true) :
    w.cloud.Names b r ∧ ¬ w'.cloud.Names b r := by
  have hreads : Reads w := h.invariant Reads (fun _ _ _ reads hstep => reads.step hstep)
    ⟨fun p hp => (start.issued p.1 p.2 hp).2, by simp [start.job_eq]⟩
  obtain ⟨hmoved, -⟩ := hstep.moved
  cases hmoved with
  | called _ _ _ stage cloud hcall =>
    have hfiles := hreads.files b r
    generalize w.job (b, r) = before at hcall hstage hfiles
    cases hcall with
    | deregistered ami previous hreg =>
      have hfile := (hfiles ami previous rfl).resolve_right (not_not_intro (hreads.ids _ hreg))
      refine ⟨⟨previous, hfile, hreg⟩, ?_⟩
      rintro ⟨ami', hami', hreg'⟩
      obtain rfl : previous = ami' := Option.some.inj (hfile.symm.trans hami')
      simp at hreg'
    | saved => cases hstage
    | shared => cases hstage

/-! ## Publication -/

/-- The calls that publish an image in a region where no old image is found. -/
def publishEvents (b : Builder) (r : Region) : List Event :=
  [.call b r (.image ("ami-".toList ++ getAmiS3FileName b r)), .call b r .failed, .call b r .failed,
    .call b r .ok, .call b r .ok]

/-- The steps of a builder that is alone. -/
def builderEvents (b : Builder) : List Event :=
  .prepare b true :: publishEvents b defaultRegion ++
    .spawn b :: awsRegions.flatMap (publishEvents b) ++ awsRegions.map (fun _ => .join b) ++
    [.terminate b true]

/-- The steps with which `main.rb` ends. -/
def exitEvents : List Event := [.mainJoin, .mainJoin, .exit]

/-- A start with one image, which one file names. -/
def exampleWorld : World where
  cloud :=
    { images := Function.update (fun _ => none) (.usWest2, "ami-1".toList) (some .everyone)
      issued := ["ami-1".toList]
      bucket := Function.update (fun _ => none) (getAmiS3FileName .coordinator .usWest2)
        (some "ami-1".toList) }
  job := fun _ => .waiting
  builder := fun _ => .preparing
  main := .joining joined

/-- Nothing has been built there. -/
theorem exampleWorld_start : exampleWorld.Start where
  issued := by
    intro r ami hreg
    by_cases heq : (r, ami) = (.usWest2, "ami-1".toList)
    · obtain ⟨-, rfl⟩ := Prod.mk.inj heq
      exact ⟨List.mem_singleton_self _, by decide⟩
    · have hnone : exampleWorld.cloud.images (r, ami) = none := by
        show Function.update (fun _ => none) (.usWest2, "ami-1".toList)
          (some Visibility.everyone) (r, ami) = none
        rw [Function.update_of_ne heq]
      exact absurd hnone hreg
  job_eq _ := rfl
  builder_eq _ := rfl
  main_eq := rfl

/-- **Careful runs publish safely**: no file that named a registered image is ever without one, and
`main.rb` ends with every file naming the public image of the run. -/
theorem publicationSafe_careful {w₀ w₁ w₂ : World} {before after : List Event} (start : w₀.Start)
    (hbefore : Run (guarded Careful World.Step) w₀ before w₁)
    (hafter : Run (guarded Careful World.Step) w₁ after w₂) :
    (∀ b r, w₁.cloud.Names b r → w₂.cloud.Names b r) ∧
    (w₂.main = .exited → w₂.NoAbort → ∀ b r, PublishedBy (before ++ after) w₂.cloud b r) := by
  have inv₁ : Inv before w₁ := start.inv.run hbefore
  refine ⟨fun b r hnames => ?_, fun hexited hno => (inv₁.run hafter).publishedBy hexited hno⟩
  have hboth := hafter.invariant_trace (fun past w => Inv past w ∧ w.cloud.Names b r)
    (fun _ _ _ _ hw hstep => ⟨hw.1.step hstep.2 hstep.1, hw.1.names hstep.2 hstep.1 hw.2⟩)
    ⟨inv₁, hnames⟩
  exact hboth.2

/-- A careful run that publishes: all three builders work, the last one before `main.rb` ends. -/
theorem publicationSafe_careful_exit : ∃ events w,
    Run (guarded Careful World.Step) exampleWorld events w ∧ w.main = .exited ∧
      ∀ b r, PublishedBy events w.cloud b r := by
  obtain ⟨w, h, hexited, hno⟩ := exists_run_guarded
    (builderEvents .nodeProd ++ builderEvents .coordinator ++ builderEvents .nodeMain ++ exitEvents)
    (G := Careful) (f := World.step) (s := exampleWorld)
    (P := fun w => w.main = .exited ∧ w.NoAbort) (by decide +kernel)
  refine ⟨_, w, h, hexited, ?_⟩
  have hsafe := publicationSafe_careful exampleWorld_start h (.nil w)
  simpa using hsafe.2 hexited hno

/-- **Neither part of the condition can be left out.** Without the first, the coordinator deregisters
the image its file names; without the second, `main.rb` ends before the last builder has made any. -/
theorem publicationSafe_fails : ¬ PublicationSafe World.Step ∧
    ¬ PublicationSafe (guarded WaitsForProd World.Step) ∧
    ¬ PublicationSafe (guarded KeepsImages World.Step) := by
  have hdeletes : ¬ PublicationSafe (guarded WaitsForProd World.Step) := by
    intro h
    obtain ⟨w₁, h₁, hstage, hnext⟩ := exists_run_guarded
      [.prepare .coordinator true, .call .coordinator .usWest2 (.image "ami-2".toList),
        .call .coordinator .usWest2 (.body "ami-1".toList)]
      (G := WaitsForProd) (f := World.step) (s := exampleWorld)
      (P := fun w => (w.job (.coordinator, .usWest2)).isDeleting = true ∧
        (w.step (.call .coordinator .usWest2 .ok)).isSome = true) (by decide +kernel)
    obtain ⟨w₂, hstep⟩ := Option.isSome_iff_exists.mp hnext
    have hbreaks := deregister_breaks exampleWorld_start h₁.of_guarded hstep hstage
    have hguarded : guarded WaitsForProd World.Step w₁ (.call .coordinator .usWest2 .ok) w₂ :=
      ⟨trivial, hstep⟩
    have hsafe := h _ _ _ _ _ exampleWorld_start h₁ (.cons hguarded (.nil w₂))
    exact hbreaks.2 (hsafe.1 _ _ hbreaks.1)
  have hexits : ¬ PublicationSafe (guarded KeepsImages World.Step) := by
    intro h
    obtain ⟨w₁, h₁, hexited, hno, hfile⟩ := exists_run_guarded
      (builderEvents .coordinator ++ builderEvents .nodeMain ++ exitEvents)
      (G := KeepsImages) (f := World.step) (s := exampleWorld)
      (P := fun w => w.main = .exited ∧ w.NoAbort ∧
        w.cloud.bucket (getAmiS3FileName .nodeProd .usWest2) = none) (by decide +kernel)
    obtain ⟨ami, -, hami, -⟩ := (h _ _ _ _ _ exampleWorld_start h₁ (.nil w₁)).2 hexited hno
      .nodeProd .usWest2
    rw [hfile] at hami
    cases hami
  exact ⟨fun h => hdeletes fun w₀ w₁ w₂ before after start h₁ h₂ =>
    h w₀ w₁ w₂ before after start h₁.of_guarded h₂.of_guarded, hdeletes, hexits⟩

end GexCloud.Ami
