import GexCloud.Support.Runs
import GexCloud.Support.Texts
import Mathlib.Data.Fintype.Basic
import Mathlib.Logic.Function.Basic

/-! # Publishing machine images: `main.rb` and its builders

`main.rb` starts three builder threads. Each of them installs an instance, makes an image of it in the
default region and starts one thread for every other region, which copies the image there. Every
region goes through `configure_ami`: read the old image id from a file in S3, deregister that image,
save the new id in the file, make the new image public.

* `Cloud` — the images registered in each region and the id files.
* `Cloud.call` — one remote call of `create_prime_ami`, `copy_ami` or `configure_ami` and its answer.
* `World.step` — one step of a builder, of a region thread or of the main thread. -/

namespace GexCloud.Ami

open Texts

/-! ## Regions, builders and id files -/

/-- The regions of `helper.rb`. -/
inductive Region
  | usWest2 | usEast1 | usEast2 | usWest1 | apNortheast2 | apSoutheast1 | apSoutheast2
  | apNortheast1 | euCentral1 | euWest1 | euWest2 | caCentral1 | apSouth1 | saEast1
  deriving DecidableEq

/-- The name of a region. -/
def Region.name : Region → Text
  | .usWest2 => "us-west-2".toList
  | .usEast1 => "us-east-1".toList
  | .usEast2 => "us-east-2".toList
  | .usWest1 => "us-west-1".toList
  | .apNortheast2 => "ap-northeast-2".toList
  | .apSoutheast1 => "ap-southeast-1".toList
  | .apSoutheast2 => "ap-southeast-2".toList
  | .apNortheast1 => "ap-northeast-1".toList
  | .euCentral1 => "eu-central-1".toList
  | .euWest1 => "eu-west-1".toList
  | .euWest2 => "eu-west-2".toList
  | .caCentral1 => "ca-central-1".toList
  | .apSouth1 => "ap-south-1".toList
  | .saEast1 => "sa-east-1".toList

/-- `DEFAULT_REGION`. -/
def defaultRegion : Region := .usWest2

/-- `AWS_REGIONS`: all regions except the default. -/
def awsRegions : List Region :=
  [.usEast1, .usEast2, .usWest1, .apNortheast2, .apSoutheast1, .apSoutheast2, .apNortheast1,
    .euCentral1, .euWest1, .euWest2, .caCentral1, .apSouth1, .saEast1]

/-- Every region is the default or one of the others. -/
theorem eq_defaultRegion_or_mem (r : Region) : r = defaultRegion ∨ r ∈ awsRegions := by
  cases r <;> decide

instance : Fintype Region where
  elems := ⟨(defaultRegion :: awsRegions : List Region), by decide⟩
  complete r := by cases r <;> decide

/-- The region of the builders is none of those that images are copied to. -/
theorem defaultRegion_not_mem : defaultRegion ∉ awsRegions := by decide

/-- The builder threads of `main.rb`, in the order they are started. -/
inductive Builder
  | coordinator | nodeMain | nodeProd
  deriving DecidableEq

instance : Fintype Builder where
  elems := ⟨([.coordinator, .nodeMain, .nodeProd] : List Builder), by decide⟩
  complete b := by cases b <;> decide

/-- The description `NodeAmi` starts with. -/
def nodeDescription (gexEnv : Text) : Text := gexEnv ++ "_node_ami".toList

/-- `set_hadoop_type`: the description with the type. -/
def setHadoopType (description hadoopType : Text) : Text := description ++ '_' :: hadoopType

/-- `@image_description` of a builder when it creates its images. -/
def Builder.imageDescription : Builder → Text
  | .coordinator => "coordinator_ami".toList
  | .nodeMain => setHadoopType (nodeDescription "main".toList) "cdh".toList
  | .nodeProd => setHadoopType (nodeDescription "prod".toList) "cdh".toList

/-- `AMI_S3_SUFFIX`. -/
def amiS3Suffix : Text := "_id.txt".toList

/-- `get_ami_s3_file_name`: the key of the id file. -/
def getAmiS3FileName (b : Builder) (r : Region) : Text :=
  r.name ++ '_' :: (b.imageDescription ++ amiS3Suffix)

/-- Regions are told by their names. -/
theorem Region.name_injective : Function.Injective Region.name := by
  intro r r'
  cases r <;> cases r' <;> decide

/-- Builders are told by the descriptions of their images. -/
theorem Builder.imageDescription_injective : Function.Injective Builder.imageDescription := by
  intro b b'
  cases b <;> cases b' <;> decide

/-- **No two builders and regions share an id file**: the region ends at the first underscore. -/
theorem getAmiS3FileName_inj {b b' : Builder} {r r' : Region}
    (h : getAmiS3FileName b r = getAmiS3FileName b' r') : b = b' ∧ r = r' := by
  have hname : ∀ r : Region, '_' ∉ r.name := fun r => by cases r <;> decide
  have hcut := congrArg (cut '_') h
  unfold getAmiS3FileName at hcut
  rw [cut_append (hname r), cut_append (hname r'), Prod.mk.injEq, Option.some.injEq,
    List.append_left_inj] at hcut
  exact ⟨Builder.imageDescription_injective hcut.2, Region.name_injective hcut.1⟩

/-! ## The cloud -/

/-- Who may launch an image. -/
inductive Visibility
  | owner | everyone
  deriving DecidableEq

/-- What AWS gives out as the id of an image. -/
def IsImageId (t : Text) : Prop := "ami-".toList <+: t

instance (t : Text) : Decidable (IsImageId t) := by unfold IsImageId; infer_instance

/-- The account at AWS: the images registered in each region, the ids given out so far and the
contents of the bucket `gex-ami-ids`. -/
structure Cloud where
  images : Region × Text → Option Visibility
  issued : List Text
  bucket : Text → Option Text

namespace Cloud

/-- `create_image` and `copy_image`: an image with a new id. -/
def register (c : Cloud) (r : Region) (ami : Text) : Cloud :=
  { c with images := Function.update c.images (r, ami) (some .owner), issued := ami :: c.issued }

/-- `deregister_image`. -/
def deregister (c : Cloud) (r : Region) (ami : Text) : Cloud :=
  { c with images := Function.update c.images (r, ami) none }

/-- `modify_image_attribute` with `'Add.Group' => ['all']`. -/
def share (c : Cloud) (r : Region) (ami : Text) : Cloud :=
  { c with images := Function.update c.images (r, ami) (some .everyone) }

/-- `save_ami_id`: the file is created, or replaced. -/
def saveAmiId (c : Cloud) (filename ami : Text) : Cloud :=
  { c with bucket := Function.update c.bucket filename (some ami) }

section

variable (c : Cloud) (r : Region) (ami : Text) {p : Region × Text}

/-- A new image is for its owner only. -/
@[simp] theorem register_images_self : (c.register r ami).images (r, ami) = some .owner :=
  Function.update_self ..

/-- The other images are as they were. -/
theorem register_images_of_ne (h : p ≠ (r, ami)) : (c.register r ami).images p = c.images p :=
  Function.update_of_ne h ..

/-- An image that is deregistered is gone. -/
@[simp] theorem deregister_images_self : (c.deregister r ami).images (r, ami) = none :=
  Function.update_self ..

/-- The other ones stay. -/
theorem deregister_images_of_ne (h : p ≠ (r, ami)) : (c.deregister r ami).images p = c.images p :=
  Function.update_of_ne h ..

/-- A shared image is for everyone. -/
@[simp] theorem share_images_self : (c.share r ami).images (r, ami) = some .everyone :=
  Function.update_self ..

/-- The other ones are as they were. -/
theorem share_images_of_ne (h : p ≠ (r, ami)) : (c.share r ami).images p = c.images p :=
  Function.update_of_ne h ..

/-- The id is in the file. -/
@[simp] theorem saveAmiId_bucket_self (filename : Text) :
    (c.saveAmiId filename ami).bucket filename = some ami :=
  Function.update_self ..

/-- Other files are as they were. -/
theorem saveAmiId_bucket_of_ne {filename key : Text} (h : key ≠ filename) :
    (c.saveAmiId filename ami).bucket key = c.bucket key :=
  Function.update_of_ne h ..

end

/-- The file of a builder and a region names a registered image. -/
def Names (c : Cloud) (b : Builder) (r : Region) : Prop :=
  ∃ ami, c.bucket (getAmiS3FileName b r) = some ami ∧ c.images (r, ami) ≠ none

end Cloud

/-! ## One region -/

/-- How far the work of one builder in one region has come: the remote call that is next. -/
inductive Stage
  | /-- The thread does not run yet. -/ waiting
  | /-- `create_prime_ami` or `copy_ami`. -/ imaging
  | /-- `get_last_image_id`. -/ reading (ami : Text)
  | /-- `delete_image`, of what was read. -/ deleting (ami : Text) (previous : Option Text)
  | /-- `save_ami_id`. -/ saving (ami : Text)
  | /-- `set_ami_public`. -/ publishing (ami : Text)
  | published (ami : Text)
  | /-- An exception ended the thread. -/ aborted
  deriving DecidableEq

/-- The next remote call is `deregister_image`. -/
def Stage.isDeleting : Stage → Bool
  | .deleting _ _ => true
  | _ => false

/-- The answer to a remote call. -/
inductive Answer
  | ok
  | image (ami : Text)
  | body (t : Text)
  | failed
  deriving DecidableEq

/-- **One remote call** for the images of a builder in a region, and what its answer leads to. -/
def Cloud.call (c : Cloud) (b : Builder) (r : Region) : Stage → Answer → Option (Stage × Cloud)
  | .imaging, .image ami =>
    if IsImageId ami ∧ ami ∉ c.issued then some (.reading ami, c.register r ami) else none
  | .imaging, .failed => some (.aborted, c)
  -- what the bucket answers without the file is no image id either
  | .reading ami, .body t =>
    if c.bucket (getAmiS3FileName b r) = some t ∨ ¬ IsImageId t then
      some (.deleting ami (some t), c)
    else none
  | .reading ami, .failed => some (.deleting ami none, c)
  | .deleting ami (some previous), .ok =>
    if c.images (r, previous) ≠ none then some (.saving ami, c.deregister r previous) else none
  -- logged and swallowed
  | .deleting ami _, .failed => some (.saving ami, c)
  | .saving ami, .ok => some (.publishing ami, c.saveAmiId (getAmiS3FileName b r) ami)
  | .saving _, .failed => some (.aborted, c)
  | .publishing ami, .ok =>
    if c.images (r, ami) ≠ none then some (.published ami, c.share r ami) else none
  -- tried again
  | .publishing ami, .failed => some (.publishing ami, c)
  | _, _ => none

/-! ## The threads -/

/-- How far a builder thread has come. -/
inductive BuilderStage
  | /-- Up to `create_amis`. -/ preparing
  | /-- `create_prime_ami` and `configure_ami` in the default region. -/ imaging
  | /-- The region threads run; `rest` is still to be joined, then `terminate`. -/
    joining (rest : List Region)
  | finished
  | aborted
  deriving DecidableEq

/-- How far the main thread has come. -/
inductive MainStage
  | joining (rest : List Builder)
  | exited
  | /-- A joined thread had aborted. -/ raised
  deriving DecidableEq

/-- The program and the cloud. -/
structure World where
  cloud : Cloud
  job : Builder × Region → Stage
  builder : Builder → BuilderStage
  main : MainStage

/-- What can happen next. -/
inductive Event
  | /-- `start`, `run_install` and what follows before `create_amis`. -/
    prepare (b : Builder) (ok : Bool)
  | call (b : Builder) (r : Region) (answer : Answer)
  | /-- The builder starts its region threads. -/ spawn (b : Builder)
  | /-- The builder joins the next region thread. -/ join (b : Builder)
  | terminate (b : Builder) (ok : Bool)
  | /-- `main.rb` joins the next builder. -/ mainJoin
  | exit
  deriving DecidableEq

/-- The builders that `main.rb` joins. -/
def joined : List Builder := [.coordinator, .nodeMain]

namespace World

/-- An exception ended the builder thread; the default region is its own work. -/
def BuilderAborted (w : World) (b : Builder) : Prop :=
  w.builder b = .aborted ∨ w.job (b, defaultRegion) = .aborted

instance (w : World) (b : Builder) : Decidable (w.BuilderAborted b) := by
  unfold BuilderAborted; infer_instance

/-- No thread was ended by an exception. -/
def NoAbort (w : World) : Prop := ∀ b, w.builder b ≠ .aborted ∧ ∀ r, w.job (b, r) ≠ .aborted

instance (w : World) : Decidable w.NoAbort := by unfold NoAbort; infer_instance

/-- The work of a builder in a region is done. -/
def Published (w : World) (b : Builder) (r : Region) : Prop := ∃ ami, w.job (b, r) = .published ami

instance (w : World) (b : Builder) (r : Region) : Decidable (w.Published b r) :=
  match h : w.job (b, r) with
  | .published ami => isTrue ⟨ami, h⟩
  | .waiting | .imaging | .reading _ | .deleting _ _ | .saving _ | .publishing _ | .aborted =>
    isFalse (by rintro ⟨ami, hjob⟩; simp [h] at hjob)

/-- **One step** of the program while `main.rb` has not ended, which would end every thread. -/
def step (w : World) : Event → Option World
  | .prepare b ok =>
    if w.main matches .joining _ ∧ w.builder b = .preparing then
      if ok then
        some { w with
          builder := Function.update w.builder b .imaging
          job := Function.update w.job (b, defaultRegion) .imaging }
      else some { w with builder := Function.update w.builder b .aborted }
    else none
  | .call b r answer =>
    if w.main matches .joining _ then
      (w.cloud.call b r (w.job (b, r)) answer).map fun (stage, cloud) =>
        { w with cloud := cloud, job := Function.update w.job (b, r) stage }
    else none
  | .spawn b =>
    match w.main, w.builder b, w.job (b, defaultRegion) with
    | .joining _, .imaging, .published _ =>
      some { w with
        builder := Function.update w.builder b (.joining awsRegions)
        job := fun j => if j.1 = b ∧ j.2 ∈ awsRegions then .imaging else w.job j }
    | _, _, _ => none
  | .join b =>
    match w.main, w.builder b with
    | .joining _, .joining (r :: rest) =>
      match w.job (b, r) with
      | .published _ => some { w with builder := Function.update w.builder b (.joining rest) }
      -- `join` raises what ended the region thread
      | .aborted => some { w with builder := Function.update w.builder b .aborted }
      | _ => none
    | _, _ => none
  | .terminate b ok =>
    match w.main, w.builder b with
    | .joining _, .joining [] =>
      some { w with builder := Function.update w.builder b (if ok then .finished else .aborted) }
    | _, _ => none
  | .mainJoin =>
    match w.main with
    | .joining (b :: rest) =>
      if w.builder b = .finished then some { w with main := .joining rest }
      else if w.BuilderAborted b then some { w with main := .raised }
      else none
    | _ => none
  | .exit =>
    match w.main with
    | .joining [] => some { w with main := .exited }
    | _ => none

/-- The steps as a relation. -/
def Step (w : World) (e : Event) (w' : World) : Prop := w.step e = some w'

/-- **A state in which `main.rb` starts**: whatever is registered has an id that was given out. -/
structure Start (w : World) : Prop where
  issued : ∀ r ami, w.cloud.images (r, ami) ≠ none → ami ∈ w.cloud.issued ∧ IsImageId ami
  job_eq : ∀ j, w.job j = .waiting
  builder_eq : ∀ b, w.builder b = .preparing
  main_eq : w.main = .joining joined

end World

end GexCloud.Ami
