import GexCloud.Base.Ruby
import GexCloud.Support.Decimal
import GexCloud.Support.Hosts

/-! # Publishing artifacts and finding them again

`deploy.rb` and `apptemplates/Rakefile` publish boxes, containers and Debian packages, each under a name
with the version in it and next to a version file whose name has no version. The clients read the
version file and put the name of the artifact together from it.

* `Publication`, `publish` — what the deploy functions publish.
* `Consumer` — the clients: which version file they ask for (`request`) and the name they end up with
  (`lookup`).
* `Ansible` — what `-e` makes of an argument, which the image builder relies on.
* `Careful` — which of them find the artifact.
* **`lookup_iff`** — a consumer of the version file of an artifact finds it exactly when it is careful. -/

namespace GexCloud.Deploy

open Texts

/-! ## Publishing -/

/-- What a deploy function publishes: an artifact, and a version file with these contents. The names are
the same in the bucket and on the servers. -/
structure Publication where
  object : Text
  versionFile : Text
  contents : Text

/-- The ending of the name of a version file. -/
def versionSuffix : Text := "-version.txt".toList

/-- The two lines behind the version. -/
def sizeAndChecksum (size checksum : Nat) : Text :=
  "size=".toList ++ (decimal size ++ '\n' :: ("checksum=".toList ++ decimal checksum))

/-- `create_version_file`: what the three `echo` leave in the file. -/
def createVersionFile (version : Text) (size checksum : Nat) : Text :=
  "version=".toList ++ (version ++ '\n' :: (sizeAndChecksum size checksum ++ ['\n']))

/-- `deploy_single_box_to_server`. -/
def deploySingleBoxToServer (VERSION boxFileName : Text) (size checksum : Nat) : Publication where
  object := "gex-".toList ++ (VERSION ++ '-' :: boxFileName)
  versionFile := (sub ".box".toList versionSuffix boxFileName).getD boxFileName
  contents := createVersionFile VERSION size checksum

/-- `deploy_container`; the name of the artifact has the constant, not the argument. -/
def deployContainer (VERSION appname version : Text) (size checksum : Nat) : Publication where
  object := "gex-".toList ++ (appname ++ '-' :: (VERSION ++ ".tar".toList))
  versionFile := appname ++ versionSuffix
  contents := createVersionFile version size checksum

/-- `deploy_deb_to_server`; a name without `_` has no index to cut at. -/
def deployDebToServer (debFileName : Text) (size checksum : Nat) : Option Publication :=
  match cut '_' debFileName with
  | (_, none) => none
  | (first, some rest) => some
    { object := debFileName
      versionFile := first ++ versionSuffix
      contents := createVersionFile (rest.take (rest.length - ".deb".length)) size checksum }

/-- What is published: a box, the container of an application, a Debian package. -/
inductive Artifact
  | box (name : Text)
  | container (appname : Text)
  | deb (package : Text)

/-- The deploy function of an artifact, as its callers call it. -/
def publish (VERSION : Text) (size checksum : Nat) : Artifact → Option Publication
  | .box name => some (deploySingleBoxToServer VERSION (name ++ ".box".toList) size checksum)
  | .container appname => some (deployContainer VERSION appname VERSION size checksum)
  | .deb package => deployDebToServer (package ++ '_' :: (VERSION ++ ".deb".toList)) size checksum

/-! ## The scripts on a host: `edit_utils.rb` and `docker_utils.rb` -/

/-- `get_version_from_file`. A first line without the key ends the script, since `nil >= 0` raises; so
there is never a second round of the loop. -/
def getVersionFromFile (fileContents : Text) : Except RubyError (Option Text) :=
  match lines fileContents with
  | [] => .ok none
  | line :: _ =>
    let cleaned := line.filter (· ≠ ' ')
    if "version=".toList <:+: cleaned then .ok (slice "version=".length (cleaned.length - 1) cleaned)
    else .error .noMethodError

/-- `deb_file_name`. -/
def debFileName (version : Text) : Text := "gexnode_".toList ++ (version ++ ".deb".toList)

/-- `container_file_name`. -/
def containerFileName (appName version : Text) : Text :=
  "gex-".toList ++ (appName ++ '-' :: (version ++ ".tar".toList))

/-- `box_file_name`. -/
def boxFileName (boxName version : Text) : Text :=
  "gex-".toList ++ (version ++ '-' :: (boxName ++ ".box".toList))

/-! ## The synchronisation with the buckets: `aws_sync.rb`, `sync_box.rb` and `sync_container.rb` -/

/-- `case file_name when /name/ …`: the first of the names that occurs in the text. -/
def caseName (names : List Text) (text : Text) : Option Text := names.find? fun name => decide (name <:+: text)

/-- The containers that `aws_sync.rb` knows. -/
def clientNames : List Text :=
  ["hue_cdh".toList, "hue_plain".toList, "hadoop_cdh_client".toList, "hadoop_plain_client".toList]

/-- The boxes that `aws_sync.rb` and `sync_box.rb` know. -/
def boxNames : List Text := ["cdh".toList, "plain".toList, "master".toList]

/-- The containers that `sync_container.rb` knows. -/
def containerNames : List Text := clientNames ++ ["hadoop_cdh_master".toList, "hadoop_plain_master".toList]

/-- `parse_version_file`: the version file and the suffix. It raises for a name that it does not know. -/
def parseVersionFile (fileName : Text) : Option (Text × Text) :=
  if ".tar".toList <:+: fileName then
    (caseName clientNames fileName).map fun suffix => (suffix ++ versionSuffix, suffix ++ ".tar".toList)
  else if ".box".toList <:+: fileName then
    (caseName boxNames fileName).map fun suffix => (suffix ++ versionSuffix, suffix ++ ".box".toList)
  else none

/-- `str.split(/\r?\n/)`: a carriage return in front of a newline goes, and so do empty pieces at the
end. -/
def splitLines (str : Text) : List Text :=
  let pieces := str.splitOn '\n'
  let ended := pieces.dropLast.map fun piece =>
    if piece.getLast? = some '\r' then piece.dropLast else piece
  (ended ++ pieces.getLast?.toList).rdropWhile List.isEmpty

/-- `get_version`, from the body of the answer; `none` when there is no line. -/
def getVersion (str : Text) : Option Text := (splitLines str).head?.map (substitute "version=".toList [])

/-- `get_filename`. -/
def getFilename (version suffix : Text) : Text := "gex-".toList ++ (version ++ '-' :: suffix)

/-- `parse_box_version_file`. It raises for a name that it does not know. -/
def parseBoxVersionFile (fileName : Text) : Option Text := (caseName boxNames fileName).map (· ++ versionSuffix)

/-- `get_box_name`, with the version read. There is no case for `master`. -/
def getBoxName (versionFile version : Text) : Text :=
  match caseName ["cdh".toList, "plain".toList] versionFile with
  | some name => "gex-".toList ++ (version ++ '-' :: (name ++ ".box".toList))
  | none => []

/-- `parse_container_version_file`. It raises for a name that it does not know. -/
def parseContainerVersionFile (fileName : Text) : Option Text :=
  (caseName containerNames fileName).map (· ++ versionSuffix)

/-- `get_container_name`, with the version read. -/
def getContainerName (versionFile version : Text) : Text :=
  match caseName containerNames versionFile with
  | some name => "gex-".toList ++ (name ++ '-' :: (version ++ ".tar".toList))
  | none => []

/-! ## The builder of images: `node_ami.rb` -/

/-- The characters between words. -/
def isSeparator (c : Char) : Bool := c == ' ' || c == '\n'

/-- The version that `custom_upload` and `child_hook` take out of a version file. -/
def packageVersion (body : Text) : Text :=
  let version := strip body
  (sub "version=".toList [] version).getD version

/-- The package that `custom_upload` downloads: the shell ends the address at the first blank or newline. -/
def customUpload (body : Text) : Text :=
  "gex-baremetal-aws_".toList ++ (packageVersion body ++ ".deb".toList).takeWhile fun c => !isSeparator c

/-- The characters of a version. -/
def isVersionChar (c : Char) : Bool := c.isAlphanum || c == '.' || c == '_' || c == '-'

/-- A version is made of letters, digits, `.`, `_` and `-`. -/
def IsVersion (VERSION : Text) : Prop := ∀ c ∈ VERSION, isVersionChar c = true

/-- A name of a variable, of letters and `_`. -/
def IsVariable (name : Text) : Prop := name ≠ [] ∧ ∀ c ∈ name, c.isAlpha = true ∨ c = '_'

instance (name : Text) : Decidable (IsVariable name) :=
  decidable_of_iff (name ≠ [] ∧ name.all (fun c => c.isAlpha || c == '_') = true) (by
    simp [IsVariable, List.all_eq_true])

/-- `ansible-playbook -e`: the value that an argument gives a variable. -/
structure Ansible where
  /-- The value, if there is one. -/
  extraVar : Text → Text → Option Text
  /-- An argument of words `key=value` gives each key the value of its last word, when nothing in it needs to be
  quoted. -/
  extraVar_eq : ∀ (argument : Text) (assignments : List (Text × Text)),
    Hosts.wordsBy isSeparator argument = assignments.map (fun a => a.1 ++ '=' :: a.2) →
    (∀ a ∈ assignments, IsVariable a.1 ∧ IsVersion a.2) →
    ∀ name, extraVar argument name = assignments.reverse.lookup name

/-- The argument that `ansible_provision` puts together. -/
def ansibleEnv (env : List (Text × Text)) : Text := [' '].intercalate (env.map fun a => a.1 ++ '=' :: a.2)

/-- The `test` of `child_hook`. -/
def childHookTest (gexEnv : Text) : Text := if gexEnv = "main".toList then "-test".toList else []

/-- `GEXD_DEB.fetch(…)`: the repository and the package. It raises for another key. -/
def gexdDeb (gexEnv : Text) : Option (Text × Text) :=
  if gexEnv = "main".toList then some ("khotkevych".toList, "gexservertest".toList)
  else if gexEnv = "prod".toList then some ("gex".toList, "gexserver".toList)
  else none

/-- The values of `@hadoop_type`. -/
inductive HadoopType
  | cdh
  | plain

/-- The text of `@hadoop_type`, which may be nil. -/
def hadoopTypeText : Option HadoopType → Text
  | some .cdh => "cdh".toList
  | some .plain => "plain".toList
  | none => []

/-- What `child_hook` hands to `ansible_provision`. -/
def childHookEnv (gexEnv : Text) (hadoopType : Option HadoopType) (gexd : Text × Text) (version : Text) :
    List (Text × Text) :=
  [("version".toList, version), ("test".toList, childHookTest gexEnv),
    ("hadoop_type".toList, hadoopTypeText hadoopType), ("gexd_repo".toList, gexd.1),
    ("lsb_release".toList, "xenial".toList), ("gexd_package".toList, gexd.2)]

/-- The package that the playbook of `child_hook` downloads, from the variables `test` and `version`. -/
def childHook (ansible : Ansible) (gexEnv : Text) (hadoopType : Option HadoopType) (body : Text) : Option Text := do
  let gexd ← gexdDeb gexEnv
  let argument := ansibleEnv (childHookEnv gexEnv hadoopType gexd (packageVersion body))
  let test ← ansible.extraVar argument "test".toList
  let version ← ansible.extraVar argument "version".toList
  return "gex-baremetal-aws".toList ++ (test ++ '_' :: (version ++ ".deb".toList))

/-! ## The consumers of version files -/

/-- The buckets, which are directories on the servers. -/
inductive Bucket
  | boxes
  | containers
  | debian
  deriving DecidableEq

/-- Where an artifact is published. -/
def Artifact.bucket : Artifact → Bucket
  | .box _ => .boxes
  | .container _ => .containers
  | .deb _ => .debian

/-- The consumers: `get_version_from_file` with one of the names, `get_version` with one of its, and
the image builder. -/
inductive Consumer
  | boxFileName (boxName : Text)
  | containerFileName (appName : Text)
  | debFileName
  | getFilename (fileName : Text)
  | getBoxName (fileName : Text)
  | getContainerName (fileName : Text)
  | customUpload
  | childHook (gexEnv : Text) (hadoopType : Option HadoopType)

/-- The version file a consumer reads. -/
def request : Consumer → Option (Bucket × Text)
  | .boxFileName boxName => some (.boxes, boxName ++ versionSuffix)
  | .containerFileName appName => some (.containers, appName ++ versionSuffix)
  | .debFileName => some (.debian, "gexnode".toList ++ versionSuffix)
  | .getFilename fileName => (parseVersionFile fileName).map fun (versionFile, _) =>
      (if ".tar".toList <:+: fileName then .containers else .boxes, versionFile)
  | .getBoxName fileName => (parseBoxVersionFile fileName).map fun versionFile => (.boxes, versionFile)
  | .getContainerName fileName =>
    (parseContainerVersionFile fileName).map fun versionFile => (.containers, versionFile)
  | .customUpload => some (.debian, "gex-baremetal-aws".toList ++ versionSuffix)
  | .childHook gexEnv _ => some (.debian, "gex-baremetal-aws".toList ++ (childHookTest gexEnv ++ versionSuffix))

/-- The name a consumer puts together from the contents of the version file; `none` when it is cut
short. -/
def lookup (ansible : Ansible) (contents : Text) : Consumer → Option Text
  | .boxFileName boxName => (getVersionFromFile contents).toOption.join.map (Deploy.boxFileName boxName)
  | .containerFileName appName =>
    (getVersionFromFile contents).toOption.join.map (Deploy.containerFileName appName)
  | .debFileName => (getVersionFromFile contents).toOption.join.map Deploy.debFileName
  | .getFilename fileName => do
    let (_, suffix) ← parseVersionFile fileName
    let version ← getVersion contents
    return Deploy.getFilename version suffix
  | .getBoxName fileName => do
    let versionFile ← parseBoxVersionFile fileName
    let version ← getVersion contents
    return Deploy.getBoxName versionFile version
  | .getContainerName fileName => do
    let versionFile ← parseContainerVersionFile fileName
    let version ← getVersion contents
    return Deploy.getContainerName versionFile version
  | .customUpload => some (Deploy.customUpload contents)
  | .childHook gexEnv hadoopType => Deploy.childHook ansible gexEnv hadoopType contents

/-- **Which consumers find an artifact.** `get_filename` finds a container when the version is its name,
or its name several times with `-` between; `get_box_name` finds every box but `master`; `custom_upload` finds
nothing, and `child_hook` its package in an environment that it knows. -/
def Careful (VERSION : Text) : Artifact → Consumer → Prop
  | .container appname, .getFilename _ => ∀ piece ∈ VERSION.splitOn '-', piece = appname
  | .box name, .getBoxName _ => name ≠ "master".toList
  | _, .customUpload => False
  | _, .childHook gexEnv _ => gexEnv = "main".toList ∨ gexEnv = "prod".toList
  | _, _ => True

/-! ## What the names and versions are made of -/

/-- The names of artifacts: a box has no `.box` in its name, a package no `_`. -/
def Artifact.Named : Artifact → Prop
  | .box name => ¬ ".box".toList <:+: name
  | .container _ => True
  | .deb package => '_' ∉ package

instance (VERSION : Text) : Decidable (IsVersion VERSION) :=
  decidable_of_iff (VERSION.all isVersionChar = true) List.all_eq_true

instance (artifact : Artifact) : Decidable artifact.Named := by
  cases artifact <;> unfold Artifact.Named <;> infer_instance

variable {VERSION : Text} {size checksum : Nat}

/-- What is no character of a version is not in one. -/
theorem IsVersion.not_mem (h : IsVersion VERSION) {c : Char} (hc : isVersionChar c = false) : c ∉ VERSION := by
  intro hmem
  rw [h c hmem] at hc
  cases hc

/-- A version is one word. -/
theorem IsVersion.isSeparator_eq_false (h : IsVersion VERSION) {c : Char} (hc : c ∈ VERSION) :
    isSeparator c = false := by
  by_contra hsep
  rw [Bool.not_eq_false, isSeparator, Bool.or_eq_true, beq_iff_eq, beq_iff_eq] at hsep
  rcases hsep with rfl | rfl
  · exact h.not_mem (by decide) hc
  · exact h.not_mem (by decide) hc

/-- Digits are a version. -/
theorem isVersion_decimal (n : Nat) : IsVersion (decimal n) := fun c hc => by
  have hdigit := isDigit_of_mem_decimal hc
  simp [isVersionChar, Char.isAlphanum, hdigit]

/-! ## The version file is read -/

/-- The first line of a version file, without its newline. -/
def versionLine (version : Text) : Text := "version=".toList ++ version

/-- A version file is this line and two more. -/
theorem createVersionFile_eq : createVersionFile VERSION size checksum =
    versionLine VERSION ++ '\n' :: (sizeAndChecksum size checksum ++ ['\n']) :=
  (List.append_assoc "version=".toList VERSION _).symm

/-- What is in neither the key nor the version is not in the line. -/
theorem not_mem_versionLine (hV : IsVersion VERSION) {c : Char} (hkey : c ∉ "version=".toList)
    (hc : isVersionChar c = false) : c ∉ versionLine VERSION := by
  intro hmem
  rcases List.mem_append.mp hmem with hmem | hmem
  · exact hkey hmem
  · exact hV.not_mem hc hmem

/-- There are no spaces to delete. -/
theorem filter_versionLine (hV : IsVersion VERSION) :
    (versionLine VERSION ++ ['\n']).filter (· ≠ ' ') = versionLine VERSION ++ ['\n'] := by
  rw [List.filter_eq_self]
  intro c hc
  rw [decide_eq_true_eq]
  rintro rfl
  rcases List.mem_append.mp hc with hc | hc
  · exact not_mem_versionLine hV (by decide) (by decide) hc
  · exact absurd hc (by decide)

/-- The version stands between the key and the newline. -/
theorem slice_versionLine : slice "version=".length ((versionLine VERSION ++ ['\n']).length - 1)
    (versionLine VERSION ++ ['\n']) = some VERSION := by
  refine slice_between String.length_toList.symm ?_
  rw [List.length_append, List.length_singleton, Nat.add_sub_cancel]
  rfl

/-- The line scan finds the version. -/
theorem getVersionFromFile_createVersionFile (hV : IsVersion VERSION) :
    getVersionFromFile (createVersionFile VERSION size checksum) = .ok (some VERSION) := by
  have hlines := lines_append_newline_cons (not_mem_versionLine hV (c := '\n') (by decide) (by decide))
    (sizeAndChecksum size checksum ++ ['\n'])
  have hinfix : "version=".toList <:+: versionLine VERSION ++ ['\n'] :=
    ((List.prefix_append _ VERSION).trans (List.prefix_append _ _)).isInfix
  rw [getVersionFromFile, createVersionFile_eq, hlines]
  simp only [filter_versionLine hV, if_pos hinfix, slice_versionLine]

/-- What is dropped behind does not reach an element that stays. -/
theorem head?_rdropWhile_cons {α : Type} {p : α → Bool} {x : α} {l : List α} (hx : p x = false) :
    ((x :: l).rdropWhile p).head? = some x := by
  induction l using List.reverseRecOn with
  | nil => rw [← List.nil_append [x], List.rdropWhile_concat_neg _ _ _ (by simp [hx])]; rfl
  | append_singleton l y ih =>
    rw [← List.cons_append]
    by_cases hy : p y = true
    · rwa [List.rdropWhile_concat_pos _ _ _ hy]
    · rw [List.rdropWhile_concat_neg _ _ _ hy]
      rfl

/-- Splitting the lines finds the line of the version. -/
theorem head?_splitLines (hV : IsVersion VERSION) :
    (splitLines (createVersionFile VERSION size checksum)).head? = some (versionLine VERSION) := by
  have hnewline : '\n' ∉ versionLine VERSION := not_mem_versionLine hV (by decide) (by decide)
  have hreturn : (versionLine VERSION).getLast? ≠ some '\r' := fun hlast =>
    not_mem_versionLine hV (by decide) (by decide) (List.mem_of_getLast? hlast)
  rw [splitLines, createVersionFile_eq, List.splitOn_append_cons_self, List.splitOn_eq_singleton hnewline,
    List.singleton_append, List.dropLast_cons_of_ne_nil (List.splitOn_ne_nil _ _)]
  simp only [List.map_cons, if_neg hreturn, List.cons_append]
  exact head?_rdropWhile_cons rfl

/-- Splitting the lines finds the version. -/
theorem getVersion_createVersionFile (hV : IsVersion VERSION) :
    getVersion (createVersionFile VERSION size checksum) = some VERSION := by
  rw [getVersion, head?_splitLines hV, Option.map_some]
  exact congrArg some (substitute_front (d := '=') (by decide) (hV.not_mem (by decide)))

/-- The digits of the checksum come last. -/
theorem checksum_suffix : decimal checksum <:+ '\n' :: sizeAndChecksum size checksum :=
  calc decimal checksum <:+ "checksum=".toList ++ decimal checksum := List.suffix_append _ _
    _ <:+ '\n' :: ("checksum=".toList ++ decimal checksum) := List.suffix_cons _ _
    _ <:+ decimal size ++ '\n' :: ("checksum=".toList ++ decimal checksum) := List.suffix_append _ _
    _ <:+ sizeAndChecksum size checksum := List.suffix_append "size=".toList _
    _ <:+ '\n' :: sizeAndChecksum size checksum := List.suffix_cons _ _

/-- A version file starts with a letter and, but for the newline, ends with a digit. -/
theorem strip_createVersionFile : strip (createVersionFile VERSION size checksum) =
    versionLine VERSION ++ '\n' :: sizeAndChecksum size checksum := by
  have hfile : createVersionFile VERSION size checksum =
      versionLine VERSION ++ '\n' :: sizeAndChecksum size checksum ++ ['\n'] := by
    rw [createVersionFile_eq, List.append_assoc, List.cons_append]
  have hlast : (versionLine VERSION ++ '\n' :: sizeAndChecksum size checksum).getLast? =
      (decimal checksum).getLast? :=
    getLast?_eq_of_suffix List.suffix_rfl (checksum_suffix.trans (List.suffix_append (versionLine VERSION) _))
      (by simp) (decimal_ne_nil checksum)
  rw [strip, hfile]
  refine stripBy_append_of_ends ?_ ?_ rfl
  · intro c hc
    obtain rfl : 'v' = c := Option.some.inj hc
    rfl
  · intro c hc
    rw [hlast] at hc
    exact isSpace_of_isDigit (isDigit_of_mem_decimal (List.mem_of_getLast? hc))

/-- The image builder takes the version with the two lines behind it. -/
theorem packageVersion_createVersionFile : packageVersion (createVersionFile VERSION size checksum) =
    VERSION ++ '\n' :: sizeAndChecksum size checksum := by
  have hcut : sub "version=".toList [] (versionLine VERSION ++ '\n' :: sizeAndChecksum size checksum) =
      some (VERSION ++ '\n' :: sizeAndChecksum size checksum) := by
    have happend := List.append_assoc "version=".toList VERSION ('\n' :: sizeAndChecksum size checksum)
    exact (congrArg _ happend).trans (sub_front (by decide))
  rw [packageVersion, strip_createVersionFile, hcut, Option.getD_some]

/-! ## Names are cut where they were put together -/

/-- The first of the names that occurs is one of them. -/
theorem mem_of_caseName {names : List Text} {text name : Text} (h : caseName names text = some name) :
    name ∈ names := List.mem_of_find?_eq_some h

/-- The name without version and ending. -/
def Artifact.name : Artifact → Text
  | .box name => name
  | .container appname => appname
  | .deb package => package

/-- The name that is published. -/
def Artifact.object (VERSION : Text) : Artifact → Text
  | .box name => boxFileName name VERSION
  | .container appname => containerFileName appname VERSION
  | .deb package => package ++ '_' :: (VERSION ++ ".deb".toList)

/-- **What is published for an artifact**: the name with the version, and a version file whose name is
cut back to the name of the artifact. -/
theorem publish_eq {artifact : Artifact} (h : artifact.Named) :
    publish VERSION size checksum artifact = some
      { object := artifact.object VERSION
        versionFile := artifact.name ++ versionSuffix
        contents := createVersionFile VERSION size checksum } := by
  cases artifact with
  | box name =>
    have hsub : sub ".box".toList versionSuffix (name ++ ".box".toList) = some (name ++ versionSuffix) :=
      sub_append (by decide) h
    rw [publish]
    unfold deploySingleBoxToServer
    rw [hsub, Option.getD_some]
    rfl
  | container appname => rfl
  | deb package =>
    have hlength : (VERSION ++ ".deb".toList).length - ".deb".length = VERSION.length := by
      rw [List.length_append, String.length_toList, Nat.add_sub_cancel]
    rw [publish]
    unfold deployDebToServer
    rw [cut_append h]
    simp only [hlength, List.take_left]
    rfl

/-- A list with one more element at the end is the list with it in front when all elements are this one. -/
theorem append_singleton_eq_cons_iff {α : Type} {l : List α} {x : α} :
    l ++ [x] = x :: l ↔ ∀ y ∈ l, y = x := by
  induction l with
  | nil => simp
  | cons y l ih =>
    rw [List.cons_append, List.cons.injEq, List.forall_mem_cons]
    constructor
    · rintro ⟨rfl, h⟩
      exact ⟨rfl, ih.mp h⟩
    · rintro ⟨rfl, h⟩
      exact ⟨rfl, ih.mpr h⟩

/-- Version and name in the other order are the same text when the version is made of names. -/
theorem append_comm_iff {name : Text} (h : '-' ∉ name) :
    VERSION ++ '-' :: name = name ++ '-' :: VERSION ↔ ∀ piece ∈ VERSION.splitOn '-', piece = name := by
  have hsplit : (VERSION ++ '-' :: name).splitOn '-' = VERSION.splitOn '-' ++ [name] := by
    rw [List.splitOn_append_cons_self, List.splitOn_eq_singleton h]
  have hsplit' : (name ++ '-' :: VERSION).splitOn '-' = name :: VERSION.splitOn '-' := by
    rw [List.splitOn_append_cons_self, List.splitOn_eq_singleton h, List.singleton_append]
  rw [← append_singleton_eq_cons_iff, ← hsplit, ← hsplit']
  constructor
  · intro heq
    rw [heq]
  · intro heq
    have hjoin : ['-'].intercalate ((VERSION ++ '-' :: name).splitOn '-') = VERSION ++ '-' :: name :=
      List.intercalate_splitOn '-'
    rw [← hjoin, heq, List.intercalate_splitOn]

/-- Version and name change places. -/
theorem exchange_iff {first name ending : Text} (h : '-' ∉ name) :
    first ++ (VERSION ++ '-' :: (name ++ ending)) = first ++ (name ++ '-' :: (VERSION ++ ending)) ↔
      ∀ piece ∈ VERSION.splitOn '-', piece = name := by
  have hassoc (x y : Text) : x ++ '-' :: (y ++ ending) = x ++ '-' :: y ++ ending := by
    rw [List.append_assoc, List.cons_append]
  rw [List.append_cancel_left_eq, hassoc, hassoc, List.append_cancel_right_eq, append_comm_iff h]

/-! ## Which consumers find an artifact -/

/-- The names that `aws_sync.rb` knows for containers have no `-`. -/
theorem not_mem_of_mem_clientNames {name : Text} (h : name ∈ clientNames) : '-' ∉ name := by
  revert name
  decide

/-- What `parse_version_file` finds: a name it knows, with the ending of its kind. -/
theorem parseVersionFile_eq_some {fileName versionFile suffix : Text}
    (h : parseVersionFile fileName = some (versionFile, suffix)) :
    (".tar".toList <:+: fileName ∧ ∃ name ∈ clientNames, versionFile = name ++ versionSuffix ∧
      suffix = name ++ ".tar".toList) ∨
    (¬ ".tar".toList <:+: fileName ∧ ∃ name ∈ boxNames, versionFile = name ++ versionSuffix ∧
      suffix = name ++ ".box".toList) := by
  rw [parseVersionFile] at h
  split at h
  · obtain ⟨name, hname, heq⟩ := Option.map_eq_some_iff.mp h
    obtain ⟨rfl, rfl⟩ := Prod.mk.inj heq
    exact .inl ⟨‹_›, name, mem_of_caseName hname, rfl, rfl⟩
  · split at h
    · obtain ⟨name, hname, heq⟩ := Option.map_eq_some_iff.mp h
      obtain ⟨rfl, rfl⟩ := Prod.mk.inj heq
      exact .inr ⟨‹_›, name, mem_of_caseName hname, rfl, rfl⟩
    · cases h

/-- `get_box_name` knows every box but `master`. -/
theorem getBoxName_iff {name : Text} (h : name ∈ boxNames) :
    getBoxName (name ++ versionSuffix) VERSION = boxFileName name VERSION ↔ name ≠ "master".toList := by
  have hknown : ∀ name ∈ boxNames, name ≠ "master".toList →
      caseName ["cdh".toList, "plain".toList] (name ++ versionSuffix) = some name := by decide
  constructor
  · rintro heq rfl
    cases heq
  · intro hmaster
    unfold getBoxName
    rw [hknown name h hmaster]
    rfl

/-- `get_container_name` knows every container. -/
theorem getContainerName_eq {name : Text} (h : name ∈ containerNames) :
    getContainerName (name ++ versionSuffix) VERSION = containerFileName name VERSION := by
  have hknown : ∀ name ∈ containerNames, caseName containerNames (name ++ versionSuffix) = some name := by
    decide
  unfold getContainerName
  rw [hknown name h]
  rfl

/-- `deb_file_name` is for one package. -/
theorem debFileName_iff {package : Text} :
    debFileName VERSION = (Artifact.deb package).object VERSION ↔ package = "gexnode".toList := by
  have hgexnode : debFileName VERSION = "gexnode".toList ++ '_' :: (VERSION ++ ".deb".toList) := rfl
  rw [hgexnode, Artifact.object, List.append_left_inj]
  exact eq_comm

/-- `custom_upload` finds no package: the address ends before the ending of its name. -/
theorem customUpload_ne (hV : IsVersion VERSION) : customUpload (createVersionFile VERSION size checksum) ≠
    "gex-baremetal-aws".toList ++ '_' :: (VERSION ++ ".deb".toList) := by
  have hsolid : ∀ c ∈ VERSION, (!isSeparator c) = true := fun c hc => by
    rw [hV.isSeparator_eq_false hc]
    rfl
  have hrest : ('\n' :: (sizeAndChecksum size checksum ++ ".deb".toList)).takeWhile (fun c => !isSeparator c) =
      [] := List.takeWhile_cons_of_neg (by decide)
  have hword : (VERSION ++ '\n' :: sizeAndChecksum size checksum ++ ".deb".toList).takeWhile
      (fun c => !isSeparator c) = VERSION := by
    rw [List.append_assoc, List.cons_append, List.takeWhile_append_of_pos hsolid, hrest]
    exact List.append_nil VERSION
  have hkey : "gex-baremetal-aws_".toList = "gex-baremetal-aws".toList ++ ['_'] := by decide
  unfold customUpload
  rw [packageVersion_createVersionFile, hword, hkey, List.append_assoc "gex-baremetal-aws".toList]
  intro h
  have hversion : VERSION = VERSION ++ ".deb".toList := List.tail_eq_of_cons_eq (List.append_cancel_left h)
  exact absurd (List.self_eq_append_right.mp hversion) (by decide)

/-- The environments that `GEXD_DEB` knows. -/
theorem gexdDeb_isSome_iff {gexEnv : Text} :
    (gexdDeb gexEnv).isSome = true ↔ gexEnv = "main".toList ∨ gexEnv = "prod".toList := by
  unfold gexdDeb
  split
  · exact iff_of_true rfl (.inl ‹_›)
  · split
    · exact iff_of_true rfl (.inr ‹_›)
    · exact iff_of_false (by simp) (by simp only [not_or]; exact ⟨‹_›, ‹_›⟩)

/-- The values of `GEXD_DEB` need no quotes. -/
theorem isVersion_of_gexdDeb {gexEnv : Text} {gexd : Text × Text} (h : gexdDeb gexEnv = some gexd) :
    IsVersion gexd.1 ∧ IsVersion gexd.2 := by
  unfold gexdDeb at h
  split at h
  · rw [← Option.some.inj h]
    decide
  · split at h
    · rw [← Option.some.inj h]
      decide
    · cases h

/-- A variable and its value are one word. -/
theorem wordsBy_assignment {name value : Text} (hname : IsVersion name) (hvalue : IsVersion value) :
    Hosts.wordsBy isSeparator (name ++ '=' :: value) = [name ++ '=' :: value] := by
  rw [Hosts.wordsBy_of_forall, if_neg (by simp)]
  intro c hc
  rcases List.mem_append.mp hc with hc | hc
  · exact hname.isSeparator_eq_false hc
  · rcases List.mem_cons.mp hc with rfl | hc
    · rfl
    · exact hvalue.isSeparator_eq_false hc

/-- The playbook of `child_hook` finds its package. -/
theorem childHook_eq (ansible : Ansible) (hV : IsVersion VERSION) {gexEnv : Text} {gexd : Text × Text}
    (h : gexdDeb gexEnv = some gexd) (hadoopType : Option HadoopType) :
    childHook ansible gexEnv hadoopType (createVersionFile VERSION size checksum) =
      some (("gex-baremetal-aws".toList ++ childHookTest gexEnv) ++ '_' :: (VERSION ++ ".deb".toList)) := by
  have hgexd := isVersion_of_gexdDeb h
  have htest : IsVersion (childHookTest gexEnv) := by
    unfold childHookTest
    split <;> decide
  have htype : IsVersion (hadoopTypeText hadoopType) := by
    cases hadoopType with
    | none => decide
    | some type => cases type <;> decide
  have hvar := ansible.extraVar_eq (ansibleEnv (childHookEnv gexEnv hadoopType gexd
      (VERSION ++ '\n' :: sizeAndChecksum size checksum)))
    [("version".toList, VERSION), ("size".toList, decimal size), ("checksum".toList, decimal checksum),
      ("test".toList, childHookTest gexEnv), ("hadoop_type".toList, hadoopTypeText hadoopType),
      ("gexd_repo".toList, gexd.1), ("lsb_release".toList, "xenial".toList), ("gexd_package".toList, gexd.2)]
    ?_ ?_
  · rw [childHook, h, packageVersion_createVersionFile]
    simp only [Option.bind_eq_bind, Option.bind_some]
    rw [hvar, hvar]
    rfl
  · have hfile : "version".toList ++ '=' :: (VERSION ++ '\n' :: sizeAndChecksum size checksum) =
        ("version".toList ++ '=' :: VERSION) ++ '\n' :: (("size".toList ++ '=' :: decimal size) ++
          '\n' :: ("checksum".toList ++ '=' :: decimal checksum)) := by
      simp [sizeAndChecksum]
    rw [ansibleEnv, Hosts.wordsBy_intercalate rfl]
    simp only [childHookEnv, List.map_cons, List.map_nil, List.flatMap_cons, List.flatMap_nil, hfile,
      @Hosts.wordsBy_append_cons isSeparator _ _ '\n' rfl]
    rw [wordsBy_assignment (by decide) hV, wordsBy_assignment (by decide) (isVersion_decimal size),
      wordsBy_assignment (by decide) (isVersion_decimal checksum), wordsBy_assignment (by decide) htest,
      wordsBy_assignment (by decide) htype, wordsBy_assignment (by decide) hgexd.1,
      wordsBy_assignment (by decide) (by decide), wordsBy_assignment (by decide) hgexd.2]
    rfl
  · simp only [List.forall_mem_cons]
    exact ⟨⟨by decide, hV⟩, ⟨by decide, isVersion_decimal size⟩, ⟨by decide, isVersion_decimal checksum⟩,
      ⟨by decide, htest⟩, ⟨by decide, htype⟩, ⟨by decide, hgexd.1⟩, ⟨by decide, by decide⟩,
      ⟨by decide, hgexd.2⟩, List.forall_mem_nil _⟩

/-- A consumer that scans the lines reads the version. -/
theorem toOption_getVersionFromFile (hV : IsVersion VERSION) :
    (getVersionFromFile (createVersionFile VERSION size checksum)).toOption.join = some VERSION := by
  rw [getVersionFromFile_createVersionFile hV]
  rfl

section

variable {artifact : Artifact} (ansible : Ansible)

/-- `get_version_from_file` and `box_file_name` find the box that is published. -/
theorem lookup_boxFileName (hV : IsVersion VERSION) {boxName : Text}
    (hrequest : request (.boxFileName boxName) = some (artifact.bucket, artifact.name ++ versionSuffix)) :
    lookup ansible (createVersionFile VERSION size checksum) (.boxFileName boxName) =
      some (artifact.object VERSION) := by
  obtain ⟨hbucket, hname⟩ := Prod.mk.inj (Option.some.inj hrequest)
  cases artifact with
  | box name =>
    obtain rfl : boxName = name := List.append_cancel_right hname
    rw [lookup, toOption_getVersionFromFile hV]
    rfl
  | container | deb => cases hbucket

/-- `get_version_from_file` and `container_file_name` find the container. -/
theorem lookup_containerFileName (hV : IsVersion VERSION) {appName : Text}
    (hrequest : request (.containerFileName appName) = some (artifact.bucket, artifact.name ++ versionSuffix)) :
    lookup ansible (createVersionFile VERSION size checksum) (.containerFileName appName) =
      some (artifact.object VERSION) := by
  obtain ⟨hbucket, hname⟩ := Prod.mk.inj (Option.some.inj hrequest)
  cases artifact with
  | container appname =>
    obtain rfl : appName = appname := List.append_cancel_right hname
    rw [lookup, toOption_getVersionFromFile hV]
    rfl
  | box | deb => cases hbucket

/-- `get_version_from_file` and `deb_file_name` find the package of the nodes. -/
theorem lookup_debFileName (hV : IsVersion VERSION)
    (hrequest : request .debFileName = some (artifact.bucket, artifact.name ++ versionSuffix)) :
    lookup ansible (createVersionFile VERSION size checksum) .debFileName = some (artifact.object VERSION) := by
  obtain ⟨hbucket, hname⟩ := Prod.mk.inj (Option.some.inj hrequest)
  cases artifact with
  | deb package =>
    obtain rfl : "gexnode".toList = package := List.append_cancel_right hname
    rw [lookup, toOption_getVersionFromFile hV]
    rfl
  | box | container => cases hbucket

/-- `get_filename` finds boxes, and the containers whose names survive the exchange of name and version. -/
theorem lookup_getFilename_iff (hV : IsVersion VERSION) {fileName : Text}
    (hrequest : request (.getFilename fileName) = some (artifact.bucket, artifact.name ++ versionSuffix)) :
    lookup ansible (createVersionFile VERSION size checksum) (.getFilename fileName) = some (artifact.object VERSION) ↔
      Careful VERSION artifact (.getFilename fileName) := by
  obtain ⟨⟨versionFile, suffix⟩, hparse, heq⟩ := Option.map_eq_some_iff.mp hrequest
  obtain ⟨hbucket, hversion⟩ := Prod.mk.inj heq
  have hlookup : lookup ansible (createVersionFile VERSION size checksum) (.getFilename fileName) =
      some (getFilename VERSION suffix) := by
    rw [lookup, hparse, getVersion_createVersionFile hV]
    rfl
  rcases parseVersionFile_eq_some hparse with ⟨htar, name, hname, rfl, rfl⟩ | ⟨htar, name, -, rfl, rfl⟩
  · simp only [if_pos htar] at hbucket
    cases artifact with
    | container appname =>
      obtain rfl : name = appname := List.append_cancel_right hversion
      rw [hlookup, Option.some.injEq]
      exact exchange_iff (not_mem_of_mem_clientNames hname)
    | box | deb => cases hbucket
  · simp only [if_neg htar] at hbucket
    cases artifact with
    | box boxName =>
      obtain rfl : name = boxName := List.append_cancel_right hversion
      exact iff_of_true hlookup trivial
    | container | deb => cases hbucket

/-- `get_box_name` finds every box but `master`. -/
theorem lookup_getBoxName_iff (hV : IsVersion VERSION) {fileName : Text}
    (hrequest : request (.getBoxName fileName) = some (artifact.bucket, artifact.name ++ versionSuffix)) :
    lookup ansible (createVersionFile VERSION size checksum) (.getBoxName fileName) = some (artifact.object VERSION) ↔
      Careful VERSION artifact (.getBoxName fileName) := by
  obtain ⟨versionFile, hparse, heq⟩ := Option.map_eq_some_iff.mp hrequest
  obtain ⟨hbucket, rfl⟩ := Prod.mk.inj heq
  cases artifact with
  | box boxName =>
    obtain ⟨name, hname, hversion⟩ := Option.map_eq_some_iff.mp hparse
    obtain rfl : name = boxName := List.append_cancel_right hversion
    rw [lookup, hparse, getVersion_createVersionFile hV]
    exact (Option.some_inj).trans (getBoxName_iff (mem_of_caseName hname))
  | container | deb => cases hbucket

/-- `get_container_name` finds every container. -/
theorem lookup_getContainerName (hV : IsVersion VERSION) {fileName : Text}
    (hrequest : request (.getContainerName fileName) = some (artifact.bucket, artifact.name ++ versionSuffix)) :
    lookup ansible (createVersionFile VERSION size checksum) (.getContainerName fileName) =
      some (artifact.object VERSION) := by
  obtain ⟨versionFile, hparse, heq⟩ := Option.map_eq_some_iff.mp hrequest
  obtain ⟨hbucket, rfl⟩ := Prod.mk.inj heq
  cases artifact with
  | container appname =>
    obtain ⟨name, hname, hversion⟩ := Option.map_eq_some_iff.mp hparse
    obtain rfl : name = appname := List.append_cancel_right hversion
    rw [lookup, hparse, getVersion_createVersionFile hV]
    exact congrArg some (getContainerName_eq (mem_of_caseName hname))
  | box | deb => cases hbucket

/-- `custom_upload` finds nothing. -/
theorem lookup_customUpload_ne (hV : IsVersion VERSION)
    (hrequest : request .customUpload = some (artifact.bucket, artifact.name ++ versionSuffix)) :
    lookup ansible (createVersionFile VERSION size checksum) .customUpload ≠ some (artifact.object VERSION) := by
  obtain ⟨hbucket, hname⟩ := Prod.mk.inj (Option.some.inj hrequest)
  cases artifact with
  | deb package =>
    obtain rfl : "gex-baremetal-aws".toList = package := List.append_cancel_right hname
    exact fun heq => customUpload_ne hV (Option.some.inj heq)
  | box | container => cases hbucket

/-- `child_hook` finds its package in an environment that it knows. -/
theorem lookup_childHook_iff (hV : IsVersion VERSION) {gexEnv : Text} {hadoopType : Option HadoopType}
    (hrequest : request (.childHook gexEnv hadoopType) = some (artifact.bucket, artifact.name ++ versionSuffix)) :
    lookup ansible (createVersionFile VERSION size checksum) (.childHook gexEnv hadoopType) =
      some (artifact.object VERSION) ↔ gexEnv = "main".toList ∨ gexEnv = "prod".toList := by
  obtain ⟨hbucket, hname⟩ := Prod.mk.inj (Option.some.inj hrequest)
  cases artifact with
  | deb package =>
    rw [← List.append_assoc] at hname
    obtain rfl : "gex-baremetal-aws".toList ++ childHookTest gexEnv = package :=
      List.append_cancel_right hname
    rw [lookup, ← gexdDeb_isSome_iff]
    cases hgexd : gexdDeb gexEnv with
    | some gexd => exact iff_of_true (childHook_eq ansible hV hgexd hadoopType) rfl
    | none => simp [childHook, hgexd]
  | box | container => cases hbucket

end

/-- **Which consumers find an artifact.** After an artifact is published, a consumer of its version file
arrives at the published name exactly when it is careful. -/
theorem lookup_iff (ansible : Ansible) (VERSION : Text) (hV : IsVersion VERSION) (size checksum : Nat)
    (artifact : Artifact) (h : artifact.Named) :
    ∃ publication, publish VERSION size checksum artifact = some publication ∧
      ∀ consumer, request consumer = some (artifact.bucket, publication.versionFile) →
        (lookup ansible publication.contents consumer = some publication.object ↔
          Careful VERSION artifact consumer) := by
  refine ⟨_, publish_eq h, fun consumer hrequest => ?_⟩
  cases consumer with
  | boxFileName boxName => exact iff_of_true (lookup_boxFileName ansible hV hrequest) (by cases artifact <;> trivial)
  | containerFileName appName =>
    exact iff_of_true (lookup_containerFileName ansible hV hrequest) (by cases artifact <;> trivial)
  | debFileName => exact iff_of_true (lookup_debFileName ansible hV hrequest) (by cases artifact <;> trivial)
  | getFilename fileName => exact lookup_getFilename_iff ansible hV hrequest
  | getBoxName fileName => exact lookup_getBoxName_iff ansible hV hrequest
  | getContainerName fileName =>
    exact iff_of_true (lookup_getContainerName ansible hV hrequest) (by cases artifact <;> trivial)
  | customUpload => exact iff_of_false (lookup_customUpload_ne ansible hV hrequest) (by cases artifact <;> exact id)
  | childHook gexEnv hadoopType =>
    refine (lookup_childHook_iff ansible hV hrequest).trans ?_
    cases artifact <;> exact Iff.rfl

/-- A reader of arguments that splits at blanks and newlines, and each word at its first `=`. -/
def plainAnsible : Ansible where
  extraVar argument name := ((Hosts.wordsBy isSeparator argument).map fun word =>
    ((cut '=' word).1, (cut '=' word).2.getD [])).reverse.lookup name
  extraVar_eq argument assignments hwords hplain name := by
    have hsplit : (Hosts.wordsBy isSeparator argument).map (fun word =>
        ((cut '=' word).1, (cut '=' word).2.getD [])) = assignments := by
      rw [hwords, List.map_map]
      refine (List.map_congr_left fun a ha => ?_).trans (List.map_id assignments)
      have hkey : '=' ∉ a.1 := fun hmem => by
        rcases (hplain a ha).1.2 '=' hmem with halpha | heq
        · exact absurd halpha (by decide)
        · exact absurd heq (by decide)
      rw [Function.comp_apply, cut_append hkey]
      rfl
    rw [hsplit]

/-- The playbook finds the package that is published for it. -/
theorem lookup_iff_childHook : ∃ publication,
    publish "0.9.1".toList 5 7 (.deb "gex-baremetal-aws-test".toList) = some publication ∧
      lookup plainAnsible publication.contents (.childHook "main".toList (some .cdh)) = some publication.object := by
  obtain ⟨publication, hpublish, hlookup⟩ :=
    lookup_iff plainAnsible "0.9.1".toList (by decide) 5 7 (.deb "gex-baremetal-aws-test".toList) (by decide)
  have hread : publication.versionFile = "gex-baremetal-aws-test".toList ++ versionSuffix := by
    rw [publish_eq (by decide)] at hpublish
    rw [← Option.some.inj hpublish]
    rfl
  refine ⟨publication, hpublish, (hlookup (.childHook "main".toList (some .cdh)) ?_).mpr (.inl rfl)⟩
  rw [hread]
  rfl

/-- `custom_upload` does not find the package that is published for it. -/
theorem baremetal_not_found :
    ∃ publication, publish "0.9.1".toList 5 7 (.deb "gex-baremetal-aws".toList) = some publication ∧
      request .customUpload = some (.debian, publication.versionFile) ∧
      lookup plainAnsible publication.contents .customUpload ≠ some publication.object :=
  ⟨_, publish_eq (by decide), rfl, fun heq => customUpload_ne (by decide) (Option.some.inj heq)⟩

end GexCloud.Deploy
