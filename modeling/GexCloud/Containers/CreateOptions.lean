import GexCloud.Containers.Rerun
import GexCloud.Containers.ServiceState
import GexCloud.Network.GexResolve

/-! # The options that a container is created with

`dcreate_container` puts the command `docker create` together from texts: its own options, those it is
called with, the default volumes and the volumes that are given as pairs.
`gexcloud_create_and_configure_container` calls it with options for the ports or for the public network.

* `createCommand` — the command.
* `bindCount` — how often a bind is asked for by the words of a command.
* **`bindCount_createCommand`** — what of the pairs is left in it: nothing stands between two of them.
* `dcreateArguments` — the arguments that `dcreate_container` is called with.
* **`requested_iff`** — when the binds are those of the pairs, and when the call is made with the options of
  the settings. -/

namespace GexCloud.Containers

open Texts FileTree Scripts Hosts
open GexResolve (split)

/-! ## The command -/

/-- A volume in the arguments of `dcreate_container`: a path, or what is bound where. -/
inductive VolumeArg
  | path (v : Text)
  | pair (host container : Text)
  deriving DecidableEq

/-- The bind of a pair. -/
def VolumeArg.bind? : VolumeArg → Option Text
  | .path _ => none
  | .pair host container => some (host ++ ':' :: container)

/-- The arguments, and what is global. -/
structure CreateCall where
  weaveHost : Text
  container : Text
  imageTag : Text
  cmd : Text
  ip : Text
  hostName : Text
  dnsIp : Text
  options : Text
  addDefaultVolumes : Bool

/-- A source in an option. -/
def Source.text : Source → Text
  | .volume name => name
  | .bind path => path

/-- The text of `volumes_string`. -/
def volumesText (container : Text) (tree : Tree) : Text :=
  (volumesString container tree).flatMap fun m => " -v ".toList ++ (m.source.text ++ ':' :: m.path)

/-- The options of every container. -/
def baseOptions (call : CreateCall) : Text :=
  "--privileged -v /dev/log:/dev/log ".toList ++ (" --dns ".toList ++ (call.dnsIp ++
    (" --dns 8.8.8.8 ".toList ++ (call.options ++ [' ']))))

/-- The options with the default volumes. -/
def defaultOptions (call : CreateCall) (tree : Tree) : Text :=
  if call.addDefaultVolumes then baseOptions call ++ ' ' :: (volumesText call.container tree ++ [' '])
  else baseOptions call

/-- `s_v`: only the pairs are added. -/
def extraVolumes (volumes : List VolumeArg) : Text :=
  volumes.flatMap fun
    | .pair host container => "-v ".toList ++ (host ++ ':' :: container)
    | .path _ => []

/-- `options`. -/
def createOptions (call : CreateCall) (tree : Tree) (volumes : List VolumeArg) : Text :=
  if volumes ≠ [] then defaultOptions call tree ++ extraVolumes volumes else baseOptions call

/-- What stands behind the options. -/
def createTail (call : CreateCall) : Text :=
  "--name".toList ++ ' ' :: (call.container ++ (" --label gex=gex -h ".toList ++ (trUnderscore call.hostName ++
    (" -v /disk2/containers/".toList ++ (call.container ++ ("/hosts:/etc/hosts -v /disk2/containers/".toList ++
    (call.container ++ ("/resolv.conf:/etc/resolv.conf ".toList ++ (call.imageTag ++ ("  ".toList ++
    call.cmd))))))))))

/-- A command with these options. -/
def commandWith (call : CreateCall) (options : Text) : Text :=
  "docker ".toList ++ (call.weaveHost ++ (" create  ".toList ++ (options ++ ' ' :: createTail call)))

/-- **The command** that `dcreate_container` runs. -/
def createCommand (call : CreateCall) (tree : Tree) (volumes : List VolumeArg) : Text :=
  commandWith call (createOptions call tree volumes)

/-! ## Binds -/

/-- How often `-v` is followed by a bind. -/
def bindCount (bind : Text) : List Text → Nat
  | [] => 0
  | arg :: args => (if arg = "-v".toList ∧ args.head? = some bind then 1 else 0) + bindCount bind args

/-- The words of pairs that are written one after the other. -/
def glue : List Text → List Text
  | [] => []
  | [w] => [w]
  | w :: w' :: ws => (w ++ "-v".toList) :: glue (w' :: ws)

/-- The binds of the pairs. -/
def pairs (volumes : List VolumeArg) : List Text := volumes.filterMap VolumeArg.bind?

/-- The words of the command without the pairs. -/
def others (call : CreateCall) (tree : Tree) : List Text := split (commandWith call (defaultOptions call tree))

/-- **When every pair is bound once**: there is one at most, and it is bound nowhere else; or each is bound
once without the pairs, or is the first with `-v` behind it and bound nowhere else. -/
def Separable (call : CreateCall) (tree : Tree) (volumes : List VolumeArg) : Prop :=
  match pairs volumes with
  | [] => True
  | [w] => bindCount w (others call tree) = 0
  | w :: w' :: ws => ∀ x ∈ w :: w' :: ws,
      bindCount x (others call tree) + (if x = w ++ "-v".toList then 1 else 0) = 1

/-- The volumes have no white space. -/
def NoSpace (volumes : List VolumeArg) : Prop :=
  ∀ w ∈ pairs volumes, ∀ c ∈ w, GexResolve.isSplitSpace c = false

instance (volumes : List VolumeArg) : Decidable (NoSpace volumes) :=
  decidable_of_iff ((pairs volumes).all fun w => w.all fun c => !GexResolve.isSplitSpace c) (by
    simp only [NoSpace, List.all_eq_true, Bool.not_eq_true'])

variable {call : CreateCall} {tree : Tree} {volumes : List VolumeArg} {bind : Text}

/-- Where a list is divided nothing is counted twice, if what comes next is not the bind. -/
theorem bindCount_append {args : List Text} {arg : Text} (h : arg ≠ bind) (rest : List Text) :
    bindCount bind (args ++ arg :: rest) = bindCount bind args + bindCount bind (arg :: rest) := by
  induction args with
  | nil => simp [bindCount]
  | cons a args ih =>
    cases args with
    | nil => simp [bindCount, h]
    | cons a' args =>
      rw [List.cons_append, bindCount, ih, ← Nat.add_assoc]
      rfl

/-- Without `-v` there is no bind. -/
theorem bindCount_eq_zero {args : List Text} (h : ∀ arg ∈ args, arg ≠ "-v".toList) : bindCount bind args = 0 := by
  induction args with
  | nil => rfl
  | cons a args ih =>
    rw [bindCount, if_neg fun hand => h a List.mem_cons_self hand.1,
      ih fun arg harg => h arg (List.mem_cons_of_mem a harg)]

/-- The words keep their letters. -/
theorem mem_glue {ws : List Text} {c : Char} (h : ∀ w ∈ ws, c ∈ w) : ∀ g ∈ glue ws, c ∈ g := by
  fun_induction glue ws with
  | case1 => simp
  | case2 w => exact h
  | case3 w w' ws ih =>
    intro g hg
    obtain rfl | hg := List.mem_cons.mp hg
    · exact List.mem_append_left _ (h w List.mem_cons_self)
    · exact ih (fun x hx => h x (List.mem_cons_of_mem w hx)) g hg

/-- A space divides the words. -/
theorem split_space (s t : Text) : split (s ++ ' ' :: t) = split s ++ split t := wordsBy_append_cons s t (by decide)

/-- A word is its only one. -/
theorem split_of_isWord {t : Text} (h : GexResolve.IsWord t) : split t = [t] := by
  rw [split, wordsBy_of_forall h.2, if_neg h.1]

/-- A text of which every letter is tested. -/
theorem isWord_of_all {t : Text} (hne : t ≠ []) (h : t.all (fun c => !GexResolve.isSplitSpace c) = true) :
    GexResolve.IsWord t := ⟨hne, Hosts.forall_of_all h⟩

/-- **Pairs one after the other**: the words of the options for them. -/
theorem split_flatMap {ws : List Text} (h : ∀ w ∈ ws, GexResolve.IsWord w) {w : Text}
    (hw : GexResolve.IsWord w) : split (w ++ ws.flatMap fun x => "-v ".toList ++ x) = glue (w :: ws) := by
  induction ws generalizing w with
  | nil =>
    rw [List.flatMap_nil, List.append_nil, split, wordsBy_of_forall hw.2, if_neg hw.1]
    rfl
  | cons x ws ih =>
    have hx := h x List.mem_cons_self
    have hglued : ∀ c ∈ w ++ "-v".toList, GexResolve.isSplitSpace c = false := by
      intro c hc
      obtain hc | hc := List.mem_append.mp hc
      · exact hw.2 c hc
      · exact (isWord_of_all (by decide) (by decide) : GexResolve.IsWord "-v".toList).2 c hc
    have hshape : w ++ (x :: ws).flatMap (fun x => "-v ".toList ++ x) =
        (w ++ "-v".toList) ++ ' ' :: (x ++ ws.flatMap fun x => "-v ".toList ++ x) := by
      rw [List.flatMap_cons, List.append_assoc, List.append_assoc]
      rfl
    have hrest := ih (fun y hy => h y (List.mem_cons_of_mem x hy)) hx
    rw [hshape, split, wordsBy_cons hglued (by simp) (by decide)]
    exact congrArg _ hrest

/-- The text for the pairs. -/
theorem extraVolumes_eq (volumes : List VolumeArg) :
    extraVolumes volumes = (pairs volumes).flatMap fun x => "-v ".toList ++ x := by
  induction volumes with
  | nil => rfl
  | cons v volumes ih =>
    have hcons : extraVolumes (v :: volumes) = extraVolumes [v] ++ extraVolumes volumes := by
      simp [extraVolumes]
    cases v with
    | path v =>
      rw [hcons, ih]
      rfl
    | pair host container =>
      rw [hcons, ih]
      simp [extraVolumes, pairs, VolumeArg.bind?]

/-- A pair without white space is a word, with a colon. -/
theorem isWord_of_mem_pairs (hspace : NoSpace volumes) {w : Text} (hw : w ∈ pairs volumes) :
    GexResolve.IsWord w ∧ ':' ∈ w := by
  obtain ⟨v, -, hv⟩ := List.mem_filterMap.mp hw
  have hcolon : ':' ∈ w := by
    cases v with
    | path v => cases hv
    | pair host container =>
      obtain rfl := Option.some.inj hv
      simp
  exact ⟨⟨List.ne_nil_of_mem hcolon, hspace w hw⟩, hcolon⟩

/-- The options end with a space. -/
theorem exists_defaultOptions (call : CreateCall) (tree : Tree) : ∃ s, defaultOptions call tree = s ++ [' '] := by
  have hbase : ∀ p q r : Text, p ++ (q ++ (call.dnsIp ++ (r ++ (call.options ++ [' '])))) =
      p ++ (q ++ (call.dnsIp ++ (r ++ call.options))) ++ [' '] := fun p q r => by simp
  unfold defaultOptions
  cases call.addDefaultVolumes with
  | true => exact ⟨baseOptions call ++ ' ' :: volumesText call.container tree, by simp⟩
  | false => exact ⟨_, hbase _ _ _⟩

/-- The words of a command, before and behind what is added to the options. -/
theorem split_commandWith (call : CreateCall) (tree : Tree) : ∃ before behind, ∀ extra : Text,
    split (commandWith call (defaultOptions call tree ++ extra)) =
      before ++ (split extra ++ "--name".toList :: behind) := by
  obtain ⟨s, hs⟩ := exists_defaultOptions call tree
  obtain ⟨tail, htail⟩ : ∃ tail, createTail call = "--name".toList ++ ' ' :: tail := by
    unfold createTail
    exact ⟨_, rfl⟩
  obtain ⟨start, hstart⟩ : ∃ start, ∀ extra : Text, commandWith call (defaultOptions call tree ++ extra) =
      start ++ ' ' :: (extra ++ ' ' :: createTail call) := by
    have hassoc : ∀ p q extra tail : Text, p ++ (call.weaveHost ++ (q ++ (s ++ [' '] ++ extra ++ ' ' :: tail))) =
        p ++ (call.weaveHost ++ (q ++ s)) ++ ' ' :: (extra ++ ' ' :: tail) := fun p q extra tail => by simp
    refine ⟨"docker ".toList ++ (call.weaveHost ++ (" create  ".toList ++ s)), fun extra => ?_⟩
    unfold commandWith
    rw [hs]
    exact hassoc _ _ _ _
  have hname : GexResolve.IsWord "--name".toList := isWord_of_all (by decide) (by decide)
  refine ⟨split start, split tail, fun extra => ?_⟩
  have htailWords : split (createTail call) = "--name".toList :: split tail := by
    rw [htail]
    exact wordsBy_cons hname.2 hname.1 (c := ' ') (by decide) tail
  rw [hstart, split_space, split_space, htailWords]

/-- **Binds of the command**: those it has without the pairs, and one more for the first word of what the
pairs have become. -/
theorem bindCount_createCommand (hspace : NoSpace volumes) (hcolon : ':' ∈ bind)
    (hpairs : pairs volumes ≠ []) : bindCount bind (split (createCommand call tree volumes)) =
      bindCount bind (others call tree) + if (glue (pairs volumes)).head? = some bind then 1 else 0 := by
  have hne : volumes ≠ [] := by
    rintro rfl
    exact hpairs rfl
  have hdash : ∀ s : Text, ':' ∉ s → s ≠ bind := by
    rintro s hs rfl
    exact hs hcolon
  obtain ⟨before, behind, hsplit⟩ := split_commandWith call tree
  obtain ⟨w, ws, hws⟩ := List.exists_cons_of_ne_nil hpairs
  have hwords : ∀ x ∈ w :: ws, GexResolve.IsWord x := by
    rw [← hws]
    exact fun x hx => (isWord_of_mem_pairs hspace hx).1
  have hextra : split (extraVolumes volumes) = "-v".toList :: glue (pairs volumes) := by
    have hv : GexResolve.IsWord "-v".toList := isWord_of_all (by decide) (by decide)
    have hshape : extraVolumes volumes =
        "-v".toList ++ ' ' :: (w ++ ws.flatMap fun x => "-v ".toList ++ x) := by
      rw [extraVolumes_eq, hws, List.flatMap_cons, List.append_assoc]
      rfl
    have hrest := split_flatMap (fun x hx => hwords x (List.mem_cons_of_mem w hx)) (hwords w List.mem_cons_self)
    rw [hshape, split, wordsBy_cons hv.2 hv.1 (by decide), hws]
    exact congrArg _ hrest
  have hglue : bindCount bind (glue (pairs volumes)) = 0 := by
    refine bindCount_eq_zero fun g hg heq => ?_
    have hmem := mem_glue (fun x hx => (isWord_of_mem_pairs hspace hx).2) g hg
    rw [heq] at hmem
    exact absurd hmem (by decide)
  have hhead : ((glue (pairs volumes)) ++ "--name".toList :: behind).head? = (glue (pairs volumes)).head? := by
    rw [hws]
    cases ws <;> rfl
  have hothers : others call tree = before ++ "--name".toList :: behind := by
    have h := hsplit []
    rw [List.append_nil] at h
    exact h
  have hcommand : split (createCommand call tree volumes) =
      before ++ "-v".toList :: (glue (pairs volumes) ++ "--name".toList :: behind) := by
    rw [createCommand, createOptions, if_pos hne, hsplit, hextra]
    rfl
  rw [hcommand, bindCount_append (hdash _ (by decide)), bindCount, bindCount_append (hdash _ (by decide)), hglue,
    hhead, hothers, bindCount_append (hdash _ (by decide))]
  simp only [true_and, Nat.zero_add]
  omega

/-- **Every pair is bound once** exactly when the pairs are separable. -/
theorem binds_iff (call : CreateCall) (tree : Tree) (hspace : NoSpace volumes) :
    (∀ w ∈ pairs volumes, bindCount w (split (createCommand call tree volumes)) = 1) ↔
    Separable call tree volumes := by
  have hcount : ∀ w ∈ pairs volumes, bindCount w (split (createCommand call tree volumes)) =
      bindCount w (others call tree) + if (glue (pairs volumes)).head? = some w then 1 else 0 := by
    intro w hw
    exact bindCount_createCommand hspace (isWord_of_mem_pairs hspace hw).2 (List.ne_nil_of_mem hw)
  have hall : (∀ w ∈ pairs volumes, bindCount w (split (createCommand call tree volumes)) = 1) ↔
      ∀ w ∈ pairs volumes,
        bindCount w (others call tree) + (if (glue (pairs volumes)).head? = some w then 1 else 0) = 1 :=
    forall₂_congr fun w hw => by rw [hcount w hw]
  rw [hall, Separable]
  cases pairs volumes with
  | nil => simp
  | cons w ws =>
    cases ws with
    | nil => simp [glue]
    | cons w' ws => simp only [glue, List.head?_cons, Option.some.injEq, eq_comm (a := w ++ "-v".toList)]

/-! ## The options of the call -/

/-- The public network of a container. -/
structure PublicNet where
  ip : Text
  macAddress : Option Text

/-- The public network of the settings, as `gexcloud_create_configure_and_run_container` has it. -/
def publicNetOf (settings : Settings) : Option PublicNet :=
  (settings.get "PUBLIC_IP".toList).map fun ip => ⟨ip, settings.get "PUBLIC_MAC_ADDRESS".toList⟩

/-- The options with those for the ports. -/
def addPorts (C : Config) (vars : Settings) (publicNet : Option PublicNet) (options : Text) : Script Text :=
  if publicNet.isNone && varExists vars "PORTS".toList then do
    let ports ← _a C vars "PORTS".toList
    return (split ports).foldl
      (fun options port => options ++ (" -p ".toList ++ (port ++ ':' :: (port ++ [' '])))) options
  else return options

/-- What is added to the options for the public network. -/
def networkOptions : Option PublicNet → Text
  | none => []
  | some net => " --network public --ip ".toList ++ (net.ip ++ (' ' ::
      match net.macAddress with
      | none => []
      | some macAddress => " --mac-address ".toList ++ (macAddress ++ [' '])))

/-- **The arguments** with which `gexcloud_create_and_configure_container` calls `dcreate_container`. The
volumes are `VOLUMES`. -/
def dcreateArguments (C : Config) (A : Answers) (weaveHost container tag : Text) (vars : Settings)
    (publicNet : Option PublicNet) (options : Text) : Script CreateCall := do
  useContainer A container
  let vars ← initVars C vars
  let options ← addPorts C vars publicNet options
  -- `public_net[:ip]`, of `nil` too
  let net ← orThrow .noMethodError publicNet
  let dnsServer ← _a C vars "dns_server".toList
  return {
    weaveHost := weaveHost
    container := container
    imageTag := tag
    cmd := bootstrapFileName
    ip := net.ip
    hostName := container
    dnsIp := dnsServer
    options := options ++ networkOptions publicNet
    addDefaultVolumes := true }

/-- What the settings ask for: the ports without a public network, and the network with one. -/
def requested (settings : Settings) : List Text :=
  match publicNetOf settings with
  | none => (split ((settings.get "PORTS".toList).getD [])).flatMap fun port => ["-p".toList, port ++ ':' :: port]
  | some net => "--network".toList :: "public".toList :: "--ip".toList :: net.ip ::
      net.macAddress.toList.flatMap fun macAddress => ["--mac-address".toList, macAddress]

/-- **The call is made with what the settings ask for**, besides the options that are given. -/
def ReachesWith (C : Config) (A : Answers) (weaveHost container tag : Text) (settings : Settings) (options : Text)
    (host : Host) : Prop :=
  ∃ call, Returns (dcreateArguments C A weaveHost container tag settings (publicNetOf settings) options) host
    call host ∧ split call.options = split options ++ requested settings

/-- **When it is**: there is a public network, whose address and MAC are words, and nothing else is wrong. -/
structure Admits (A : Answers) (container : Text) (settings : Settings) : Prop where
  container_ne : container ≠ "container".toList
  aws : A.succeeds .awsCheck = true
  values : ∀ entry ∈ settings, entry.2.isSome = true
  dnsServer : (settings.get "dns_server".toList).isSome = true
  publicIp : ∃ ip, settings.get "PUBLIC_IP".toList = some ip ∧ GexResolve.IsWord ip
  macAddress : ∀ m, settings.get "PUBLIC_MAC_ADDRESS".toList = some m → GexResolve.IsWord m

/-- The call of the model of the whole function is made with these arguments. -/
theorem run_gexcloudCreateAndConfigureContainer (C : Config) (D : Docker) (A : Answers) (weaveHost container
    tag : Text) (vars : Settings) (publicNet : Option PublicNet) (options : Text) (removeDefaultNet recreate : Bool)
    (host : Host) :
    run (gexcloudCreateAndConfigureContainer C D A container tag vars (publicNet.map PublicNet.ip)
      removeDefaultNet recreate) host = run (do
        let call ← dcreateArguments C A weaveHost container tag vars publicNet options
        dcreateContainer D A call.container call.imageTag call.cmd VOLUMES call.ip call.hostName call.dnsIp [] false
        dmarkDisabled A container
        connectNetworks A container removeDefaultNet) host := by
  have hports : ∀ (vars : Settings) (m : Script PUnit),
      (portsOptions C vars (publicNet.map PublicNet.ip) >>= fun _ => m) =
        addPorts C vars publicNet options >>= fun _ => m := by
    intro vars m
    rw [portsOptions, addPorts, Option.isNone_map]
    split
    · simp only [bind_assoc, pure_bind]
    · simp only [pure_bind]
  have hip : ∀ f : Text → Script PUnit, (orThrow .noMethodError (publicNet.map PublicNet.ip) >>= f) =
      orThrow .noMethodError publicNet >>= fun net => f net.ip := by
    intro f
    cases publicNet with
    | none => rfl
    | some net => rfl
  simp only [gexcloudCreateAndConfigureContainer, dcreateArguments, bind_assoc, pure_bind, hports, hip]

/-- **The call**: when it is made, and with which arguments. -/
theorem returns_dcreateArguments_iff {C : Config} {A : Answers} {weaveHost container tag options : Text}
    {vars : Settings} {publicNet : Option PublicNet} {host host' : Host} {call : CreateCall} :
    Returns (dcreateArguments C A weaveHost container tag vars publicNet options) host call host' ↔
      (container ≠ "container".toList ∧ A.succeeds .awsCheck = true) ∧
      (∀ entry ∈ vars, entry.2.isSome = true) ∧
      ∃ net dnsServer, publicNet = some net ∧ vars.get "dns_server".toList = some dnsServer ∧
        CreateCall.mk weaveHost container tag bootstrapFileName net.ip container dnsServer
          (options ++ networkOptions (some net)) true = call ∧ host = host' := by
  constructor
  · intro h
    obtain ⟨_, huse, h⟩ := returns_then_iff.mp h
    obtain ⟨hused, rfl⟩ := returns_useContainer_iff.mp huse
    obtain ⟨_, _, hvars, h⟩ := returns_bind_iff.mp h
    obtain ⟨hall, rfl, rfl⟩ := returns_initVars_iff.mp hvars
    obtain ⟨_, _, hports, h⟩ := returns_bind_iff.mp h
    obtain ⟨net, _, hnet, h⟩ := returns_bind_iff.mp h
    obtain ⟨rfl, rfl⟩ := returns_orThrow_iff.mp hnet
    obtain ⟨dnsServer, _, hdns, h⟩ := returns_bind_iff.mp h
    obtain ⟨hserver, rfl⟩ := returns_orThrow_iff.mp hdns
    -- with a public network nothing is added for the ports
    obtain ⟨rfl, rfl⟩ := returns_pure_iff.mp hports
    obtain ⟨hcall, rfl⟩ := returns_pure_iff.mp h
    exact ⟨hused, hall, net, dnsServer, rfl, hserver, hcall, rfl⟩
  · rintro ⟨huse, hall, net, dnsServer, rfl, hdns, hcall, rfl⟩
    refine returns_then_iff.mpr ⟨_, returns_useContainer_iff.mpr ⟨huse, rfl⟩, ?_⟩
    refine returns_bind_iff.mpr ⟨_, _, returns_initVars_iff.mpr ⟨hall, rfl, rfl⟩, ?_⟩
    refine returns_bind_iff.mpr ⟨_, _, returns_pure_iff.mpr ⟨rfl, rfl⟩, ?_⟩
    refine returns_bind_iff.mpr ⟨_, _, returns_orThrow_iff.mpr ⟨rfl, rfl⟩, ?_⟩
    refine returns_bind_iff.mpr ⟨_, _, returns_orThrow_iff.mpr ⟨hdns, rfl⟩, ?_⟩
    exact returns_pure_iff.mpr ⟨hcall, rfl⟩

/-- The option of the MAC. -/
theorem isWord_macAddress : GexResolve.IsWord "--mac-address".toList := isWord_of_all (by decide) (by decide)

/-- The words of what is added for a network. -/
theorem split_network (options t : Text) : split (options ++ (" --network public --ip ".toList ++ t)) =
    split options ++ "--network".toList :: "public".toList :: "--ip".toList :: split t := by
  have hshape : " --network public --ip ".toList = ' ' :: ("--network public --ip".toList ++ [' ']) := by decide
  have hwords : split "--network public --ip".toList = ["--network".toList, "public".toList, "--ip".toList] := by
    decide
  rw [hshape, List.cons_append, split_space, List.append_assoc, List.singleton_append, split_space, hwords]
  rfl

/-- The words of what is added for a MAC. -/
theorem split_mac (m : Text) :
    split (" --mac-address ".toList ++ (m ++ [' '])) = "--mac-address".toList :: split m := by
  have hshape : " --mac-address ".toList = [] ++ ' ' :: ("--mac-address".toList ++ [' ']) := by decide
  rw [hshape, List.append_assoc, List.cons_append, split_space, List.append_assoc, List.singleton_append, split_space,
    split_of_isWord isWord_macAddress, split_space]
  show [] ++ ("--mac-address".toList :: (split m ++ [])) = _
  rw [List.nil_append, List.append_nil]

/-- The words of what is added to the options. -/
theorem split_networkOptions (options : Text) (net : PublicNet) :
    split (options ++ networkOptions (some net)) = split options ++ "--network".toList :: "public".toList ::
      "--ip".toList :: (split net.ip ++ net.macAddress.toList.flatMap fun m => "--mac-address".toList :: split m) := by
  obtain ⟨ip, macAddress⟩ := net
  refine (split_network options _).trans ?_
  rw [split_space]
  cases macAddress with
  | none => rfl
  | some m =>
    dsimp only
    rw [split_mac, Option.toList_some, List.flatMap_singleton]

/-- **The call is made with what the settings ask for exactly when they admit it.** -/
theorem reachesWith_iff (C : Config) (A : Answers) (weaveHost container tag : Text) (settings : Settings)
    (options : Text) (host : Host) :
    ReachesWith C A weaveHost container tag settings options host ↔ Admits A container settings := by
  have hwords : ∀ ip macAddress, split (options ++ networkOptions (some ⟨ip, macAddress⟩)) = split options ++
      "--network".toList :: "public".toList :: "--ip".toList :: ip ::
        macAddress.toList.flatMap (fun m => ["--mac-address".toList, m]) ↔
      GexResolve.IsWord ip ∧ ∀ m, macAddress = some m → GexResolve.IsWord m := by
    intro ip macAddress
    rw [split_networkOptions, List.append_cancel_left_eq, List.cons_inj_right, List.cons_inj_right,
      List.cons_inj_right]
    constructor
    · intro h
      -- what is behind the first options consists of words, and the address and the MAC are among it
      have hall : ∀ w ∈ ip :: macAddress.toList.flatMap (fun m => ["--mac-address".toList, m]),
          GexResolve.IsWord w := by
        intro w hw
        rw [← h] at hw
        obtain hw | hw := List.mem_append.mp hw
        · exact forall_of_mem_wordsBy hw
        · obtain ⟨m, -, hw⟩ := List.mem_flatMap.mp hw
          obtain rfl | hw := List.mem_cons.mp hw
          · exact isWord_macAddress
          · exact forall_of_mem_wordsBy hw
      refine ⟨hall ip List.mem_cons_self, ?_⟩
      rintro m rfl
      exact hall m (by simp)
    · rintro ⟨hip, hmac⟩
      rw [split_of_isWord hip]
      cases macAddress with
      | none => rfl
      | some m =>
        simp only [Option.toList_some, List.flatMap_singleton, split_of_isWord (hmac m rfl), List.singleton_append]
  constructor
  · rintro ⟨call, hreturns, hoptions⟩
    obtain ⟨⟨hcontainer, haws⟩, hall, net, dnsServer, hnet, hdns, rfl, -⟩ := returns_dcreateArguments_iff.mp hreturns
    obtain ⟨ip, hip, rfl⟩ := Option.map_eq_some_iff.mp hnet
    rw [requested, hnet] at hoptions
    obtain ⟨hword, hmac⟩ := (hwords ip _).mp hoptions
    exact ⟨hcontainer, haws, hall, Option.isSome_of_mem hdns, ⟨ip, hip, hword⟩, hmac⟩
  · rintro ⟨hcontainer, haws, hall, hdns, ⟨ip, hip, hword⟩, hmac⟩
    obtain ⟨dnsServer, hdns⟩ := Option.isSome_iff_exists.mp hdns
    have hnet : publicNetOf settings = some ⟨ip, settings.get "PUBLIC_MAC_ADDRESS".toList⟩ := by
      rw [publicNetOf, hip]
      rfl
    refine ⟨_, returns_dcreateArguments_iff.mpr ⟨⟨hcontainer, haws⟩, hall, _, dnsServer, hnet, hdns, rfl, rfl⟩, ?_⟩
    rw [requested, hnet]
    exact (hwords ip _).mpr ⟨hword, hmac⟩

/-- **`docker create` gets what was requested**: the pairs exactly when they are separable, and the options of
the settings exactly when these admit it. -/
theorem requested_iff (call : CreateCall) (tree : Tree) (volumes : List VolumeArg) (hspace : NoSpace volumes)
    (C : Config) (A : Answers) (weaveHost container tag : Text) (settings : Settings) (options : Text) (host : Host) :
    ((∀ w ∈ pairs volumes, bindCount w (split (createCommand call tree volumes)) = 1) ↔
      Separable call tree volumes) ∧
    (ReachesWith C A weaveHost container tag settings options host ↔ Admits A container settings) :=
  ⟨binds_iff call tree hspace, reachesWith_iff C A weaveHost container tag settings options host⟩

/-- A call for the container `web`. -/
def webCall : CreateCall where
  weaveHost := []
  container := "web".toList
  imageTag := "web".toList
  cmd := bootstrapFileName
  ip := "51.0.1.20".toList
  hostName := "web".toList
  dnsIp := "51.0.1.8".toList
  options := []
  addDefaultVolumes := false

/-- The settings of `kafka` with two ports and a name server. -/
def portSettings : Settings :=
  ("PORTS".toList, some "80 443".toList) :: ("dns_server".toList, some "51.0.1.8".toList) :: kafkaSettings

/-- One pair is bound once, and `proxy` gets its network. -/
theorem requested_one :
    bindCount "/a:/b".toList (split (createCommand webCall proxyHost.tree
      [.path "/data".toList, .pair "/a".toList "/b".toList])) = 1 ∧
    ReachesWith config obliging [] "proxy".toList "proxy".toList proxySettings [] proxyHost := by
  have hspace : NoSpace [.path "/data".toList, .pair "/a".toList "/b".toList] := by decide
  obtain ⟨hbinds, hreaches⟩ := requested_iff webCall proxyHost.tree _ hspace config obliging [] "proxy".toList
    "proxy".toList proxySettings [] proxyHost
  refine ⟨hbinds.mpr ?_ _ List.mem_cons_self, hreaches.mpr ?_⟩
  · show bindCount "/a:/b".toList _ = 0
    decide +kernel
  · refine ⟨by decide, rfl, by decide, by decide, ⟨_, rfl, isWord_of_all (by decide) (by decide)⟩, ?_⟩
    intro m hm
    obtain rfl : "92:a5:05:ff:f1:d2".toList = m := Option.some.inj hm
    exact isWord_of_all (by decide) (by decide)

/-- Two pairs run into each other, and the ports without a public network are not reached. -/
theorem requested_two :
    NoSpace [.pair "/a".toList "/b".toList, .pair "/c".toList "/d".toList] ∧
    bindCount "/a:/b".toList (split (createCommand webCall proxyHost.tree
      [.pair "/a".toList "/b".toList, .pair "/c".toList "/d".toList])) = 0 ∧
    requested portSettings = ["-p".toList, "80:80".toList, "-p".toList, "443:443".toList] ∧
    ¬ ReachesWith config obliging [] "kafka".toList "kafka".toList portSettings [] proxyHost := by
  refine ⟨?_, ?_, ?_, ?_⟩
  · decide
  · decide +kernel
  · decide
  · rw [reachesWith_iff]
    intro h
    obtain ⟨ip, hip, -⟩ := h.publicIp
    revert hip
    exact nofun

end GexCloud.Containers
