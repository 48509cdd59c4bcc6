import GexCloud.Base.Ruby
import GexCloud.Network.GexResolve
import GexCloud.Support.Scripts

/-! # `Rakefile`: a vagrant command for all boxes

`vagrant_cmd_all` runs a vagrant command in the directories of the boxes, which `/etc/GEX_BOXES` and
`/etc/GEX_CONTAINERS` are to list, the boxes of the type being the default.

* `vagrantCmdAll`, `vagrantCmdList` — the functions, over any pattern of failing commands.
* `configured`, `expected` — the boxes that the files list, and the commands that are to be run.
* **`vagrantCmdList_ran`** — the loop is right, with and without `dont_stop`.
* **`runs_configured_iff`** — but what it goes through are not the configured boxes unless the files say nothing of
  their own: the second file takes the place of the first, and a line of it is an array. -/

namespace GexCloud.Boxes

open Texts Scripts GexResolve

/-! ## The code -/

/-- `DEFAULT_BOXES`. -/
def DEFAULT_BOXES : List Text :=
  ["files".toList, "dns".toList, "openvpn".toList, "rabbit".toList, "proxy".toList, "webproxy".toList,
    "api".toList]

/-- `ALL_BOXES`. -/
def ALL_BOXES : List (Text × List Text) := [("main".toList, DEFAULT_BOXES), ("prod".toList, DEFAULT_BOXES)]

/-- A box as the loop gets it: a name of the defaults, or the words of a line. -/
inductive Box
  | name (name : Text)
  | words (words : List Text)

/-- A box in the text of a command; an array is printed, and `inspect` prints a string. -/
def Box.toS (inspect : Text → Text) : Box → Text
  | .name box => box
  | .words ws => '[' :: (", ".toList.intercalate (ws.map inspect) ++ "]".toList)

/-- The commands run so far, and the lines printed. -/
structure State where
  ran : List Text
  printed : List Text

/-- A script that runs commands. -/
abbrev Script := Scripts.Script RubyError State

/-- The two files; `none` for one that does not exist. -/
structure Etc where
  boxes : Option Text
  containers : Option Text

/-- `sh`; the commands that succeed are known by their number. -/
def sh (ok : Nat → Bool) (command : Text) : Script PUnit := do
  let s ← get
  modify fun s => { s with ran := s.ran ++ [command] }
  ensure (ok s.ran.length) (.commandFailed command)

variable (inspect : Text → Text) (ok : Nat → Bool)

/-- The command for a box of this name. -/
def command (cmd type box : Text) : Text :=
  "cd ".toList ++ (box ++ ("; vagrant ".toList ++ (cmd ++ ' ' :: type)))

/-- `vagrant_cmd`. -/
def vagrantCmd (cmd : Text) (box : Box) (type : Text) : Script PUnit :=
  sh ok (command cmd type (box.toS inspect))

/-- What is printed instead of a failure. -/
def putsContinuing (cmd : Text) : Script PUnit :=
  modify fun s => { s with printed := s.printed ++ ["Command ".toList ++ (cmd ++ " failed, continuing".toList)] }

/-- `vagrant_cmd_list`. -/
def vagrantCmdList (cmd : Text) (boxes : Option (List Box)) (type : Text) (dontStop : Bool) :
    Script PUnit :=
  match boxes with
  | none => throw (.argumentError "Nil boxes".toList)
  | some boxes => boxes.forM fun box =>
    if dontStop then rescue (vagrantCmd inspect ok cmd box type) fun _ => putsContinuing cmd
    else vagrantCmd inspect ok cmd box type

/-- The lines of a file, split. -/
def splitLines (content : Text) : List Box := (lines content).map fun line => .words (split line)

/-- The boxes of a file, or those of the type. -/
def boxesOf (file : Option Text) (type : Text) : Option (List Box) :=
  match file with
  | some content => some (splitLines content)
  | none => (ALL_BOXES.lookup type).map fun names => names.map .name

/-- `vagrant_cmd_all`. -/
def vagrantCmdAll (etc : Etc) (cmd type : Text) (dontStop : Bool) : Script PUnit := do
  let _boxes := boxesOf etc.boxes type
  -- the variable is assigned once more, whether or not there is a second file
  let boxes := boxesOf etc.containers type
  if boxes.isNone then
    throw (.argumentError ("Box list ".toList ++ (type ++ " does not exist".toList)))
  vagrantCmdList inspect ok cmd boxes type dontStop

/-! ## What is configured -/

/-- The boxes a file lists. -/
def listed (content : Text) : List Text := (lines content).flatMap split

/-- The boxes of the type, none for a type without. -/
def defaults (type : Text) : List Text := (ALL_BOXES.lookup type).getD []

/-- **The configured boxes**: those of the first file, or of the type, and then those of the second. -/
def configured (etc : Etc) (type : Text) : List Text :=
  (etc.boxes.map listed).getD (defaults type) ++ (etc.containers.map listed).getD []

/-- The commands that are to be run: all of them, or those up to the first that fails. -/
def expected (dontStop : Bool) (commands : List Text) : List Text :=
  if dontStop then commands
  else commands.take (((List.range commands.length).takeWhile ok).length + 1)

/-- **Box commands act on the configured boxes**, in order and each once, whichever commands fail. -/
def Meets (etc : Etc) (type : Text) : Prop :=
  ∀ (ok : Nat → Bool) (cmd : Text) (dontStop : Bool),
    (run (vagrantCmdAll inspect ok etc cmd type dontStop) ⟨[], []⟩).2.ran =
      expected ok dontStop ((configured etc type).map (command cmd type))

/-- The names the loop works with. -/
def reached (etc : Etc) (type : Text) : List Text :=
  match etc.containers with
  | none => defaults type
  | some content => (lines content).map fun line => (Box.words (split line)).toS inspect

/-! ## The loop -/

variable {inspect} {ok} {cmd type : Text}

/-- A command is run, whether or not it fails. -/
theorem run_sh (c : Text) (s : State) : run (sh ok c) s =
    (if ok s.ran.length then .ok ⟨⟩ else .error (.commandFailed c), { s with ran := s.ran ++ [c] }) := by
  unfold sh
  cases hok : ok s.ran.length <;> simp [run_bind, ensure, hok]

/-- The command of a box, with its failure caught. -/
theorem run_rescued (box : Box) (s : State) : ∃ printed,
    run (rescue (vagrantCmd inspect ok cmd box type) fun _ => putsContinuing cmd : Script PUnit) s =
      (.ok ⟨⟩, ⟨s.ran ++ [command cmd type (box.toS inspect)], printed⟩) := by
  have hsh : run (vagrantCmd inspect ok cmd box type) s = _ := run_sh _ s
  cases hok : ok s.ran.length with
  | true =>
    rw [hok, if_pos rfl] at hsh
    exact ⟨_, run_rescue_of_returns hsh⟩
  | false =>
    rw [hok, if_neg Bool.false_ne_true] at hsh
    exact ⟨_, run_rescue_of_error hsh⟩

/-- The first of the commands to be run, and whether others follow. -/
theorem expected_cons (dontStop : Bool) (c : Text) (commands : List Text) :
    expected ok dontStop (c :: commands) =
      c :: if dontStop || ok 0 then expected (fun i => ok (i + 1)) dontStop commands else [] := by
  cases dontStop with
  | true => rfl
  | false =>
    simp only [expected, List.length_cons, List.range_succ_eq_map, List.takeWhile_cons, Bool.false_or]
    cases hok : ok 0 with
    | false => simp
    | true => simp [List.takeWhile_map, Function.comp_def]

/-- **The loop** runs what is to be run for its boxes. -/
theorem vagrantCmdList_ran (boxes : List Box) (dontStop : Bool) (s : State) :
    (run (vagrantCmdList inspect ok cmd (some boxes) type dontStop) s).2.ran =
      s.ran ++ expected (fun i => ok (s.ran.length + i)) dontStop
        (boxes.map fun box => command cmd type (box.toS inspect)) := by
  unfold vagrantCmdList
  induction boxes generalizing s with
  | nil => cases dontStop <;> simp [expected]
  | cons box boxes ih =>
    simp only [List.forM_eq_forM] at ih ⊢
    rw [List.forM_cons, run_bind, List.map_cons, expected_cons]
    have hnext : ∀ printed, (fun i => ok (s.ran.length + (i + 1))) = fun i =>
        ok ((⟨s.ran ++ [command cmd type (box.toS inspect)], printed⟩ : State).ran.length + i) := by
      intro printed
      funext i
      rw [List.length_append, List.length_singleton, Nat.add_assoc, Nat.add_comm 1 i]
    cases dontStop with
    | true =>
      obtain ⟨printed, hrun⟩ := @run_rescued inspect ok cmd type box s
      rw [if_pos rfl, hrun]
      dsimp only
      rw [ih, hnext printed]
      simp
    | false =>
      rw [if_neg Bool.false_ne_true, vagrantCmd, run_sh]
      cases hok : ok s.ran.length with
      | true =>
        rw [if_pos rfl]
        dsimp only
        rw [ih, hnext s.printed]
        simp
      | false => simp

/-! ## The boxes -/

variable {etc : Etc}

/-- The boxes the loop goes through have these names. -/
theorem map_toS_boxesOf : ((boxesOf etc.containers type).getD []).map (Box.toS inspect) =
    reached inspect etc type := by
  rw [reached]
  cases etc.containers with
  | some content =>
    rw [boxesOf, Option.getD_some, splitLines, List.map_map]
    rfl
  | none =>
    rw [boxesOf, defaults]
    cases ALL_BOXES.lookup type with
    | none => rfl
    | some names =>
      rw [Option.map_some, Option.getD_some, List.map_map, Option.getD_some]
      exact List.map_id names

/-- **The function** runs what is to be run for the names it reaches. -/
theorem vagrantCmdAll_ran (dontStop : Bool) :
    (run (vagrantCmdAll inspect ok etc cmd type dontStop) ⟨[], []⟩).2.ran =
      expected ok dontStop ((reached inspect etc type).map (command cmd type)) := by
  have hnil : expected ok dontStop [] = [] := by cases dontStop <;> rfl
  rw [← map_toS_boxesOf, List.map_map]
  unfold vagrantCmdAll
  cases hboxes : boxesOf etc.containers type with
  | none => simp [hnil]
  | some boxes =>
    have hloop := @vagrantCmdList_ran inspect ok cmd type boxes dontStop ⟨[], []⟩
    simpa [run_bind, Function.comp_def] using hloop

/-- The command tells the box. -/
theorem command_injective (cmd type : Text) : Function.Injective (command cmd type) := by
  intro a b h
  exact List.append_cancel_right (List.append_cancel_left h)

/-- Box commands act on the configured boxes iff these are the names that are reached. -/
theorem meets_iff_reached : Meets inspect etc type ↔ reached inspect etc type = configured etc type := by
  constructor
  · intro h
    have hall := h (fun _ => true) "up".toList true
    rw [vagrantCmdAll_ran] at hall
    exact List.map_injective_iff.mpr (command_injective "up".toList type) hall
  · intro h ok cmd dontStop
    rw [vagrantCmdAll_ran, h]

/-- **Box commands act on the configured boxes** exactly when there is no second file and the first, if
there is one, lists the default boxes, or when the lines of the second, printed as arrays, are what both
list. With names that do not look like arrays that is only so when nothing is listed. -/
theorem runs_configured_iff (inspect : Text → Text) (etc : Etc) (type : Text) :
    (Meets inspect etc type ↔ match etc.containers with
      | none => ∀ content, etc.boxes = some content → listed content = defaults type
      | some content => ((lines content).map fun line => (Box.words (split line)).toS inspect) =
          configured etc type) ∧
    ∀ content, etc.containers = some content → (∀ box ∈ configured etc type, box.head? ≠ some '[') →
      (Meets inspect etc type ↔ content = [] ∧ configured etc type = []) := by
  constructor
  · rw [meets_iff_reached, reached]
    cases hcontainers : etc.containers with
    | some content => exact Iff.rfl
    | none =>
      dsimp only
      rw [configured, hcontainers, Option.map_none, Option.getD_none, List.append_nil]
      cases hboxes : etc.boxes with
      | none => simp
      | some content => simp [eq_comm]
  · intro content hcontainers hplain
    rw [meets_iff_reached, reached, hcontainers]
    dsimp only
    constructor
    · intro h
      cases hlines : lines content with
      | nil =>
        have hcontent : content = [] := by
          by_contra hne
          exact lines_ne_nil hne hlines
        rw [hlines] at h
        exact ⟨hcontent, h.symm⟩
      | cons line rest =>
        -- the first line is printed with a bracket in front
        rw [hlines, List.map_cons] at h
        have hmem : (Box.words (split line)).toS inspect ∈ configured etc type := by
          rw [← h]
          exact List.mem_cons_self
        exact absurd rfl (hplain _ hmem)
    · rintro ⟨rfl, h⟩
      rw [h, lines_nil]
      rfl

/-- The default boxes, listed in two lines. -/
theorem meets_defaults : Meets id
    ⟨some "files dns openvpn\nrabbit proxy webproxy api\n".toList, none⟩ "main".toList :=
  (runs_configured_iff id ⟨some "files dns openvpn\nrabbit proxy webproxy api\n".toList, none⟩ "main".toList).1.mpr
    (by rintro content ⟨⟩; decide)

/-- Destroying the one box that is listed destroys all of the type, whatever fails. -/
theorem destroys_unlisted : ¬Meets id ⟨some "dns\n".toList, none⟩ "prod".toList ∧
    command "destroy -f".toList "prod".toList "rabbit".toList ∈
      (run (vagrantCmdAll id (fun _ => false) ⟨some "dns\n".toList, none⟩ "destroy -f".toList "prod".toList
        true) ⟨[], []⟩).2.ran := by
  constructor
  · intro h
    exact absurd (h (fun _ => false) "destroy -f".toList true) (by decide)
  · decide

end GexCloud.Boxes
