import GexCloud.Base.TemplateTree
import GexCloud.Support.Scripts

/-! # `process_template_iterate`: a template for each item of a list

A template `P.key.iterate` is to be installed once for each item of the list that the variable `key` holds,
with `@item` bound to it. `template_utils.rb` and the Chef library share the function; the store of
variables it asks (`ansible_utils.rb`) is not loaded in the cookbook.

* `processTemplateIterate`, `Chef.processTemplateIterate` — the function.
* `rendered` — the file an item stands for.
* **`processTemplateIterate_iff`** — the function does what it is for only where there is nothing to do, and
  then only if a variable `.key` is defined: `var_exists?` asks for the opposite, and the key has the dot of
  the extension. -/

namespace GexCloud.Iteration

open Texts Scripts

/-! ## File names -/

/-- `File.extname`, the dot included; a dot at the start or the end of the name makes none. -/
def extname (path : Text) : Text :=
  let base := path.rtakeWhile (· != '/')
  let body := base.dropWhile (· == '.')
  match body.rtakeWhile (· != '.') with
  | [] => []
  | e => if '.' ∈ body then '.' :: e else []

/-- Text without the letter behind one is what is taken from the end. -/
theorem rtakeWhile_append_cons {c : Char} {b : Text} (hb : c ∉ b) (a : Text) :
    (a ++ c :: b).rtakeWhile (· != c) = b := by
  have hsplit : a ++ c :: b = (a ++ [c]) ++ b := by rw [List.append_assoc, List.singleton_append]
  have hall : ∀ x ∈ b.reverse, (x != c) = true := by
    intro x hx
    have hne : x ≠ c := by
      rintro rfl
      exact hb (List.mem_reverse.mp hx)
    simpa using hne
  rw [List.rtakeWhile, hsplit, List.reverse_append, List.reverse_append, List.reverse_singleton,
    List.takeWhile_append_of_pos hall, List.singleton_append, List.takeWhile_cons_of_neg (by simp),
    List.append_nil, List.reverse_reverse]

/-- The extension of a file named after a key, behind an `.erb`. -/
theorem extname_key {p key : Text} (hp : ".erb".toList <:+ p) (hne : key ≠ []) (hdot : '.' ∉ key)
    (hslash : '/' ∉ key) : extname (p ++ '.' :: key) = '.' :: key := by
  obtain ⟨front, rfl⟩ := hp
  obtain ⟨base, hbase, y, hy⟩ : ∃ base,
      (front ++ ".erb".toList ++ '.' :: key).rtakeWhile (· != '/') = base ∧
      ∃ y, base = y ++ (".erb".toList ++ '.' :: key) := by
    refine ⟨_, rfl, front.rtakeWhile (· != '/'), ?_⟩
    have hall : ∀ x ∈ (".erb".toList ++ '.' :: key).reverse, (x != '/') = true := by
      intro x hx
      have hx' : x ∈ ".erb".toList ∨ x = '.' ∨ x ∈ key := by
        rwa [List.mem_reverse, List.mem_append, List.mem_cons] at hx
      obtain hx' | rfl | hx' := hx'
      · exact List.all_eq_true.mp (by decide : ".erb".toList.all (· != '/')) x hx'
      · decide
      · have hne : x ≠ '/' := by
          rintro rfl
          exact hslash hx'
        simpa using hne
    rw [List.rtakeWhile, List.append_assoc, List.reverse_append, List.takeWhile_append_of_pos hall,
      List.reverse_append, List.reverse_reverse]
    rfl
  have hbody : ∃ z, base.dropWhile (· == '.') = z ++ '.' :: key := by
    rw [hy, List.dropWhile_append]
    split
    · exact ⟨"erb".toList, rfl⟩
    · exact ⟨y.dropWhile (· == '.') ++ ".erb".toList, by rw [List.append_assoc]⟩
  obtain ⟨z, hz⟩ := hbody
  obtain ⟨c, rest, rfl⟩ := List.exists_cons_of_ne_nil hne
  simp only [extname, hbase, hz, rtakeWhile_append_cons hdot]
  rw [if_pos (by simp)]

/-! ## The code -/

variable {α : Type}

/-- A variable of the store. -/
inductive Variable (α : Type)
  | list (items : List α)
  | single (value : α)

/-- `$vars`, and what the processor calls outside the scripts. -/
structure Store (α : Type) where
  vars : Text → Option (Variable α)
  /-- `$vars.inspect`. -/
  inspect : Text
  /-- `ERB.new(template, nil, '-').result(binding)` for a value of `@item`; `none` when it raises. -/
  result : Option α → Text → Option Text

/-- An `ERBProcessor`: the instance variable `@item`, and the files created so far. -/
structure Processor (α : Type) where
  item : Option α
  created : List Job

/-- A script that works with the processor. -/
abbrev Script (α : Type) := Scripts.Script RubyError (Processor α)

variable (E : Store α)

/-- `var_exists?`, which holds when there is no such variable. -/
def varExists (var : Text) : Bool := (E.vars var).isNone

/-- `get_array`. -/
def getArray (var : Text) : Except RubyError (Variable α) :=
  match E.vars var with
  | none => .error (.exception ("No such variable ".toList ++ (var ++ ' ' :: E.inspect)))
  | some value => .ok value

/-- What `erb_process_string` gives. -/
def render (item : Option α) (template : Text) : Option Text :=
  if '<' ∈ template then E.result item template else some template

/-- `erb_process_string`. -/
def erbProcessString (template : Text) : Script α Text := do
  let p ← get
  orThrow (.exception ("Could not process template ".toList ++ template)) (render E p.item template)

/-- `process_template_file`, the file created. -/
def processTemplateFile (file tDir contents : Text) : Script α PUnit := do
  let dest ← erbProcessString E (sliceFirst tDir file)
  let final ← erbProcessString E contents
  modify fun p => { p with created := p.created ++ [⟨chomp ".erb".toList dest, final⟩] }

/-- `process_template_dir`, which creates no file. -/
def processTemplateDir (dir tDir : Text) : Script α PUnit := do
  let _ ← erbProcessString E (sliceFirst tDir (chomp "/_dir.erb".toList dir))
  return

/-- The body of the loop of `process_template_iterate`. -/
def iterateItem (file tDir contents : Text) (item : α) : Script α PUnit := do
  modify fun p => { p with item := some item }
  -- `file.extname(f)`, where `f` is neither a variable nor a method
  let e ← (throw (.exception "NameError".toList) : Script α Text)
  if e = "erb".toList then
    if "/_dir.erb".toList <:+ file then processTemplateDir E (chomp "/dir".toList file) tDir
    else processTemplateFile E file tDir contents
  -- `process_plain_file` is not defined
  else if e = "plain".toList then throw .noMethodError
  else throw (.exception "Illegal file name item".toList)
  modify fun p => { p with item := none }

/-- `process_template_iterate`, the two functions that it asks the store with given. -/
def iterateWith (exists? : Text → Except RubyError Bool) (array : Text → Except RubyError (Variable α))
    (templateFile tDir contents : Text) : Script α PUnit := do
  let templateFile := chomp ".iterate".toList templateFile
  let ext := extname templateFile
  let file := chomp ext templateFile
  if ← lift (exists? ext) then
    match ← lift (array ext) with
    | .list items => items.forM (iterateItem E file tDir contents)
    | .single _ => throw .noMethodError

/-- `process_template_iterate` of `template_utils.rb`. -/
def processTemplateIterate : Text → Text → Text → Script α PUnit :=
  iterateWith E (fun var => .ok (varExists E var)) (getArray E)

/-- `process_template_iterate` of the Chef library, where the functions that ask the store are not defined. -/
def Chef.processTemplateIterate : Text → Text → Text → Script α PUnit :=
  iterateWith E (fun _ => .error .noMethodError) fun _ => .error .noMethodError

/-! ## What it is for -/

/-- The file of a template `p.key.iterate`. -/
def iterateFile (p key : Text) : Text := p ++ '.' :: (key ++ ".iterate".toList)

/-- The file an item stands for. -/
def rendered (p tDir contents : Text) (item : α) : Option Job := do
  let dest ← render E (some item) (sliceFirst tDir p)
  let final ← render E (some item) contents
  return ⟨chomp ".erb".toList dest, final⟩

/-- **What the function is for**: it goes through, creates these files in this order, and leaves `@item`
unbound. -/
def Expands (m : Script α PUnit) (before : Processor α) (jobs : List Job) : Prop :=
  run m before = (.ok ⟨⟩, ⟨none, before.created ++ jobs⟩)

variable {E}

/-- The name without `.iterate`. -/
theorem chomp_iterateFile (p key : Text) : chomp ".iterate".toList (iterateFile p key) = p ++ '.' :: key := by
  have hfile : iterateFile p key = (p ++ '.' :: key) ++ ".iterate".toList := by
    rw [iterateFile, List.append_assoc, List.cons_append]
  rw [hfile, chomp_append]

/-- **A run**: the function returns where the variable it asks for is defined, and raises where it is not. -/
theorem run_processTemplateIterate (p key tDir contents : Text) (before : Processor α) :
    run (processTemplateIterate E (iterateFile p key) tDir contents) before =
      if (E.vars (extname (p ++ '.' :: key))).isSome then (.ok ⟨⟩, before)
      else (.error (.exception ("No such variable ".toList ++
        (extname (p ++ '.' :: key) ++ ' ' :: E.inspect))), before) := by
  unfold processTemplateIterate iterateWith varExists getArray
  rw [chomp_iterateFile]
  cases hvar : E.vars (extname (p ++ '.' :: key)) with
  | none => simp only [hvar]; rfl
  | some value => simp only [hvar]; rfl

/-- It expands a template exactly where it is asked for no file and returns. -/
theorem expands_iff {p key tDir contents : Text} {before : Processor α} {jobs : List Job} :
    Expands (processTemplateIterate E (iterateFile p key) tDir contents) before jobs ↔
    (E.vars (extname (p ++ '.' :: key))).isSome = true ∧ before.item = none ∧ jobs = [] := by
  obtain ⟨item, created⟩ := before
  rw [Expands, run_processTemplateIterate]
  by_cases hvar : (E.vars (extname (p ++ '.' :: key))).isSome = true
  · simp [hvar]
  · simp [hvar]

/-- **Iterated templates** are expanded exactly where there is nothing to expand, the variable that is asked
for, of the name with the dot, is defined, and `@item` was not bound; the one of the cookbook never is. -/
theorem processTemplateIterate_iff (E : Store α) (p key tDir contents : Text) (before : Processor α) :
    (∀ items jobs, E.vars key = some (.list items) →
      items.mapM (rendered E p tDir contents) = some jobs → (jobs.map Job.dest).Nodup →
      (Expands (processTemplateIterate E (iterateFile p key) tDir contents) before jobs ↔
        (E.vars (extname (p ++ '.' :: key))).isSome = true ∧ before.item = none ∧ items = [])) ∧
    (E.vars key = none →
      (Expands (processTemplateIterate E (iterateFile p key) tDir contents) before [] ↔
        (E.vars (extname (p ++ '.' :: key))).isSome = true ∧ before.item = none)) ∧
    (∀ jobs, ¬Expands (Chef.processTemplateIterate E (iterateFile p key) tDir contents) before jobs) ∧
    (".erb".toList <:+ p → key ≠ [] → '.' ∉ key → '/' ∉ key → extname (p ++ '.' :: key) = '.' :: key) := by
  refine ⟨fun items jobs _ hjobs _ => ?_, fun _ => ?_, fun jobs h => ?_, extname_key⟩
  · have hempty : jobs = [] ↔ items = [] := by
      constructor
      · rintro rfl
        cases items with
        | nil => rfl
        | cons item items =>
          obtain ⟨_, -, hrest⟩ := Option.bind_eq_some_iff.mp (List.mapM_cons.symm.trans hjobs)
          obtain ⟨_, -, hcons⟩ := Option.bind_eq_some_iff.mp hrest
          cases hcons
      · rintro rfl
        exact (Option.some.inj hjobs).symm
    rw [expands_iff, hempty]
  · rw [expands_iff]
    simp
  · have herror : (run (Chef.processTemplateIterate E (iterateFile p key) tDir contents) before).1 =
        .error .noMethodError := rfl
    rw [h] at herror
    cases herror

/-- A store with one variable, and `@item` inserted where it is asked for. -/
def oneVariable (key : Text) (items : List Text) : Store Text where
  vars := fun var => if var = key then some (.list items) else none
  inspect := []
  result := fun item template => some (sub "<%= @item %>".toList (item.getD []) template |>.getD template)

/-- A template for which there are no items, with the variable that is asked for in the store. -/
theorem processTemplateIterate_none : Expands (processTemplateIterate
    (oneVariable ".vhosts".toList []) (iterateFile "/t/site.erb".toList "vhosts".toList) "/t".toList
    "listen 80;".toList) ⟨none, []⟩ [] :=
  ((processTemplateIterate_iff (oneVariable ".vhosts".toList []) "/t/site.erb".toList "vhosts".toList
    "/t".toList "listen 80;".toList ⟨none, []⟩).2.1 rfl).mpr ⟨by decide, rfl⟩

/-- A template for two items: nothing is created. -/
theorem processTemplateIterate_two : ∃ jobs,
    ["a".toList, "b".toList].mapM (rendered (oneVariable "vhosts".toList ["a".toList, "b".toList])
      "/t/<%= @item %>.conf.erb".toList "/t".toList "listen 80;".toList) = some jobs ∧
    (jobs.map Job.dest).Nodup ∧
    ¬Expands (processTemplateIterate (oneVariable "vhosts".toList ["a".toList, "b".toList])
      (iterateFile "/t/<%= @item %>.conf.erb".toList "vhosts".toList) "/t".toList "listen 80;".toList)
      ⟨none, []⟩ jobs := by
  refine ⟨_, rfl, by decide, fun h => ?_⟩
  obtain ⟨hvar, -⟩ := expands_iff.mp h
  exact absurd hvar (by decide)

end GexCloud.Iteration
