import GexCloud.Support.Texts
import Mathlib.Logic.Function.Basic

/-! # Trees of files

A tree of files maps a path to what is there: a directory, a regular file or a symbolic link. The
operations are the shell's; an operation that reports failure has no result.

* `Within` — a path at another one or below it.
* `mkdirP`, `write`, `rmF`, `rmRf` — `mkdir -p`, writing a file, `rm -f`, `rm -rf`.
* **`Keeps`** — what was there before an operation is there after it, and is what it was. -/

namespace FileTree

open Texts

/-- What is at a path. -/
inductive Node
  | directory
  | file (content : Text)
  | link (target : Text)
  deriving DecidableEq

/-- A regular file. -/
def Node.isFile : Node → Bool
  | .file _ => true
  | _ => false

/-- A tree of files. -/
abbrev Tree := Text → Option Node

/-- The path `q` is `path` or below it. -/
def Within (path q : Text) : Prop := q = path ∨ path ++ ['/'] <+: q

instance (path q : Text) : Decidable (Within path q) := by unfold Within; infer_instance

/-- A path is no longer than those within it. -/
theorem Within.length_le {path q : Text} (h : Within path q) : path.length ≤ q.length := by
  rcases h with rfl | h
  · exact Nat.le_refl _
  · have := h.length_le
    rw [List.length_append] at this
    omega

/-- Paths within a directory, below another one. -/
theorem within_append_iff {dir p q : Text} : Within (dir ++ p) (dir ++ q) ↔ Within p q := by
  rw [Within, Within, List.append_right_inj, List.append_assoc, List.prefix_append_right_inj]

/-- A path with the directories above it. -/
def ancestors (path : Text) : List Text :=
  path.inits.filter fun a => !a.isEmpty && decide (Within a path)

/-- A path begins with the one that it is within. -/
theorem Within.isPrefix {path q : Text} (h : Within path q) : path <+: q := by
  rcases h with rfl | h
  · exact List.prefix_refl _
  · exact (List.prefix_append path ['/']).trans h

/-- A path above a place in a directory is above the directory or in it. -/
theorem within_or_within {a dir rest : Text} (h : Within a (dir ++ '/' :: rest)) : Within a dir ∨ Within dir a := by
  rcases h with rfl | h
  · exact .inr (.inr ⟨rest, by simp⟩)
  · rcases List.prefix_or_prefix_of_prefix h (List.prefix_append dir ('/' :: rest)) with hdir | hdir
    · exact .inl (.inr hdir)
    · rcases List.prefix_concat_iff.mp hdir with rfl | ⟨x, rfl⟩
      · exact .inl (.inr (List.prefix_refl _))
      · -- what lies between the two begins with the slash
        rw [List.append_assoc, List.prefix_append_right_inj] at h
        cases x with
        | nil => exact .inr (.inl (List.append_nil dir))
        | cons ch x =>
          obtain ⟨rfl, -⟩ := List.cons_prefix_cons.mp h
          exact .inr (.inr ⟨x, by simp⟩)

/-- The ancestors of a path are those it is within. -/
theorem mem_ancestors_iff {a path : Text} : a ∈ ancestors path ↔ a ≠ [] ∧ Within a path := by
  rw [ancestors, List.mem_filter, Bool.and_eq_true, decide_eq_true_eq, List.mem_inits, Bool.not_eq_true',
    List.isEmpty_eq_false_iff]
  exact and_iff_right_of_imp fun h => h.2.isPrefix

/-- A path is among its ancestors. -/
theorem self_mem_ancestors {path : Text} (h : path ≠ []) : path ∈ ancestors path :=
  mem_ancestors_iff.mpr ⟨h, .inl rfl⟩

/-- The directory of a path: what stands before the last slash. -/
def parent (path : Text) : Text := ((path.reverse.dropWhile (· != '/')).drop 1).reverse

/-- `mkdir -p path`: every directory of the path that is missing is made. It fails when a file is in the
way, or when there is no path. -/
def mkdirP (path : Text) (t : Tree) : Option Tree :=
  if path = [] ∨ (ancestors path).any (fun a => (t a).any Node.isFile) then none
  else some fun q => if q ∈ ancestors path ∧ t q = none then some .directory else t q

/-- A file is written, in place of the file that may be there. -/
def write (path content : Text) (t : Tree) : Option Tree :=
  if (parent path = [] ∨ t (parent path) = some .directory) ∧ t path ≠ some .directory then
    some (Function.update t path (some (.file content)))
  else none

/-- `rm -f path`. It fails on a directory. -/
def rmF (path : Text) (t : Tree) : Option Tree :=
  if t path = some .directory then none else some (Function.update t path none)

/-- `rm -rf path`. -/
def rmRf (path : Text) (t : Tree) : Tree := fun q => if Within path q then none else t q

/-- What a path leads to when at most this many links are followed. -/
def follow : Nat → Tree → Text → Option Node
  | 0, _, _ => none
  | n + 1, t, path =>
    match t path with
    | some (.link target) => follow n t target
    | node => node

/-- The number of links that are followed. -/
def maxLinks : Nat := 40

/-- The path leads to a regular file. -/
def isRegular (t : Tree) (path : Text) : Bool := (follow maxLinks t path).any Node.isFile

/-- The path leads to a directory. -/
def isDirectory (t : Tree) (path : Text) : Bool := decide (follow maxLinks t path = some .directory)

/-- `unlink path`. It fails on a directory and where there is nothing. -/
def unlink (path : Text) (t : Tree) : Option Tree :=
  if t path = none ∨ t path = some .directory then none else some (Function.update t path none)

/-- `rmdir path` of an empty directory. -/
def rmdir (path : Text) (t : Tree) : Option Tree :=
  if t path = some .directory then some (Function.update t path none) else none

/-- The last component of a path. -/
def baseName (path : Text) : Text := (path.reverse.takeWhile (· != '/')).reverse

/-- `ln -s target path`. In an existing directory the link is made inside. -/
def lnS (target path : Text) (t : Tree) : Option Tree :=
  match t path with
  | none => some (Function.update t path (some (.link target)))
  | some .directory =>
    let inside := path ++ '/' :: baseName target
    if t inside = none then some (Function.update t inside (some (.link target))) else none
  | some _ => none

variable {path content q : Text} {t t' : Tree}

/-! ## What the operations keep -/

/-- What `t` has, `t'` has as well. -/
def Keeps (t t' : Tree) : Prop := ∀ q, t q ≠ none → t' q ≠ none

/-- A tree keeps what it has. -/
theorem Keeps.refl (t : Tree) : Keeps t t := fun _ h => h

/-- What two changes keep, they keep together. -/
theorem Keeps.trans {t₁ t₂ t₃ : Tree} (h₁ : Keeps t₁ t₂) (h₂ : Keeps t₂ t₃) : Keeps t₁ t₃ :=
  fun q h => h₂ q (h₁ q h)

/-- Making directories changes nothing that was there. -/
theorem mkdirP_apply (h : mkdirP path t = some t') (hq : t q ≠ none) : t' q = t q := by
  unfold mkdirP at h
  split at h
  · cases h
  · cases h
    simp [hq]

/-- Making directories makes nothing else. -/
theorem mkdirP_apply_or (h : mkdirP path t = some t') : t' q = t q ∨ t' q = some .directory := by
  unfold mkdirP at h
  split at h
  · cases h
  · cases h
    by_cases hq : q ∈ ancestors path ∧ t q = none
    · exact .inr (if_pos hq)
    · exact .inl (if_neg hq)

/-- A directory that was made is there. -/
theorem mkdirP_self (h : mkdirP path t = some t') : t' path ≠ none := by
  unfold mkdirP at h
  split at h
  · cases h
  · rename_i hpath
    rw [not_or] at hpath
    cases h
    by_cases hnone : t path = none
    · simp [self_mem_ancestors hpath.1, hnone]
    · simp [hnone]

/-- A directory that was missing is made. -/
theorem mkdirP_self_of_none (h : mkdirP path t = some t') (hnone : t path = none) :
    t' path = some .directory :=
  (mkdirP_apply_or h).resolve_left fun heq => mkdirP_self h (heq.trans hnone)

/-- Nothing is made but the directories of the path. -/
theorem mkdirP_apply_of_not_mem (h : mkdirP path t = some t') (hq : q ∉ ancestors path) : t' q = t q := by
  unfold mkdirP at h
  split at h
  · cases h
  · cases h
    exact if_neg fun hmem => hq hmem.1

/-- Directories are made where no file is in the way. -/
theorem mkdirP_eq_some_iff : (∃ t', mkdirP path t = some t') ↔
    path ≠ [] ∧ ∀ a ∈ ancestors path, (t a).any Node.isFile = false := by
  unfold mkdirP
  split
  · rename_i h
    refine ⟨fun ⟨_, hnone⟩ => (nomatch hnone), fun ⟨hpath, hfile⟩ => ?_⟩
    rcases h with h | h
    · exact absurd h hpath
    · obtain ⟨a, ha, hany⟩ := List.any_eq_true.mp h
      rw [hfile a ha] at hany
      cases hany
  · rename_i h
    rw [not_or, List.any_eq_true] at h
    refine ⟨fun _ => ⟨h.1, fun a ha => ?_⟩, fun _ => ⟨_, rfl⟩⟩
    rw [← Bool.not_eq_true]
    exact fun hany => h.2 ⟨a, ha, hany⟩

/-- Writing a file leaves the other paths. -/
theorem write_eq_some_iff : write path content t = some t' ↔
    ((parent path = [] ∨ t (parent path) = some .directory) ∧ t path ≠ some .directory) ∧
      t' = Function.update t path (some (.file content)) := by
  unfold write
  split
  · rename_i h
    simp [h, eq_comm]
  · rename_i h
    simp [h]

/-- New directories take nothing away. -/
theorem mkdirP_keeps (h : mkdirP path t = some t') : Keeps t t' := by
  intro q hq
  rwa [mkdirP_apply h hq]

/-- Nor does a file that is written. -/
theorem write_keeps (h : write path content t = some t') : Keeps t t' := by
  obtain ⟨-, rfl⟩ := write_eq_some_iff.mp h
  intro q hq
  by_cases hqp : q = path
  · simp [hqp]
  · rwa [Function.update_of_ne hqp]

/-- `rm -f` fails exactly on a directory, and empties the path. -/
theorem rmF_eq_some_iff : rmF path t = some t' ↔
    t path ≠ some .directory ∧ t' = Function.update t path none := by
  unfold rmF
  split
  · rename_i h
    simp [h]
  · rename_i h
    simp [h, eq_comm]

/-- A link where a path has been emptied. -/
theorem lnS_update_none (target path : Text) (t : Tree) :
    lnS target path (Function.update t path none) = some (Function.update t path (some (.link target))) := by
  rw [lnS, Function.update_self, Function.update_idem]

/-- `rm -rf` leaves what is not within its path. -/
theorem rmRf_of_not_within (h : ¬ Within path q) : rmRf path t q = t q := if_neg h

/-- What is missing stays missing. -/
theorem rmRf_none (h : t q = none) : rmRf path t q = none := by
  unfold rmRf
  split
  · rfl
  · exact h

end FileTree
