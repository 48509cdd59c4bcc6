import GexCloud.Base.Ruby
import GexCloud.Support.Runs
import Mathlib.Logic.Function.Basic

/-! # `docker_utils.rb` and `file_utils.rb`: files in and out of a container

`docker cp` between the host and the container, through a temporary file on the host whose name is
derived from the path inside the container. The Ruby scripts and the Chef cookbook derive it
differently (`getTmpName`, `Chef.getTmpName`) and otherwise share the code. -/

namespace GexCloud

open Texts

/-- The files of the host and those of the container. -/
structure World where
  host : Files
  container : Files

/-- `filename.gsub('/', '_')`. -/
def mangle (filename : Text) : Text := filename.map fun c => if c = '/' then '_' else c

/-- The value of `get_tmp_name` when `$container` is `container`. -/
def tmpName (container filename : Text) : Text := "/tmp/".toList ++ container ++ mangle filename

/-- The assertion of `get_tmp_name`. -/
def assertNoSlash (filename : Text) : Except RubyError Unit :=
  assert (filename.getLast? != some '/') ("Path ends with slash ".toList ++ filename)

/-- `get_tmp_name`. -/
def getTmpName (container filename : Text) : Except RubyError Text := do
  assertNoSlash filename
  return tmpName container filename

/-- `dcp_reverse`: `docker cp container:src dst`. -/
def dcpReverse (container src dst : Text) (w : World) : Except RubyError World :=
  match w.container src with
  | none =>
    .error (.commandFailed ("docker cp ".toList ++ container ++ ":".toList ++ src ++ " ".toList ++ dst))
  | some content => .ok { w with host := Function.update w.host dst (some content) }

/-- The destinations `dcp` refuses. -/
def refused (dst : Text) : Bool :=
  decide ("hadoop-master".toList <:+: dst) || decide ("hue-master".toList <:+: dst)

/-- `dcp`: `docker cp src container:dst`. -/
def dcp (container src dst : Text) (w : World) : Except RubyError World := do
  assert (!refused dst) "Assert failed".toList
  match w.host src with
  | none =>
    .error (.commandFailed ("docker cp '".toList ++ src ++ "' '".toList ++ container ++ ":".toList ++
      dst ++ "'".toList))
  | some content => .ok { w with container := Function.update w.container dst (some content) }

/-- `xpull` with the given naming of temporary files: the path of a host copy of the file. -/
def xpullWith (tmp : Text → Text → Except RubyError Text) (filename : Text) (container : Option Text)
    (w : World) : Except RubyError (Text × World) :=
  match container with
  | none => .ok (filename, w)
  | some c => do
    let tmpfile ← tmp c filename
    let w ← dcpReverse c filename tmpfile w
    return (tmpfile, w)

/-- `xpush` with the given naming of temporary files. -/
def xpushWith (tmp : Text → Text → Except RubyError Text) (filename : Text) (container : Option Text)
    (w : World) : Except RubyError World :=
  match container with
  | none => .ok w
  | some c => do
    let tmpfile ← tmp c filename
    assert (w.host tmpfile).isSome ("File ".toList ++ tmpfile ++ " does not exist".toList)
    dcp c tmpfile filename w

/-- `xpush`. -/
def xpush : Text → Option Text → World → Except RubyError World := xpushWith getTmpName

/-- `get_tmp_name` succeeds on a path without trailing slash. -/
theorem getTmpName_eq_ok_iff {container filename tmpfile : Text} :
    getTmpName container filename = .ok tmpfile ↔
      filename.getLast? ≠ some '/' ∧ tmpName container filename = tmpfile := by
  by_cases h : filename.getLast? = some '/' <;>
    simp [getTmpName, assertNoSlash, assert, h, bind, Except.bind, pure, Except.pure]

/-- `dcp_reverse` copies an existing file of the container to the host. -/
theorem dcpReverse_eq_ok_iff {container src dst : Text} {w w' : World} :
    dcpReverse container src dst w = .ok w' ↔ ∃ content, w.container src = some content ∧
      w' = { w with host := Function.update w.host dst (some content) } := by
  cases h : w.container src <;> simp [dcpReverse, h, eq_comm]

/-- `xpullWith` copies the file out under its temporary name. -/
theorem xpullWith_eq_ok_iff {tmp : Text → Text → Except RubyError Text}
    {container filename tmpfile : Text} {w w' : World} :
    xpullWith tmp filename (some container) w = .ok (tmpfile, w') ↔
      tmp container filename = .ok tmpfile ∧ ∃ content, w.container filename = some content ∧
        w' = { w with host := Function.update w.host tmpfile (some content) } := by
  simp only [xpullWith, Runs.bind_eq_ok_iff, dcpReverse_eq_ok_iff]
  constructor
  · rintro ⟨t, ht, v, ⟨content, hc, rfl⟩, hv⟩
    obtain ⟨rfl, rfl⟩ := Prod.mk.inj (Except.ok.inj hv)
    exact ⟨ht, content, hc, rfl⟩
  · rintro ⟨ht, content, hc, rfl⟩
    exact ⟨tmpfile, ht, _, ⟨content, hc, rfl⟩, rfl⟩

/-- `xpush` copies the temporary file into the container. -/
theorem xpush_eq_ok {container filename content : Text} {w : World}
    (hslash : filename.getLast? ≠ some '/') (hrefused : refused filename = false)
    (hhost : w.host (tmpName container filename) = some content) :
    xpush filename (some container) w =
      .ok { w with container := Function.update w.container filename (some content) } := by
  simp [xpush, xpushWith, getTmpName, assertNoSlash, assert, dcp, hslash, hrefused, hhost, bind,
    Except.bind, pure, Except.pure]

end GexCloud
