import GexCloud.Login.Gexauth
import Mathlib.Algebra.GroupWithZero.Nat

/-! # `gex-login`: the PAM login of a node

The shell script behind the line `auth sufficient pam_exec.so` of `common-auth`. It reads the
password, asks `gexauth.rb` with the unquoted words of its variables, makes the account when the
script exits with 2, and returns 0 or 1 to PAM.

* `commandWords` — the command line the script runs, after field splitting and globbing.
* `gexLogin` — its return value and what it does to the accounts.
* `commonAuth` — the PAM stack the return value decides in.
* **`loginSound_iff`** — exactly when a granted login had a success status behind it.
* **`gexLogin_refused`** — what a refused login can have changed. -/

namespace GexCloud.Login

open Texts

/-! ## The shell -/

/-- The characters `read` takes from its input, each with whether a backslash protected it. -/
def readChars : Text → List (Char × Bool)
  | [] => []
  | ['\\'] => []
  | '\\' :: c :: rest => if c = '\n' then readChars rest else (c, true) :: readChars rest
  | c :: rest => if c = '\n' then [] else (c, false) :: readChars rest

/-- White space of `IFS`. -/
def isIfs (c : Char) : Bool := c == ' ' || c == '\t' || c == '\n'

/-- `read password`: the first line, less the protecting backslashes and the surrounding unprotected
white space. Null bytes are skipped. -/
def shRead (stdin : Text) : Text :=
  (stripBy (fun c => isIfs c.1 && !c.2) (readChars (stdin.filter (· != '\x00')))).map Prod.fst

/-- `${#s}`, which counts bytes. -/
def shLength (s : Text) : Nat := (s.map Char.utf8Size).sum

/-- The fields of an unquoted expansion. -/
def fields (s : Text) : List Text := (s.splitOnP isIfs).filter (· ≠ [])

/-- The words of some unquoted expansions: every field is globbed. -/
def shWords (glob : Text → List Text) (expansions : List Text) : List Text :=
  (expansions.flatMap fields).flatMap glob

/-! ## The script -/

/-- What a login starts from. -/
structure Input where
  pamUser : Text
  stdin : Text
  /-- The output of `hostname`. -/
  hostname : Text
  /-- The pathname expansion of a field in the working directory. -/
  glob : Text → List Text

/-- The system commands on the account database. -/
structure Tools (Db : Type) where
  groupadd : List Text → Db → Db
  useradd : List Text → Db → Db
  usermod : List Text → Db → Db
  /-- Whether `getent passwd` finds something. -/
  getentPasswd : List Text → Db → Bool

/-- The variable `password` when the script is called: a password of one byte stands for `none`. -/
def password (input : Input) : Text :=
  if shLength (shRead input.stdin) = 1 then "none".toList else shRead input.stdin

/-- The arguments of `gexauth.rb`. -/
def commandWords (input : Input) : List Text :=
  shWords input.glob [input.pamUser, password input, input.hostname]

/-- The commands of `gex-login` for a new account. -/
def makeAccount {Db : Type} (tools : Tools Db) (input : Input) (db : Db) : Db :=
  let user := shWords input.glob [input.pamUser]
  let db := tools.groupadd user db
  let db :=
    if tools.getentPasswd user db then db
    else tools.useradd (["-m".toList] ++ user ++ ["-g".toList] ++ user ++
      ["-s".toList, "/bin/bash".toList]) db
  tools.usermod (["-a".toList, "-G".toList, "sudo".toList] ++ user) db

/-- **`gex-login`** with the given script in the place of `gexauth.rb`: the return value and the
account database. -/
def gexLogin {Db : Type} (gexauth : List Text → Nat) (tools : Tools Db) (input : Input) (db : Db) :
    Nat × Db :=
  let ret := gexauth (commandWords input)
  if ret = 1 then (1, db)
  else if ret = 2 then (1, makeAccount tools input db)
  else (0, db)

/-! ## The PAM stack -/

/-- The control of a line of a PAM stack. -/
inductive Control
  | sufficient
  | requisite
  | required
  /-- `[success=n default=ignore]`. -/
  | success (n : Nat)
  deriving DecidableEq

/-- Whether a stack of modules authenticates: `skip` lines are still to be jumped over, and
`impression` is what the lines so far have settled. -/
def pamStack : List (Control × Bool) → Nat → Option Bool → Bool
  | [], _, impression => impression == some true
  | _ :: rest, skip + 1, impression => pamStack rest skip impression
  | (.sufficient, true) :: rest, 0, impression =>
    if impression = some false then pamStack rest 0 impression else true
  | (.sufficient, false) :: rest, 0, impression => pamStack rest 0 impression
  | (.requisite, true) :: rest, 0, impression => pamStack rest 0 (some (impression.getD true))
  | (.requisite, false) :: _, 0, _ => false
  | (.required, true) :: rest, 0, impression => pamStack rest 0 (some (impression.getD true))
  | (.required, false) :: rest, 0, _ => pamStack rest 0 (some false)
  | (.success n, true) :: rest, 0, impression => pamStack rest n impression
  | (.success _, false) :: rest, 0, impression => pamStack rest 0 impression

/-- `common-auth`: `gex-login`, `pam_unix`, `pam_deny`, `pam_permit`. -/
def commonAuth (gexLogin pamUnix : Bool) : Bool :=
  pamStack [(.sufficient, gexLogin), (.success 1, pamUnix), (.requisite, false), (.required, true)]
    0 none

/-- The stack authenticates by `gex-login` or by the local password. -/
theorem commonAuth_eq (gexLogin pamUnix : Bool) : commonAuth gexLogin pamUnix = (gexLogin || pamUnix) := by
  cases gexLogin <;> cases pamUnix <;> rfl

/-! ## Granted logins -/

variable {Db : Type}

/-- `gex-login` returns 0 unless the script exits with 1 or 2. -/
theorem gexLogin_eq_zero_iff {gexauth : List Text → Nat} {tools : Tools Db} {input : Input} {db : Db} :
    (gexLogin gexauth tools input db).1 = 0 ↔
      gexauth (commandWords input) ≠ 1 ∧ gexauth (commandWords input) ≠ 2 := by
  unfold gexLogin
  by_cases hone : gexauth (commandWords input) = 1
  · simp [hone]
  · by_cases htwo : gexauth (commandWords input) = 2 <;> simp [hone, htwo]

/-- `gex-login` makes the account when the script exits with 2. -/
theorem gexLogin_of_two {gexauth : List Text → Nat} {tools : Tools Db} {input : Input} {db : Db}
    (h : gexauth (commandWords input) = 2) :
    gexLogin gexauth tools input db = (1, makeAccount tools input db) := by
  have hne : gexauth (commandWords input) ≠ 1 := by omega
  unfold gexLogin
  exact (if_neg hne).trans (if_pos h)

/-- `gex-login` leaves the accounts in every other case. -/
theorem gexLogin_of_ne_two {gexauth : List Text → Nat} {tools : Tools Db} {input : Input} {db : Db}
    (h : gexauth (commandWords input) ≠ 2) : (gexLogin gexauth tools input db).2 = db := by
  unfold gexLogin
  by_cases hone : gexauth (commandWords input) = 1 <;> simp [hone, h]

/-- A version of the script answers for its exit code 0 with a success status. -/
def ScriptSound (gexauth : List Text → Nat) (path : List Text → Text) (api : Api)
    (argv : List Text) : Prop :=
  gexauth argv = 0 → api.Succeeds (path argv)

/-- **Login soundness**: the script exits with 0, `gex-login` returns 0, and the `sufficient` line
authenticates a user without local password, each only if the API answered with a success status. -/
def LoginSound (gexauth : List Text → Nat) (path : List Text → Text) (api : Api) (tools : Tools Db)
    (input : Input) (db : Db) : Prop :=
  ScriptSound gexauth path api (commandWords input) ∧
  ((gexLogin gexauth tools input db).1 = 0 → api.Succeeds (path (commandWords input))) ∧
  (commonAuth ((gexLogin gexauth tools input db).1 == 0) false = true →
    api.Succeeds (path (commandWords input)))

/-- For a script that exits with 0, 1 or 2 the login is sound where the script is. -/
theorem loginSound_iff_scriptSound {gexauth : List Text → Nat} {path : List Text → Text} {api : Api}
    {tools : Tools Db} {input : Input} {db : Db} (hexit : gexauth (commandWords input) ≤ 2) :
    LoginSound gexauth path api tools input db ↔
      ScriptSound gexauth path api (commandWords input) := by
  have hzero : (gexLogin gexauth tools input db).1 = 0 ↔ gexauth (commandWords input) = 0 := by
    rw [gexLogin_eq_zero_iff]
    omega
  constructor
  · exact fun h => h.1
  · intro h
    refine ⟨h, fun hret => h (hzero.1 hret), fun hauth => h (hzero.1 ?_)⟩
    rw [commonAuth_eq, Bool.or_false] at hauth
    exact eq_of_beq hauth

/-- The condition for the node version: a success status, or no second word, or the word `none`, or
an answer without a body of more than 20 bytes, or no answer. -/
def Node.Sound (api : Api) (argv : List Text) : Prop :=
  api.Succeeds (Node.path argv) ∨ argv[1]? = none ∨ argv[1]?.map strip = some "none".toList ∨
    ∀ response body, api (Node.path argv) = some response → response.body = some body →
      (stripBytes body).length ≤ 20

/-- The condition for the master version: a success status, or a blank answer, or none. -/
def Master.Sound (api : Api) (argv : List Text) : Prop :=
  api.Succeeds (Master.path argv) ∨
    ∀ response body, api (Master.path argv) = some response → response.body = some body →
      stripBytes body = []

/-- When the node version answers for its exit code. -/
theorem Node.scriptSound_iff (api : Api) (argv : List Text) :
    ScriptSound (Node.gexauth api) Node.path api argv ↔ Node.Sound api argv := by
  constructor
  · intro h
    by_cases hzero : Node.gexauth api argv = 0
    · exact .inl (h hzero)
    right
    cases htoken : argv[1]? with
    | none => exact .inl rfl
    | some token =>
      right
      by_cases hnone : strip token = "none".toList
      · exact .inl (congrArg some hnone)
      · refine .inr fun response body hresponse hbody => ?_
        by_contra hlength
        exact hzero (Node.gexauth_eq_zero_iff.2
          ⟨token, response, body, htoken, hresponse, hbody, hnone, by omega⟩)
  · intro h hzero
    obtain ⟨token, response, body, htoken, hresponse, hbody, hnone, hlength⟩ :=
      Node.gexauth_eq_zero_iff.1 hzero
    obtain hsuccess | habsent | hword | hshort := h
    · exact hsuccess
    · rw [htoken] at habsent
      cases habsent
    · rw [htoken] at hword
      exact absurd (Option.some.inj hword) hnone
    · have := hshort response body hresponse hbody
      omega

/-- When the master version answers for its exit code. -/
theorem Master.scriptSound_iff (api : Api) (argv : List Text) :
    ScriptSound (Master.gexauth api) Master.path api argv ↔ Master.Sound api argv := by
  constructor
  · intro h
    by_cases hzero : Master.gexauth api argv = 0
    · exact .inl (h hzero)
    · refine .inr fun response body hresponse hbody => ?_
      by_contra hblank
      exact hzero (Master.gexauth_eq_zero_iff.2 ⟨response, body, hresponse, hbody, hblank⟩)
  · intro h hzero
    obtain ⟨response, body, hresponse, hbody, hblank⟩ := Master.gexauth_eq_zero_iff.1 hzero
    obtain hsuccess | hall := h
    · exact hsuccess
    · exact absurd (hall response body hresponse hbody) hblank

/-- **When a granted login had a success status behind it**, for both versions of the script, on every
command line and in every login. -/
theorem loginSound_iff (api : Api) (tools : Tools Db) (db : Db) :
    (∀ argv, ScriptSound (Node.gexauth api) Node.path api argv ↔ Node.Sound api argv) ∧
    (∀ input, LoginSound (Node.gexauth api) Node.path api tools input db ↔
      Node.Sound api (commandWords input)) ∧
    (∀ argv, ScriptSound (Master.gexauth api) Master.path api argv ↔ Master.Sound api argv) ∧
    ∀ input, LoginSound (Master.gexauth api) Master.path api tools input db ↔
      Master.Sound api (commandWords input) := by
  refine ⟨Node.scriptSound_iff api, fun input => ?_, Master.scriptSound_iff api, fun input => ?_⟩
  · rw [loginSound_iff_scriptSound (Node.gexauth_le_two api _)]
    exact Node.scriptSound_iff api _
  · rw [loginSound_iff_scriptSound (Nat.le_succ_of_le (Master.gexauth_le_one api _))]
    exact Master.scriptSound_iff api _

/-- The login of `eve` with the password `guess`. -/
def eveLogin : Input := ⟨"eve".toList, "guess\n".toList, "node1\n".toList, fun field => [field]⟩

/-- An API that answers every request with status 500 and a body of 24 bytes. -/
def brokenApi : Api := fun _ => some ⟨500, some (List.replicate 24 120)⟩

/-- **An error page logs in**: the API answers with status 500, and both versions grant the login. -/
theorem loginSound_fails :
    (¬∀ (api : Api) (tools : Tools Unit) (input : Input),
      LoginSound (Node.gexauth api) Node.path api tools input ()) ∧
    ¬∀ (api : Api) (tools : Tools Unit) (input : Input),
      LoginSound (Master.gexauth api) Master.path api tools input () := by
  let tools : Tools Unit := ⟨fun _ => id, fun _ => id, fun _ => id, fun _ _ => false⟩
  have hstatus : ∀ path, ¬Api.Succeeds brokenApi path := by
    rintro path ⟨r, hr, -, hle⟩
    obtain rfl := Option.some.inj hr
    exact absurd hle (by decide)
  constructor
  · intro h
    exact hstatus _ ((h brokenApi tools eveLogin).1 (by decide))
  · intro h
    exact hstatus _ ((h brokenApi tools eveLogin).1 (by decide))

/-! ## Refused logins -/

/-- The script asks for an account: its second word is `none`, and the API answered with a body. -/
def AsksForAccount (api : Api) (argv : List Text) : Prop :=
  ∃ token response, argv[1]? = some token ∧ strip token = "none".toList ∧
    api (Node.path argv) = some response ∧ response.body ≠ none

/-- **What a login can have changed**: nothing, whether refused or granted, unless the script asked
for an account; such a login is refused, and it changes exactly what making the account changes. -/
theorem gexLogin_refused (api : Api) (tools : Tools Db) (input : Input) (db : Db) :
    (¬AsksForAccount api (commandWords input) →
      (gexLogin (Node.gexauth api) tools input db).2 = db) ∧
    (AsksForAccount api (commandWords input) →
      gexLogin (Node.gexauth api) tools input db = (1, makeAccount tools input db)) := by
  constructor
  · intro hasks
    exact gexLogin_of_ne_two fun h => hasks (Node.gexauth_eq_two_iff.1 h)
  · intro hasks
    exact gexLogin_of_two (Node.gexauth_eq_two_iff.2 hasks)

/-- The accounts of a system, as far as `gex-login` changes them. -/
structure Accounts where
  users : List Text
  groups : List Text
  sudoers : List Text
  deriving DecidableEq

/-- The system commands on accounts that exist or can be made. -/
def systemTools : Tools Accounts where
  groupadd args db := { db with groups := db.groups ++ args.filter (· ∉ db.groups) }
  useradd args db := { db with users := db.users ++ (args[1]?).toList }
  usermod args db := { db with sudoers := db.sudoers ++ (args[3]?).toList.filter (· ∈ db.users) }
  getentPasswd args db := args.all (· ∈ db.users)

/-- The login of `eve` with a password of one byte. -/
def eveFirstLogin : Input := ⟨"eve".toList, "x\n".toList, "node1\n".toList, fun field => [field]⟩

/-- A login refused for a wrong password leaves the accounts. -/
theorem gexLogin_refused_guess :
    (gexLogin (Node.gexauth fun _ => some ⟨403, some []⟩) systemTools eveLogin
      ⟨["root".toList], [], []⟩).1 = 1 ∧
    (gexLogin (Node.gexauth fun _ => some ⟨403, some []⟩) systemTools eveLogin
      ⟨["root".toList], [], []⟩).2 = ⟨["root".toList], [], []⟩ := by
  refine ⟨by decide, ?_⟩
  refine (gexLogin_refused _ systemTools eveLogin _).1 ?_
  rintro ⟨token, -, htoken, hnone, -⟩
  have hguess : (commandWords eveLogin)[1]? = some "guess".toList := by decide
  obtain rfl := Option.some.inj (hguess.symm.trans htoken)
  exact absurd hnone (by decide)

/-- **A refused login makes an account**: the password of one byte stands for `none`, `gex-login`
returns 1, and `eve` is a user and a member of `sudo`. -/
theorem gexLogin_refused_fails :
    ¬∀ (api : Api) (input : Input) (db : Accounts),
      (gexLogin (Node.gexauth api) systemTools input db).1 = 1 →
        (gexLogin (Node.gexauth api) systemTools input db).2 = db := by
  intro h
  have := h (fun _ => some ⟨403, some []⟩) eveFirstLogin ⟨["root".toList], [], []⟩ (by decide)
  revert this
  decide

end GexCloud.Login
