import GexCloud.Base.Ruby

/-! # `gexauth.rb`: asking the API whether a login is granted

The two versions of the script that the login calls: the one of the nodes (`Node.gexauth`) and the
one of the master (`Master.gexauth`). Both send the user name, the token and the host name to the API
and turn the answer into an exit code, by the body alone: the status of the answer is never read.

* `Api.Succeeds` — the API answered a request with a 2xx status.
* `Node.gexauth_eq_zero_iff`, `Node.gexauth_eq_two_iff`, `Master.gexauth_eq_zero_iff` — the answers
  behind the exit codes. -/

namespace GexCloud.Login

open Texts

/-- What the scripts read of a `Net::HTTPResponse`. -/
structure Response where
  code : Nat
  /-- The bytes of the body; `nil` for an answer without one. -/
  body : Option (List UInt8)
  deriving DecidableEq

/-- The API, by request path: `Net::HTTP.get_response`, which raises or returns the answer. -/
abbrev Api := Text → Option Response

/-- The API answers the request with a success status. -/
def Api.Succeeds (api : Api) (path : Text) : Prop :=
  ∃ r, api path = some r ∧ 200 ≤ r.code ∧ r.code ≤ 299

/-- `strip` on a body. -/
def stripBytes (s : List UInt8) : List UInt8 := stripBy (fun b => isSpace b.toNat) s

/-- An element of `ARGV` as `#{…}` interpolates it. -/
def interpolate (arg : Option Text) : Text := arg.getD []

/-- The request of the scripts. -/
def requestPath (format : Text) (username token hostname : Option Text) : Text :=
  "/auth_access_cluster/?format=".toList ++ format ++ "&username=".toList ++ interpolate username ++
    "&token=".toList ++ interpolate token ++ "&hostname=".toList ++ interpolate hostname

namespace Node

/-- The request of the script on a command line. -/
def path (argv : List Text) : Text :=
  requestPath "json".toList argv[0]? (argv[1]?.map strip) argv[2]?

/-- `gexauth.rb` of the nodes: its exit code. An exception that nothing rescues exits with 1. -/
def gexauth (api : Api) (argv : List Text) : Nat :=
  match argv[1]? with
  | none => 1
  | some token =>
    match api (path argv) with
    | none => 1
    | some response =>
      match response.body with
      | none => 1
      | some body =>
        if strip token = "none".toList then 2
        else if 20 < (stripBytes body).length then 0
        else 1

variable {api : Api} {argv : List Text}

/-- The script grants a login by a body of more than 20 bytes, whatever the status. -/
theorem gexauth_eq_zero_iff :
    gexauth api argv = 0 ↔ ∃ token response body, argv[1]? = some token ∧
      api (path argv) = some response ∧ response.body = some body ∧
      strip token ≠ "none".toList ∧ 20 < (stripBytes body).length := by
  constructor
  · intro h
    unfold gexauth at h
    split at h
    · omega
    rename_i token htoken
    split at h
    · omega
    rename_i response hresponse
    split at h
    · omega
    rename_i body hbody
    split at h
    · omega
    rename_i hnone
    split at h
    · exact ⟨token, response, body, htoken, hresponse, hbody, hnone, ‹_›⟩
    · omega
  · rintro ⟨token, response, body, htoken, hresponse, hbody, hnone, hlength⟩
    unfold gexauth
    simp only [htoken, hresponse, hbody]
    rw [if_neg hnone, if_pos hlength]

/-- The script asks for the account by the token `none`, if the API answers at all. -/
theorem gexauth_eq_two_iff :
    gexauth api argv = 2 ↔ ∃ token response, argv[1]? = some token ∧ strip token = "none".toList ∧
      api (path argv) = some response ∧ response.body ≠ none := by
  constructor
  · intro h
    unfold gexauth at h
    split at h
    · omega
    rename_i token htoken
    split at h
    · omega
    rename_i response hresponse
    split at h
    · omega
    rename_i body hbody
    split at h
    · rename_i hnone
      refine ⟨token, response, htoken, hnone, hresponse, ?_⟩
      rw [hbody]
      exact Option.some_ne_none body
    · split at h <;> omega
  · rintro ⟨token, response, htoken, hnone, hresponse, hbody⟩
    obtain ⟨body, hbody⟩ := Option.ne_none_iff_exists'.1 hbody
    unfold gexauth
    simp only [htoken, hresponse, hbody]
    rw [if_pos hnone]

/-- The script exits with 0, 1 or 2. -/
theorem gexauth_le_two (api : Api) (argv : List Text) : gexauth api argv ≤ 2 := by
  unfold gexauth
  repeat' split
  all_goals omega

end Node

namespace Master

/-- The request of the script on a command line. -/
def path (argv : List Text) : Text := requestPath "string".toList argv[0]? argv[1]? argv[2]?

/-- `gexauth.rb` of the master: its exit code. What is raised is rescued into 1. -/
def gexauth (api : Api) (argv : List Text) : Nat :=
  match api (path argv) with
  | none => 1
  | some response =>
    match response.body with
    | none => 1
    | some body => if stripBytes body = [] then 1 else 0

variable {api : Api} {argv : List Text}

/-- The script grants a login by any body that is not blank, whatever the status. -/
theorem gexauth_eq_zero_iff :
    gexauth api argv = 0 ↔ ∃ response body, api (path argv) = some response ∧
      response.body = some body ∧ stripBytes body ≠ [] := by
  constructor
  · intro h
    unfold gexauth at h
    split at h
    · omega
    rename_i response hresponse
    split at h
    · omega
    rename_i body hbody
    split at h
    · omega
    · exact ⟨response, body, hresponse, hbody, ‹_›⟩
  · rintro ⟨response, body, hresponse, hbody, hblank⟩
    unfold gexauth
    simp only [hresponse, hbody]
    rw [if_neg hblank]

/-- The script exits with 0 or 1. -/
theorem gexauth_le_one (api : Api) (argv : List Text) : gexauth api argv ≤ 1 := by
  unfold gexauth
  repeat' split
  all_goals omega

end Master

end GexCloud.Login
