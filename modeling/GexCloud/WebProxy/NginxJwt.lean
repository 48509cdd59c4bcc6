import GexCloud.Support.Cookies
import GexCloud.Support.Runs

/-! # `nginx-jwt.lua`: authorizing the requests of the web proxy

`M.auth` takes a token from the `Authorization` header, the cookie or the query, verifies it, looks
the user up in Redis and checks the required claims. The claim loop names the claim that blocks the
request and takes the empty name for "none", so a claim with the empty name blocks nothing.

* **`auth`** — the handler: the `Set-Cookie` header it sets, and how it ends.
* `Granted` — what a request should show to be authorized.
* **`authorized_iff_granted_iff`** — exactly when being authorized and being granted are the same.

Lua values are the values of a type `V`; what lies outside the repository (the rest of `jwt:verify`,
Redis, `cjson`, string patterns, nginx) is a field of `Proxy`. -/

namespace GexCloud.WebProxy

open Texts Runs

variable {V : Type}

/-- The payload of a token, as the table it decodes to. -/
abbrev Payload (V : Type) := Text → Option V

/-- What `jwt:verify` returns. -/
structure Jwt (V : Type) where
  verified : Bool
  payload : Payload V

/-- A key of `claim_specs`. Only names are keys of a payload. -/
inductive ClaimKey
  | name (claim : Text)
  /-- A number, by the text it concatenates to. -/
  | number (rendered : Text)
  /-- A value that cannot be concatenated. -/
  | other
  deriving DecidableEq

/-- A value of `claim_specs`. -/
inductive ClaimSpec (V : Type)
  | pattern (pattern : Text)
  /-- A predicate: what it returns, as a condition reads it; `none` when it raises. -/
  | predicate (holds : V → Option Bool)
  /-- A value of another type. -/
  | other

/-- The argument `claim_specs`. -/
inductive ClaimSpecs (V : Type)
  | missing
  | notTable
  /-- A table, by its entries in the order of `pairs`. -/
  | table (entries : List (ClaimKey × ClaimSpec V))

/-- The proxy: its configuration, and what it calls outside. -/
structure Proxy (V : Type) where
  proxyDomainname : Text
  /-- `ngx.cookie_time(ngx.time() + expires)`. -/
  expires : Text
  /-- `jwt:verify` under the secret, once the parts of the token are found; `none` when it raises. -/
  verifyParts : Text → Text → Text → Option (Jwt V)
  /-- Whether `cjson.encode(jwt_obj)` returns. -/
  encodes : Payload V → Bool
  /-- The text of a value in a concatenation; `none` when that raises. -/
  concat : V → Option Text
  /-- `string.match(value, pattern) ~= nil`; `none` when it raises. -/
  stringMatch : V → Text → Option Bool
  /-- Whether Redis can be reached on the server. -/
  connect : Text → Bool
  /-- `hget` on the server: the string at a field of a hash. -/
  hget : Text → Text → Text → Option Text
  /-- Whether the value can be assigned to `ngx.header["X-Auth-UserId"]`. -/
  setsHeader : Option V → Bool

/-- The arguments of `M.auth`. -/
structure Access (V : Type) where
  claimSpecs : ClaimSpecs V
  clusterId : Text
  redisServer : Text
  redisPrefix : Text

/-- What the handler reads of a request. -/
structure Request where
  /-- `ngx.var.http_Authorization`. -/
  authorization : Option Text
  /-- `ngx.var.cookie_token`. -/
  cookieToken : Option Text
  /-- `ngx.var.arg_token`. -/
  argToken : Option Text

/-- How the handler is cut short. -/
inductive Stop
  /-- `ngx.exit(status)`. -/
  | exit (status : Nat)
  /-- A Lua error. -/
  | raise
  deriving DecidableEq

/-! ## The token -/

/-- White space in Lua patterns. -/
def isLuaSpace (c : Char) : Bool := c == ' ' || (decide (9 ≤ c.toNat) && decide (c.toNat ≤ 13))

/-- The capture of the pattern `%s+(.+)` at the start of a text. -/
def matchSpaceRest (s : Text) : Option Text :=
  match s.takeWhile isLuaSpace, s.dropWhile isLuaSpace with
  | [], _ => none
  | _, c :: rest => some (c :: rest)
  -- nothing but white space: the last blank is given back to the capture
  | spaces, [] => if 2 ≤ spaces.length then spaces.getLast?.map ([·]) else none

/-- The capture of `string.find(s, "Bearer%s+(.+)")`. -/
def findBearer : Text → Option Text
  | [] => none
  | c :: s =>
    match (if "Bearer".toList <+: c :: s then matchSpaceRest ((c :: s).drop 6) else none) with
    | some token => some token
    | none => findBearer s

/-- The token of a request: of the header, else of the cookie, else of the query. -/
def selectToken (r : Request) : Option Text :=
  match r.authorization.bind findBearer with
  | some token => some token
  | none =>
    match r.cookieToken with
    | some token => some token
    | none => r.argToken

/-- The match of `([^%.]+)%.([^%.]+)%.([^%.]+)` at the start of a text. -/
def matchPartsHere (s : Text) : Option (Text × Text × Text) :=
  match cut '.' s with
  | (_, none) => none
  | (header, some s) =>
    match cut '.' s with
    | (_, none) => none
    | (payload, some s) =>
      let signature := (cut '.' s).1
      if header = [] ∨ payload = [] ∨ signature = [] then none else some (header, payload, signature)

/-- `string.match(token_str, '([^%.]+)%.([^%.]+)%.([^%.]+)')`, as `parse` of `jwt.lua` calls it. -/
def matchParts : Text → Option (Text × Text × Text)
  | [] => none
  | c :: s =>
    match matchPartsHere (c :: s) with
    | some parts => some parts
    | none => matchParts s

/-- `jwt:verify(secret, token, 0)`; a token without the three parts is not verified. -/
def Proxy.verify (px : Proxy V) (token : Text) : Option (Jwt V) :=
  match matchParts token with
  | none => some ⟨false, fun _ => none⟩
  | some (header, payload, signature) => px.verifyParts header payload signature

/-! ## The claims -/

/-- What the loop body makes of one entry of `claim_specs`. -/
inductive Check
  | satisfied
  /-- `blocking_claim` is set and the loop is left. -/
  | blocked (blockingClaim : Text)
  /-- The spec is of an unsupported type. -/
  | misconfigured
  | raises
  deriving DecidableEq

/-- The claim value of an entry. -/
def claimValue (payload : Payload V) : ClaimKey → Option V
  | .name claim => payload claim
  | .number _ => none
  | .other => none

/-- The text of a key in a concatenation. -/
def ClaimKey.concat : ClaimKey → Option Text
  | .name claim => some claim
  | .number rendered => some rendered
  | .other => none

/-- The outcome of a spec for a claim that is there. -/
def specAction (px : Proxy V) (spec : ClaimSpec V) (value : V) : Option (Option Bool) :=
  match spec with
  | .pattern pattern => some (px.stringMatch value pattern)
  | .predicate holds => some (holds value)
  | .other => none

/-- The loop body, for one entry. -/
def checkClaim (px : Proxy V) (payload : Payload V) (entry : ClaimKey × ClaimSpec V) : Check :=
  match entry.1.concat with
  | none => .raises
  | some claim =>
    match claimValue payload entry.1 with
    | none => .blocked (claim ++ " (missing)".toList)
    | some value =>
      match specAction px entry.2 value with
      | none => .misconfigured
      | some none => .raises
      | some (some true) => .satisfied
      | some (some false) => .blocked claim

/-- The loop over `claim_specs`: the blocking claim it ends with. -/
def checkClaims (px : Proxy V) (payload : Payload V) :
    List (ClaimKey × ClaimSpec V) → Except Stop Text
  | [] => .ok []
  | entry :: rest =>
    match checkClaim px payload entry with
    | .satisfied => checkClaims px payload rest
    | .blocked blockingClaim => .ok blockingClaim
    | .misconfigured => .error (.exit 500)
    | .raises => .error .raise

/-- The part of `M.auth` on `claim_specs`. -/
def requireClaims (px : Proxy V) (payload : Payload V) : ClaimSpecs V → Except Stop Unit
  | .missing => .ok ()
  | .notTable => .error (.exit 500)
  | .table entries =>
    match checkClaims px payload entries with
    | .error stop => .error stop
    | .ok blockingClaim => if blockingClaim ≠ [] then .error (.exit 401) else .ok ()

/-! ## The handler -/

/-- The key of the hash of a user in Redis. -/
def redisKey (redisPrefix userId : Text) : Text :=
  redisPrefix ++ ":auth:".toList ++ userId ++ ":clusters_access".toList

/-- The part of `M.auth` on Redis. -/
def requireCluster (px : Proxy V) (access : Access V) (payload : Payload V) : Except Stop Unit :=
  if !px.connect access.redisServer then .error (.exit 401)
  else
    match payload "user_id".toList with
    | none => .error (.exit 401)
    | some user =>
      match px.concat user with
      | none => .error .raise
      | some userId =>
        if px.hget access.redisServer (redisKey access.redisPrefix userId) access.clusterId ≠
            some "1".toList then .error (.exit 401)
        else .ok ()

/-- The part of `M.auth` behind the cookie: the value of `X-Auth-UserId`. -/
def authorize (px : Proxy V) (access : Access V) (token : Text) : Except Stop (Option V) :=
  match px.verify token with
  | none => .error .raise
  | some jwt =>
    if jwt.verified = false then .error (.exit 401)
    else if px.encodes jwt.payload = false then .error .raise
    else do
      requireCluster px access jwt.payload
      requireClaims px jwt.payload access.claimSpecs
      if px.setsHeader (jwt.payload "sub".toList) then .ok (jwt.payload "sub".toList)
      else .error .raise

/-- The `Set-Cookie` header for a token. -/
def setCookie (px : Proxy V) (token : Text) : Text :=
  "token=".toList ++ token ++ "; path=/; domain=".toList ++ px.proxyDomainname ++
    "; expires=".toList ++ px.expires ++ "; HttpOnly".toList

/-- **`M.auth`**: the `Set-Cookie` header of the response and how the handler ends. -/
def auth (px : Proxy V) (access : Access V) (r : Request) : Option Text × Except Stop (Option V) :=
  match selectToken r with
  | none => (none, .error (.exit 401))
  | some token => (some (setCookie px token), authorize px access token)

/-! ## What a request should show -/

/-- The token is accepted, with the given payload. -/
def Verified (px : Proxy V) (token : Text) (payload : Payload V) : Prop :=
  px.verify token = some ⟨true, payload⟩

/-- Redis lets the user of the payload into the cluster. -/
def ClusterAllowed (px : Proxy V) (access : Access V) (payload : Payload V) : Prop :=
  px.connect access.redisServer = true ∧ ∃ user userId, payload "user_id".toList = some user ∧
    px.concat user = some userId ∧
    px.hget access.redisServer (redisKey access.redisPrefix userId) access.clusterId =
      some "1".toList

/-- The entries of `claim_specs`. -/
def ClaimSpecs.entries : ClaimSpecs V → List (ClaimKey × ClaimSpec V)
  | .missing => []
  | .notTable => []
  | .table entries => entries

/-- The claim of an entry is in the payload and meets its spec. -/
def Satisfied (px : Proxy V) (payload : Payload V) (entry : ClaimKey × ClaimSpec V) : Prop :=
  ∃ claim value, entry.1 = .name claim ∧ payload claim = some value ∧
    specAction px entry.2 value = some (some true)

/-- The claim with the empty name is in the payload and fails its spec. -/
def BlankFailing (px : Proxy V) (payload : Payload V) (entry : ClaimKey × ClaimSpec V) : Prop :=
  entry.1 = .name [] ∧ ∃ value, payload [] = some value ∧
    specAction px entry.2 value = some (some false)

/-- The first entry that is not satisfied, in the order of `pairs`. -/
def FirstFailing (px : Proxy V) (payload : Payload V) (entries : List (ClaimKey × ClaimSpec V))
    (entry : ClaimKey × ClaimSpec V) : Prop :=
  ∃ before after, entries = before ++ entry :: after ∧
    (∀ e ∈ before, Satisfied px payload e) ∧ ¬Satisfied px payload entry

/-- **What a request should show**: an accepted token of a user whom Redis lets in, whose claims all
meet their specs. -/
def Granted (px : Proxy V) (access : Access V) (r : Request) : Prop :=
  ∃ token payload, selectToken r = some token ∧ Verified px token payload ∧
    ClusterAllowed px access payload ∧ access.claimSpecs ≠ .notTable ∧
    ∀ e ∈ access.claimSpecs.entries, Satisfied px payload e

/-- The handler returns. -/
def Authorized (px : Proxy V) (access : Access V) (r : Request) : Prop :=
  ∃ userId, (auth px access r).2 = .ok userId

/-! ## What the handler checks -/

variable {px : Proxy V} {access : Access V} {payload : Payload V} {token : Text}
  {entry : ClaimKey × ClaimSpec V} {entries : List (ClaimKey × ClaimSpec V)}

/-- The loop goes on after satisfied entries. -/
theorem checkClaim_eq_satisfied_iff :
    checkClaim px payload entry = .satisfied ↔ Satisfied px payload entry := by
  obtain ⟨key, spec⟩ := entry
  cases key with
  | name claim =>
    cases hvalue : payload claim with
    | none => simp [checkClaim, ClaimKey.concat, claimValue, hvalue, Satisfied]
    | some value =>
      have hiff : checkClaim px payload (.name claim, spec) = .satisfied ↔
          specAction px spec value = some (some true) := by
        simp only [checkClaim, ClaimKey.concat, claimValue, hvalue]
        split <;> simp_all
      rw [hiff]
      constructor
      · exact fun h => ⟨claim, value, rfl, hvalue, h⟩
      · rintro ⟨_, value', ⟨⟩, hvalue', h⟩
        rw [hvalue] at hvalue'
        rwa [Option.some.inj hvalue']
  | number rendered => simp [checkClaim, ClaimKey.concat, claimValue, Satisfied]
  | other => simp [checkClaim, ClaimKey.concat, Satisfied]

/-- The loop is left with an empty blocking claim exactly at a failing claim with the empty name. -/
theorem checkClaim_eq_blocked_nil_iff :
    checkClaim px payload entry = .blocked [] ↔ BlankFailing px payload entry := by
  obtain ⟨key, spec⟩ := entry
  cases key with
  | name claim =>
    cases hvalue : payload claim with
    | none =>
      have hmissing : checkClaim px payload (.name claim, spec) =
          .blocked (claim ++ " (missing)".toList) := by
        simp only [checkClaim, ClaimKey.concat, claimValue, hvalue]
      rw [hmissing]
      constructor
      · intro h
        simp at h
      · rintro ⟨⟨⟩, value, hvalue', -⟩
        rw [hvalue] at hvalue'
        cases hvalue'
    | some value =>
      have hiff : checkClaim px payload (.name claim, spec) = .blocked [] ↔
          claim = [] ∧ specAction px spec value = some (some false) := by
        simp only [checkClaim, ClaimKey.concat, claimValue, hvalue]
        split <;> simp_all
      rw [hiff]
      constructor
      · rintro ⟨rfl, h⟩
        exact ⟨rfl, value, hvalue, h⟩
      · rintro ⟨⟨⟩, value', hvalue', h⟩
        rw [hvalue] at hvalue'
        rw [Option.some.inj hvalue']
        exact ⟨rfl, h⟩
  | number rendered => simp [checkClaim, ClaimKey.concat, claimValue, BlankFailing]
  | other => simp [checkClaim, ClaimKey.concat, BlankFailing]

/-- Either all entries are satisfied, or one is the first that is not. -/
theorem forall_satisfied_or_exists_firstFailing (px : Proxy V) (payload : Payload V)
    (entries : List (ClaimKey × ClaimSpec V)) :
    (∀ e ∈ entries, Satisfied px payload e) ∨ ∃ e, FirstFailing px payload entries e := by
  induction entries with
  | nil => exact .inl fun e he => absurd he List.not_mem_nil
  | cons entry rest ih =>
    by_cases hsat : Satisfied px payload entry
    · obtain hall | ⟨e, before, after, rfl, hbefore, hnot⟩ := ih
      · left
        intro e he
        obtain rfl | he := List.mem_cons.mp he
        · exact hsat
        · exact hall e he
      · refine .inr ⟨e, entry :: before, after, rfl, ?_, hnot⟩
        intro x hx
        obtain rfl | hx := List.mem_cons.mp hx
        · exact hsat
        · exact hbefore x hx
    · exact .inr ⟨entry, [], rest, rfl, fun x hx => absurd hx List.not_mem_nil, hsat⟩

/-- The loop passes satisfied entries. -/
theorem checkClaims_append {before : List (ClaimKey × ClaimSpec V)}
    (h : ∀ e ∈ before, Satisfied px payload e) (after : List (ClaimKey × ClaimSpec V)) :
    checkClaims px payload (before ++ after) = checkClaims px payload after := by
  induction before with
  | nil => rfl
  | cons entry before ih =>
    have hcheck := checkClaim_eq_satisfied_iff.2 (h entry List.mem_cons_self)
    have hstep : checkClaims px payload (entry :: (before ++ after)) =
        checkClaims px payload (before ++ after) := by
      simp only [checkClaims, hcheck]
    rw [List.cons_append, hstep]
    exact ih fun e he => h e (List.mem_cons_of_mem _ he)

/-- What the loop ends with when it is left at an entry. -/
def Check.verdict : Check → Except Stop Text
  | .satisfied => .ok []
  | .blocked blockingClaim => .ok blockingClaim
  | .misconfigured => .error (.exit 500)
  | .raises => .error .raise

/-- **The loop is left at the first entry that is not satisfied**, with its check. -/
theorem FirstFailing.checkClaims (h : FirstFailing px payload entries entry) :
    checkClaims px payload entries = (checkClaim px payload entry).verdict := by
  obtain ⟨before, after, rfl, hbefore, hnot⟩ := h
  rw [checkClaims_append hbefore]
  have hne : checkClaim px payload entry ≠ .satisfied :=
    fun heq => hnot (checkClaim_eq_satisfied_iff.1 heq)
  simp only [WebProxy.checkClaims]
  cases hcheck : checkClaim px payload entry with
  | satisfied => exact absurd hcheck hne
  | blocked blockingClaim => rfl
  | misconfigured => rfl
  | raises => rfl

/-- The loop over satisfied entries ends without a blocking claim. -/
theorem checkClaims_of_forall (h : ∀ e ∈ entries, Satisfied px payload e) :
    checkClaims px payload entries = .ok [] := by
  have hnil := checkClaims_append h []
  rwa [List.append_nil] at hnil

/-- **The loop blocks nothing** exactly when all entries are satisfied, or the first that is not has
the empty name. -/
theorem checkClaims_eq_ok_nil_iff :
    checkClaims px payload entries = .ok [] ↔ (∀ e ∈ entries, Satisfied px payload e) ∨
      ∃ e, FirstFailing px payload entries e ∧ BlankFailing px payload e := by
  constructor
  · intro h
    obtain hall | ⟨e, hfirst⟩ := forall_satisfied_or_exists_firstFailing px payload entries
    · exact .inl hall
    · refine .inr ⟨e, hfirst, checkClaim_eq_blocked_nil_iff.1 ?_⟩
      rw [hfirst.checkClaims] at h
      cases hcheck : checkClaim px payload e with
      | satisfied =>
        obtain ⟨before, after, -, -, hnot⟩ := hfirst
        exact absurd (checkClaim_eq_satisfied_iff.1 hcheck) hnot
      | blocked blockingClaim =>
        rw [hcheck] at h
        rw [Except.ok.inj h]
      | misconfigured => rw [hcheck] at h; cases h
      | raises => rw [hcheck] at h; cases h
  · rintro (hall | ⟨e, hfirst, hblank⟩)
    · exact checkClaims_of_forall hall
    · rw [hfirst.checkClaims, checkClaim_eq_blocked_nil_iff.2 hblank]
      rfl

/-- The claims pass. -/
def ClaimsPass (px : Proxy V) (access : Access V) (payload : Payload V) : Prop :=
  access.claimSpecs ≠ .notTable ∧ ((∀ e ∈ access.claimSpecs.entries, Satisfied px payload e) ∨
    ∃ e, FirstFailing px payload access.claimSpecs.entries e ∧ BlankFailing px payload e)

/-- The part on `claim_specs` lets through what passes. -/
theorem requireClaims_eq_ok_iff :
    requireClaims px payload access.claimSpecs = .ok () ↔ ClaimsPass px access payload := by
  unfold ClaimsPass
  cases hspecs : access.claimSpecs with
  | missing => simp [requireClaims, ClaimSpecs.entries]
  | notTable => simp [requireClaims]
  | table entries =>
    have hiff : requireClaims px payload (.table entries) = .ok () ↔
        checkClaims px payload entries = .ok [] := by
      simp only [requireClaims]
      cases checkClaims px payload entries with
      | error stop => simp
      | ok blockingClaim => by_cases h : blockingClaim = [] <;> simp [h]
    rw [hiff, checkClaims_eq_ok_nil_iff]
    simp [ClaimSpecs.entries]

/-- The part on Redis lets through whom Redis lets in. -/
theorem requireCluster_eq_ok_iff :
    requireCluster px access payload = .ok () ↔ ClusterAllowed px access payload := by
  unfold requireCluster ClusterAllowed
  cases hconnect : px.connect access.redisServer
  · simp
  cases huser : payload "user_id".toList with
  | none => simp
  | some user =>
    cases hconcat : px.concat user with
    | none => simp [hconcat]
    | some userId =>
      simp only [Bool.not_true, Bool.false_eq_true, if_false, true_and, Option.some.injEq,
        exists_and_left, exists_eq_left', hconcat]
      split <;> simp_all

/-- **What is authorized**: an accepted token of a user whom Redis lets in, whose claims pass, where
neither the log entry nor the header of the response raises. -/
theorem authorize_eq_ok_iff {userId : Option V} :
    authorize px access token = .ok userId ↔ ∃ payload, Verified px token payload ∧
      px.encodes payload = true ∧ ClusterAllowed px access payload ∧ ClaimsPass px access payload ∧
      px.setsHeader (payload "sub".toList) = true ∧ userId = payload "sub".toList := by
  unfold authorize Verified
  cases hverify : px.verify token with
  | none => simp
  | some jwt =>
    obtain ⟨verified, payload⟩ := jwt
    cases verified with
    | false => simp
    | true =>
      have hpayload : ∀ p : Payload V, some (Jwt.mk true payload) = some ⟨true, p⟩ ↔ p = payload := by
        intro p
        simp [eq_comm]
      simp only [hpayload, exists_eq_left, Bool.true_eq_false, if_false]
      cases hencodes : px.encodes payload
      · simp
      simp only [Bool.true_eq_false, if_false, bind_eq_ok_iff]
      constructor
      · rintro ⟨⟨⟩, hcluster, ⟨⟩, hclaims, hret⟩
        split at hret
        · exact ⟨trivial, requireCluster_eq_ok_iff.1 hcluster, requireClaims_eq_ok_iff.1 hclaims, ‹_›,
            (Except.ok.inj hret).symm⟩
        · cases hret
      · rintro ⟨-, hcluster, hclaims, hheader, rfl⟩
        exact ⟨(), requireCluster_eq_ok_iff.2 hcluster, (), requireClaims_eq_ok_iff.2 hclaims,
          by rw [if_pos hheader]⟩

/-- What the gates of a request are: its token, accepted, with the payload, of a user whom Redis lets
in, under a table of claims. -/
structure Gates (px : Proxy V) (access : Access V) (r : Request) (token : Text)
    (payload : Payload V) : Prop where
  selected : selectToken r = some token
  verified : Verified px token payload
  cluster : ClusterAllowed px access payload
  table : access.claimSpecs ≠ .notTable

/-- A request passes its gates with one token and one payload. -/
theorem Gates.unique {r : Request} {token' : Text} {payload' : Payload V}
    (h : Gates px access r token payload) (h' : Gates px access r token' payload') :
    token = token' ∧ payload = payload' := by
  obtain rfl : token = token' := Option.some.inj (h.selected.symm.trans h'.selected)
  have hjwt := Option.some.inj (h.verified.symm.trans h'.verified)
  exact ⟨rfl, congrArg Jwt.payload hjwt⟩

/-- Neither the log entry nor the header of the response raises. -/
def Quiet (px : Proxy V) (payload : Payload V) : Prop :=
  px.encodes payload = true ∧ px.setsHeader (payload "sub".toList) = true

/-- What a granted request is, by its gates. -/
theorem granted_iff {r : Request} : Granted px access r ↔ ∃ token payload,
    Gates px access r token payload ∧ ∀ e ∈ access.claimSpecs.entries, Satisfied px payload e := by
  constructor
  · rintro ⟨token, payload, hselected, hverified, hcluster, htable, hall⟩
    exact ⟨token, payload, ⟨hselected, hverified, hcluster, htable⟩, hall⟩
  · rintro ⟨token, payload, ⟨hselected, hverified, hcluster, htable⟩, hall⟩
    exact ⟨token, payload, hselected, hverified, hcluster, htable, hall⟩

/-- What an authorized request is, by its gates. -/
theorem authorized_iff {r : Request} : Authorized px access r ↔ ∃ token payload,
    Gates px access r token payload ∧ Quiet px payload ∧
      ((∀ e ∈ access.claimSpecs.entries, Satisfied px payload e) ∨
        ∃ e, FirstFailing px payload access.claimSpecs.entries e ∧ BlankFailing px payload e) := by
  unfold Authorized auth
  cases hselected : selectToken r with
  | none =>
    constructor
    · rintro ⟨_, ⟨⟩⟩
    · rintro ⟨token, payload, hgates, -⟩
      rw [hgates.selected] at hselected
      cases hselected
  | some token =>
    constructor
    · rintro ⟨userId, hok⟩
      obtain ⟨payload, hverified, hencodes, hcluster, ⟨htable, hclaims⟩, hheader, -⟩ :=
        authorize_eq_ok_iff.1 hok
      exact ⟨token, payload, ⟨hselected, hverified, hcluster, htable⟩, ⟨hencodes, hheader⟩, hclaims⟩
    · rintro ⟨token', payload, hgates, hquiet, hclaims⟩
      obtain rfl := Option.some.inj (hselected.symm.trans hgates.selected)
      exact ⟨_, authorize_eq_ok_iff.2 ⟨payload, hgates.verified, hquiet.1, hgates.cluster,
        ⟨hgates.table, hclaims⟩, hquiet.2, rfl⟩⟩

/-- **When authorization follows the rules.** A request is authorized exactly when it shows what it
should, if and only if, its gates passed: the first entry of `claim_specs` that is not satisfied is
no failing claim with the empty name (or the handler raises there), and where all entries are
satisfied the handler does not raise. -/
theorem authorized_iff_granted_iff (px : Proxy V) (access : Access V) (r : Request) :
    (Authorized px access r ↔ Granted px access r) ↔
      ∀ token payload, Gates px access r token payload →
        (∀ e, FirstFailing px payload access.claimSpecs.entries e → BlankFailing px payload e →
          ¬Quiet px payload) ∧
        ((∀ e ∈ access.claimSpecs.entries, Satisfied px payload e) → Quiet px payload) := by
  rw [authorized_iff, granted_iff]
  constructor
  · intro hiff token payload hgates
    refine ⟨fun e hfirst hblank hquiet => ?_, fun hall => ?_⟩
    · obtain ⟨token', payload', hgates', hall⟩ :=
        hiff.1 ⟨token, payload, hgates, hquiet, .inr ⟨e, hfirst, hblank⟩⟩
      obtain ⟨rfl, rfl⟩ := hgates.unique hgates'
      obtain ⟨before, after, heq, -, hnot⟩ := hfirst
      exact hnot (hall e (by rw [heq]; simp))
    · obtain ⟨token', payload', hgates', hquiet, -⟩ := hiff.2 ⟨token, payload, hgates, hall⟩
      obtain ⟨rfl, rfl⟩ := hgates.unique hgates'
      exact hquiet
  · intro h
    constructor
    · rintro ⟨token, payload, hgates, hquiet, hall | ⟨e, hfirst, hblank⟩⟩
      · exact ⟨token, payload, hgates, hall⟩
      · exact absurd hquiet ((h token payload hgates).1 e hfirst hblank)
    · rintro ⟨token, payload, hgates, hall⟩
      exact ⟨token, payload, hgates, (h token payload hgates).2 hall, .inl hall⟩

/-- The payload of user 7, with a claim of the empty name. -/
def demoPayload : Payload Text := fun claim =>
  if claim = "user_id".toList then some "7".toList
  else if claim = [] then some "guest".toList else none

/-- A proxy before one cluster, whose values are texts: a token of three parts is accepted for user
7, whom Redis lets in. -/
def demoProxy : Proxy Text where
  proxyDomainname := "example.com".toList
  expires := "Thu, 01-Jan-70 00:00:00 GMT".toList
  verifyParts _ _ _ := some ⟨true, demoPayload⟩
  encodes _ := true
  concat value := some value
  stringMatch value pattern := some (decide (pattern <:+: value))
  connect _ := true
  hget _ key field :=
    if key = "main:auth:7:clusters_access".toList ∧ field = "c1".toList then some "1".toList else none
  setsHeader _ := true

/-- A request with a token in its header. -/
def bearerRequest : Request := ⟨some "Bearer h.p.s".toList, none, none⟩

/-- **A claim with the empty name blocks nothing**: the claim is `guest`, the pattern asks for
`admin`, and the required claim `role` is not even there, but the request is authorized. -/
theorem authorized_iff_granted_fails :
    ¬∀ (px : Proxy Text) (access : Access Text) (r : Request),
      Authorized px access r ↔ Granted px access r := by
  intro h
  let access : Access Text := ⟨.table [(.name [], .pattern "admin".toList),
    (.name "role".toList, .pattern "admin".toList)], "c1".toList, "redis".toList, "main".toList⟩
  obtain ⟨token, payload, hselected, hverified, -, -, hall⟩ :=
    (h demoProxy access bearerRequest).1 ⟨none, by decide⟩
  have htoken : selectToken bearerRequest = some "h.p.s".toList := by decide
  obtain rfl := Option.some.inj (htoken.symm.trans hselected)
  have hjwt : demoProxy.verify "h.p.s".toList = some ⟨true, demoPayload⟩ := rfl
  obtain rfl : demoPayload = payload :=
    congrArg Jwt.payload (Option.some.inj (hjwt.symm.trans hverified))
  obtain ⟨claim, value, hname, hvalue, hspec⟩ := hall _ List.mem_cons_self
  obtain rfl : [] = claim := ClaimKey.name.inj hname
  obtain rfl : "guest".toList = value := Option.some.inj hvalue
  revert hspec
  decide

end GexCloud.WebProxy
