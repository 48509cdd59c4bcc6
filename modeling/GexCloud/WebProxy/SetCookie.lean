import GexCloud.WebProxy.NginxJwt

/-! # The `Set-Cookie` header of `nginx-jwt.lua`

`M.auth` sends the token back as a cookie before it verifies it, and puts the header together from
the token as it came, which the pattern of `parse` finds anywhere in a longer text.

* `Discipline` — what a client can expect of the header.
* **`discipline_iff`** — the requests for which it holds. -/

namespace GexCloud.WebProxy

open Texts Cookies

variable {V : Type} {px : Proxy V} {access : Access V} {payload : Payload V} {token : Text}
  {entries : List (ClaimKey × ClaimSpec V)}

/-! ## The cookie of a header -/

/-- The cookie a token should come back as. -/
def tokenCookie (px : Proxy V) (token : Text) : Cookie :=
  ⟨"token".toList, token, [("path".toList, "/".toList), ("domain".toList, px.proxyDomainname),
    ("expires".toList, px.expires), ("HttpOnly".toList, [])]⟩

/-- The request that presents a cookie alone. -/
def presenting (c : Cookie) : Request := ⟨none, some c.value, none⟩

/-- **The discipline of the header**: a refused request gets no cookie, and an authorized one gets
exactly the cookie of its token, by which the next request is known. -/
def Discipline (px : Proxy V) (access : Access V) (r : Request) : Prop :=
  (∀ status, (auth px access r).2 = .error (.exit status) → (auth px access r).1 = none) ∧
  ∀ userId, (auth px access r).2 = .ok userId → ∃ token c, selectToken r = some token ∧
    (auth px access r).1.bind parseSetCookie = some c ∧ c = tokenCookie px token ∧
    selectToken (presenting c) = some token

/-- The texts the header is put together from, apart from its own. -/
def CleanHeader (px : Proxy V) (token : Text) : Prop :=
  Clean token ∧ Clean px.proxyDomainname ∧ Clean px.expires

/-- Parts between semicolons, put together piece by piece. -/
theorem intercalate_parts (a b c d e f x y z : Text) :
    [';'].intercalate [part a x, ' ' :: part b c, ' ' :: part d y, ' ' :: part e z, ' ' :: f] =
      (a ++ ['=']) ++ x ++ (';' :: ' ' :: part b c ++ ';' :: ' ' :: (d ++ ['='])) ++ y ++
        (';' :: ' ' :: (e ++ ['='])) ++ z ++ (';' :: ' ' :: f) := by
  simp [part, List.intercalate]

/-- The header that is put together for a token. -/
def sessionHeader (domain expires token : Text) : Text :=
  "token=".toList ++ token ++ "; path=/; domain=".toList ++ domain ++ "; expires=".toList ++ expires ++
    "; HttpOnly".toList

/-- The cookie that it is for. -/
def sessionCookie (domain expires token : Text) : Cookie :=
  ⟨"token".toList, token, [("path".toList, "/".toList), ("domain".toList, domain), ("expires".toList, expires),
    ("HttpOnly".toList, [])]⟩

/-- The header as parts between semicolons. -/
theorem sessionHeader_eq_intercalate (domain expires token : Text) :
    sessionHeader domain expires token = [';'].intercalate [part "token".toList token,
      ' ' :: part "path".toList "/".toList, ' ' :: part "domain".toList domain,
      ' ' :: part "expires".toList expires, ' ' :: "HttpOnly".toList] := by
  have hpair : "token=".toList = "token".toList ++ ['='] := by decide
  have hdomain : "; path=/; domain=".toList =
      ';' :: ' ' :: part "path".toList "/".toList ++ ';' :: ' ' :: ("domain".toList ++ ['=']) := by
    decide
  have hexpires : "; expires=".toList = ';' :: ' ' :: ("expires".toList ++ ['=']) := by decide
  have hflag : "; HttpOnly".toList = ';' :: ' ' :: "HttpOnly".toList := by decide
  unfold sessionHeader
  rw [hpair, hdomain, hexpires, hflag]
  exact (intercalate_parts "token".toList "path".toList "/".toList "domain".toList "expires".toList
    "HttpOnly".toList token domain expires).symm

/-- **The header denotes the cookie of its token** exactly when its texts are clean. -/
theorem parseSetCookie_sessionHeader_iff (domain expires token : Text) :
    parseSetCookie (sessionHeader domain expires token) = some (sessionCookie domain expires token) ↔
      Clean token ∧ Clean domain ∧ Clean expires := by
  constructor
  · intro h
    obtain ⟨hvalue, hattributes⟩ := parseSetCookie_clean h
    exact ⟨hvalue, hattributes ("domain".toList, domain) (by simp [sessionCookie]),
      hattributes ("expires".toList, expires) (by simp [sessionCookie])⟩
  · rintro ⟨htoken, hdomain, hexpires⟩
    have hname : CleanName "token".toList := by decide
    have hpath : CleanName "path".toList := by decide
    have hslash : Clean "/".toList := by decide
    have hdomainName : CleanName "domain".toList := by decide
    have hexpiresName : CleanName "expires".toList := by decide
    have hflag : CleanName "HttpOnly".toList := by decide
    rw [sessionHeader_eq_intercalate, parseSetCookie_header hname htoken _ ?_]
    · simp only [List.map_cons, List.map_nil, parseAttribute_part hpath hslash,
        parseAttribute_part hdomainName hdomain, parseAttribute_part hexpiresName hexpires,
        parseAttribute_flag hflag]
      rfl
    · intro p hp
      simp only [List.mem_cons, List.not_mem_nil, or_false] at hp
      obtain rfl | rfl | rfl | rfl := hp
      · decide
      · simp [part, hdomain.1]
      · simp [part, hexpires.1]
      · decide

/-- The same for the header of the handler. -/
theorem parseSetCookie_setCookie_iff (px : Proxy V) (token : Text) :
    parseSetCookie (setCookie px token) = some (tokenCookie px token) ↔ CleanHeader px token :=
  parseSetCookie_sessionHeader_iff px.proxyDomainname px.expires token

/-! ## Where the handler raises -/

/-- An entry at which the loop raises: its key or the check of its claim. -/
def RaisingEntry (px : Proxy V) (payload : Payload V) (entry : ClaimKey × ClaimSpec V) : Prop :=
  entry.1 = .other ∨ ∃ claim value, entry.1 = .name claim ∧ payload claim = some value ∧
    specAction px entry.2 value = some none

/-- The requests the handler neither authorizes nor refuses, by what raises. -/
def Raises (px : Proxy V) (access : Access V) (token : Text) : Prop :=
  px.verify token = none ∨ ∃ payload, Verified px token payload ∧
    (px.encodes payload = false ∨
      (px.connect access.redisServer = true ∧
        ∃ user, payload "user_id".toList = some user ∧ px.concat user = none) ∨
      (ClusterAllowed px access payload ∧
        ((∃ e, FirstFailing px payload access.claimSpecs.entries e ∧ RaisingEntry px payload e) ∨
          (ClaimsPass px access payload ∧ px.setsHeader (payload "sub".toList) = false))))

/-- The loop raises at an entry exactly when its key or the check of its claim does. -/
theorem checkClaim_eq_raises_iff {entry : ClaimKey × ClaimSpec V} :
    checkClaim px payload entry = .raises ↔ RaisingEntry px payload entry := by
  obtain ⟨key, spec⟩ := entry
  cases key with
  | name claim =>
    cases hvalue : payload claim with
    | none => simp [checkClaim, ClaimKey.concat, claimValue, hvalue, RaisingEntry]
    | some value =>
      have hiff : checkClaim px payload (.name claim, spec) = .raises ↔
          specAction px spec value = some none := by
        simp only [checkClaim, ClaimKey.concat, claimValue, hvalue]
        split <;> simp_all
      rw [hiff]
      constructor
      · exact fun h => .inr ⟨claim, value, rfl, hvalue, h⟩
      · rintro (⟨⟨⟩⟩ | ⟨_, value', ⟨⟩, hvalue', h⟩)
        rw [hvalue] at hvalue'
        rwa [Option.some.inj hvalue']
  | number rendered => simp [checkClaim, ClaimKey.concat, claimValue, RaisingEntry]
  | other => simp [checkClaim, ClaimKey.concat, RaisingEntry]

/-- The part on `claim_specs` raises exactly when the first entry that is not satisfied does. -/
theorem requireClaims_eq_raise_iff : requireClaims px payload access.claimSpecs = .error .raise ↔
    ∃ e, FirstFailing px payload access.claimSpecs.entries e ∧ RaisingEntry px payload e := by
  cases hspecs : access.claimSpecs with
  | missing => simp [requireClaims, ClaimSpecs.entries, FirstFailing]
  | notTable => simp [requireClaims, ClaimSpecs.entries, FirstFailing]
  | table entries =>
    show requireClaims px payload (.table entries) = _ ↔ ∃ e, FirstFailing px payload entries e ∧ _
    have hiff : requireClaims px payload (.table entries) = .error .raise ↔
        checkClaims px payload entries = .error .raise := by
      simp only [requireClaims]
      cases checkClaims px payload entries with
      | error stop => simp
      | ok blockingClaim => by_cases h : blockingClaim = [] <;> simp [h]
    rw [hiff]
    constructor
    · intro h
      obtain hall | ⟨e, hfirst⟩ := forall_satisfied_or_exists_firstFailing px payload entries
      · rw [checkClaims_of_forall hall] at h
        cases h
      · refine ⟨e, hfirst, checkClaim_eq_raises_iff.1 ?_⟩
        rw [hfirst.checkClaims] at h
        cases hcheck : checkClaim px payload e with
        | raises => rfl
        | satisfied => rw [hcheck] at h; cases h
        | blocked blockingClaim => rw [hcheck] at h; cases h
        | misconfigured => rw [hcheck] at h; cases h
    · rintro ⟨e, hfirst, hraising⟩
      rw [hfirst.checkClaims, checkClaim_eq_raises_iff.2 hraising]
      rfl

/-- The part on Redis raises exactly when the user cannot be concatenated. -/
theorem requireCluster_eq_raise_iff : requireCluster px access payload = .error .raise ↔
    px.connect access.redisServer = true ∧
      ∃ user, payload "user_id".toList = some user ∧ px.concat user = none := by
  unfold requireCluster
  cases hconnect : px.connect access.redisServer
  · simp
  cases huser : payload "user_id".toList with
  | none => simp
  | some user =>
    cases hconcat : px.concat user with
    | none => simp [hconcat]
    | some userId =>
      simp only [Bool.not_true, Bool.false_eq_true, if_false, true_and, Option.some.injEq,
        exists_eq_left', hconcat, reduceCtorEq, iff_false]
      split <;> simp

/-- **Where the handler raises** behind the cookie. -/
theorem authorize_eq_raise_iff : authorize px access token = .error .raise ↔
    Raises px access token := by
  unfold authorize Raises Verified
  cases hverify : px.verify token with
  | none => simp
  | some jwt =>
    obtain ⟨verified, payload⟩ := jwt
    cases verified with
    | false => simp
    | true =>
      have hpayload : ∀ p : Payload V, some (Jwt.mk true payload) = some ⟨true, p⟩ ↔ p = payload := by
        intro p
        simp [eq_comm]
      simp only [hpayload, exists_eq_left, Bool.true_eq_false, if_false, reduceCtorEq, false_or]
      cases hencodes : px.encodes payload
      · simp
      simp only [Bool.true_eq_false, if_false, false_or]
      rw [← requireCluster_eq_raise_iff, ← requireCluster_eq_ok_iff, ← requireClaims_eq_raise_iff,
        ← requireClaims_eq_ok_iff]
      cases requireCluster px access payload with
      | error stop => simp [bind, Except.bind]
      | ok _ =>
        cases requireClaims px payload access.claimSpecs with
        | error stop => simp [bind, Except.bind]
        | ok _ =>
          by_cases hheader : px.setsHeader (payload "sub".toList) = true <;>
            simp [bind, Except.bind]

/-! ## The discipline -/

/-- What an authorized token is, by its payload. -/
def Admitted (px : Proxy V) (access : Access V) (token : Text) : Prop :=
  ∃ payload, Verified px token payload ∧ px.encodes payload = true ∧
    ClusterAllowed px access payload ∧ ClaimsPass px access payload ∧
    px.setsHeader (payload "sub".toList) = true

/-- The handler returns behind the cookie exactly for admitted tokens. -/
theorem exists_authorize_eq_ok_iff :
    (∃ userId, authorize px access token = .ok userId) ↔ Admitted px access token := by
  constructor
  · rintro ⟨userId, hok⟩
    obtain ⟨payload, hverified, hencodes, hcluster, hclaims, hheader, -⟩ := authorize_eq_ok_iff.1 hok
    exact ⟨payload, hverified, hencodes, hcluster, hclaims, hheader⟩
  · rintro ⟨payload, hverified, hencodes, hcluster, hclaims, hheader⟩
    exact ⟨_, authorize_eq_ok_iff.2 ⟨payload, hverified, hencodes, hcluster, hclaims, hheader, rfl⟩⟩

/-- **When the header keeps its discipline**: the request presents no token, or something raises, or
the token is admitted and the texts of the header are clean. A token that is refused always breaks
it. -/
theorem discipline_iff (px : Proxy V) (access : Access V) (r : Request) :
    Discipline px access r ↔ ∀ token, selectToken r = some token →
      Raises px access token ∨ (Admitted px access token ∧ CleanHeader px token) := by
  unfold Discipline auth
  cases hselected : selectToken r with
  | none => simp
  | some token =>
    simp only [Option.some.injEq, forall_eq', Option.bind_some, reduceCtorEq]
    rw [← authorize_eq_raise_iff, ← exists_authorize_eq_ok_iff, ← parseSetCookie_setCookie_iff]
    cases houtcome : authorize px access token with
    | error stop =>
      cases stop with
      | exit status =>
        -- refused behind the cookie
        simp
      | raise => simp
    | ok userId =>
      constructor
      · rintro ⟨-, hok⟩
        obtain ⟨token', c, rfl, hparse, rfl, -⟩ := hok userId rfl
        exact .inr ⟨⟨userId, rfl⟩, hparse⟩
      · rintro (⟨⟨⟩⟩ | ⟨-, hparse⟩)
        refine ⟨fun status h => ?_, fun _ _ => ⟨token, tokenCookie px token, rfl, hparse, rfl, rfl⟩⟩
        cases h

/-- **A refused token comes back as a cookie, and an authorized one as another cookie**: the request of
a stranger is refused with a `Set-Cookie` header, and a token with text behind its signature is
accepted and sets the domain of the cookie. -/
theorem discipline_fails :
    (∃ (px : Proxy Text) (access : Access Text) (r : Request),
      (auth px access r).2 = .error (.exit 401) ∧ ¬Discipline px access r) ∧
    ∃ (px : Proxy Text) (access : Access Text) (r : Request),
      (auth px access r).2 = .ok none ∧ ¬Discipline px access r := by
  constructor
  · refine ⟨demoProxy, ⟨.missing, "c2".toList, "redis".toList, "main".toList⟩, bearerRequest,
      by decide, fun h => ?_⟩
    have hnone := h.1 401 (by decide)
    revert hnone
    decide
  · refine ⟨demoProxy, ⟨.missing, "c1".toList, "redis".toList, "main".toList⟩,
      ⟨some "Bearer h.p.s.; domain=evil.org".toList, none, none⟩, by decide, fun h => ?_⟩
    obtain ⟨token, c, hselected, hparse, rfl, -⟩ := h.2 none (by decide)
    have htoken : selectToken ⟨some "Bearer h.p.s.; domain=evil.org".toList, none, none⟩ =
        some "h.p.s.; domain=evil.org".toList := by decide
    obtain rfl := Option.some.inj (htoken.symm.trans hselected)
    revert hparse
    decide

end GexCloud.WebProxy
