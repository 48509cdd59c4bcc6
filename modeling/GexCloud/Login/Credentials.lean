import GexCloud.Login.GexLogin
import GexCloud.Support.Glob
import GexCloud.Support.Queries
import Mathlib.Data.List.Nodup
import Mathlib.Data.Nat.Find

/-! # The credentials on their way to the API

A user name, a password and a host name go through two encodings before the API sees them: `gex-login` hands
them to the script as unquoted words of the shell, and the script writes them into the query of a request as they
are.

* `Credentials`, `Patterns` — what a login starts from, and the patterns of the pathname expansion.
* `Node.request` — what the script asks the API.
* `Carries`, `Unaltered` — the request carries the three values; it does so whatever files there are.
* `Patterns.Plain` — nothing in the values is special to the shell or to a query.
* **`unaltered_iff`** — the values arrive unaltered exactly when they are plain. -/

namespace GexCloud.Login

open Texts Queries

/-! ## The values -/

/-- A password that `read` can take in: not of one byte, without backslashes, newlines and null bytes, and without
blanks at its ends. -/
structure IsPassword (p : Text) : Prop where
  length : shLength p ≠ 1
  chars : '\\' ∉ p ∧ '\n' ∉ p ∧ '\x00' ∉ p
  first : ∀ ch ∈ p.head?, ch ≠ ' ' ∧ ch ≠ '\t'
  last : ∀ ch ∈ p.getLast?, ch ≠ ' ' ∧ ch ≠ '\t'

/-- What a login starts from. -/
structure Credentials where
  pamUser : Text
  token : Text
  hostname : Text
  token_ok : IsPassword token

/-- The pattern matching of the shell: which names a field accepts as a pattern. A pattern that accepts another name
than itself accepts one that is no longer than it is. -/
structure Patterns where
  accepts : Text → Text → Bool
  short : ∀ field name, accepts field name = true → name ≠ field →
    ∃ other, accepts field other = true ∧ other ≠ field ∧ size other ≤ size field

/-- The pathname expansion of a field where these names exist: a field that accepts none of them stays. -/
def Patterns.expand (P : Patterns) (names : List Text) (field : Text) : List Text :=
  if names.filter (P.accepts field) = [] then [field] else names.filter (P.accepts field)

/-- The patterns whose only special character is the star. -/
def Patterns.stars : Patterns where
  accepts := Glob.wild
  short field name haccepts hne := by
    have hstar : '*' ∈ field := by
      by_contra hstar
      rw [Glob.wild_literal hstar, decide_eq_true_eq] at haccepts
      exact hne haccepts.symm
    refine ⟨field.filter (· != '*'), Glob.wild_filter field, fun heq => ?_, size_le_of_sublist List.filter_sublist⟩
    rw [← heq] at hstar
    simpa using (List.mem_filter.mp hstar).2

/-- The login: the password comes with a null byte behind it, the host name with a newline. -/
def Credentials.input (c : Credentials) (glob : Text → List Text) : Input where
  pamUser := c.pamUser
  stdin := c.token ++ ['\x00']
  hostname := c.hostname ++ ['\n']
  glob := glob

/-! ## The request -/

/-- What `gexauth.rb` of the nodes asks the API; without a second argument it does not get that far. -/
def Node.request (argv : List Text) : Option Text := argv[1]?.map fun _ => Node.path argv

/-- The script depends on the API by its answer to this request only. -/
theorem Node.gexauth_congr {api api' : Api} {argv : List Text}
    (h : ∀ target, Node.request argv = some target → api target = api' target) :
    Node.gexauth api argv = Node.gexauth api' argv := by
  unfold Node.gexauth
  cases htoken : argv[1]? with
  | none => rfl
  | some token =>
    have hsame := h (Node.path argv) (by rw [Node.request, htoken, Option.map_some])
    rw [hsame]

/-- The parameters that are to arrive. -/
def arguments (username token hostname : Text) : List (Text × Text) :=
  [("format".toList, "json".toList), ("username".toList, username), ("token".toList, token),
    ("hostname".toList, hostname)]

/-- The request of this command line carries exactly the three values. -/
def Carries (c : Credentials) (argv : List Text) : Prop :=
  ∃ target, Node.request argv = some target ∧
    parameters (query target) = (arguments c.pamUser c.token c.hostname).map encoded

/-- The request of the login carries the values, whatever files there are. -/
def Unaltered (P : Patterns) (c : Credentials) : Prop :=
  ∀ names : List Text, names.Nodup → Carries c (commandWords (c.input (P.expand names)))

/-- Nothing in the text ends a query or a parameter, or is decoded. -/
structure Fixed (x : Text) : Prop where
  separator : '&' ∉ x
  fragment : '#' ∉ x ∧ '\r' ∉ x
  escape : ¬ HasEscape x

/-- The text is one word for the shell: no white space, and no pattern of another name. -/
structure Patterns.Word (P : Patterns) (x : Text) : Prop where
  blank : ∀ ch ∈ x, isIfs ch = false
  literal : ∀ name, P.accepts x name = true → name = x

/-- The user name and the password are not empty, the password has no white space at its ends, and nothing in the
values is special to the shell or to a query. -/
structure Patterns.Plain (P : Patterns) (c : Credentials) : Prop where
  filled : c.pamUser ≠ [] ∧ c.token ≠ []
  stripped : strip c.token = c.token
  words : ∀ x ∈ [c.pamUser, c.token, c.hostname], P.Word x
  fixed : ∀ x ∈ [c.pamUser, c.token, c.hostname], Fixed x

/-! ## The shell -/

/-- `read` takes the characters of a password as they are. -/
theorem readChars_of_not_mem {p : Text} (hback : '\\' ∉ p) (hnewline : '\n' ∉ p) :
    readChars p = p.map fun ch => (ch, false) := by
  induction p with
  | nil => rfl
  | cons ch p ih =>
    rw [List.mem_cons, not_or] at hback hnewline
    rw [readChars, if_neg (Ne.symm hnewline.1), ih hback.2 hnewline.2, List.map_cons]
    · exact fun h _ => hback.1 h.symm
    · exact fun _ _ h _ => hback.1 h.symm

/-- **`read` takes in the password.** -/
theorem shRead_token {p : Text} (h : IsPassword p) : shRead (p ++ ['\x00']) = p := by
  obtain ⟨hback, hnewline, hnull⟩ := h.chars
  have hfilter : (p ++ ['\x00']).filter (· != '\x00') = p := by
    rw [List.filter_append, List.filter_eq_self.mpr]
    · exact List.append_nil p
    · intro ch hch
      rw [bne_iff_ne]
      rintro rfl
      exact hnull hch
  have hifs : ∀ ch ∈ p, ch ≠ ' ' ∧ ch ≠ '\t' → isIfs ch = false := by
    rintro ch hch ⟨hspace, htab⟩
    have hne : ch ≠ '\n' := fun heq => hnewline (heq ▸ hch)
    simp [isIfs, hspace, htab, hne]
  rw [shRead, hfilter, readChars_of_not_mem hback hnewline, stripBy_of_ends]
  · rw [List.map_map]
    exact List.map_id p
  · intro y hy
    rw [List.head?_map, Option.mem_def, Option.map_eq_some_iff] at hy
    obtain ⟨ch, hch, rfl⟩ := hy
    rw [hifs ch (List.mem_of_mem_head? hch) (h.first ch hch)]
    rfl
  · intro y hy
    rw [List.getLast?_map, Option.mem_def, Option.map_eq_some_iff] at hy
    obtain ⟨ch, hch, rfl⟩ := hy
    rw [hifs ch (List.mem_of_mem_getLast? hch) (h.last ch hch)]
    rfl

/-- The fields together are the text without the white space of `IFS`. -/
theorem flatten_fields (s : Text) : (fields s).flatten = s.filter fun ch => !isIfs ch := by
  have hsplit : (s.splitOnP isIfs).flatten = s.filter fun ch => !isIfs ch := by
    induction s with
    | nil => rfl
    | cons ch s ih =>
      rw [List.splitOnP_cons_eq_if_modifyHead]
      cases hifs : isIfs ch with
      | true => simpa [hifs] using ih
      | false =>
        rw [List.filter_cons_of_pos (by simp [hifs]), ← ih]
        cases hs : s.splitOnP isIfs with
        | nil => exact absurd hs (List.splitOnP_ne_nil _ _)
        | cons first rest => simp
  rw [fields, ← hsplit]
  exact List.flatten_filter_ne_nil

/-- A text without white space is its only field. -/
theorem fields_of_forall {s : Text} (h : ∀ ch ∈ s, isIfs ch = false) : fields s = if s = [] then [] else [s] := by
  rw [fields, List.splitOnP_eq_singleton h]
  cases s <;> simp

/-- A newline at the end makes no field. -/
theorem fields_append_newline (s : Text) : fields (s ++ ['\n']) = fields s := by
  rw [fields, @List.splitOnP_append_cons _ isIfs s [] '\n' (by decide), List.filter_append]
  simp [fields]

/-- The words of the command line. -/
theorem commandWords_input (glob : Text → List Text) (c : Credentials) :
    commandWords (c.input glob) = (fields c.pamUser ++ fields c.token ++ fields c.hostname).flatMap glob := by
  have hpassword : password (c.input glob) = c.token := by
    rw [password, Credentials.input, shRead_token c.token_ok, if_neg c.token_ok.length]
  rw [commandWords, hpassword, shWords, Credentials.input, List.flatMap_cons, List.flatMap_cons, List.flatMap_cons,
    List.flatMap_nil, fields_append_newline, List.append_nil, List.append_assoc]

/-! ## The query -/

/-- The parameters as the script writes them. -/
def written (argv : List Text) : List (Text × Text) :=
  arguments (interpolate argv[0]?) (interpolate (argv[1]?.map strip)) (interpolate argv[2]?)

/-- A query of four parameters. -/
theorem join_four (k₁ k₂ k₃ k₄ v₁ v₂ v₃ v₄ : Text) : join [(k₁, v₁), (k₂, v₂), (k₃, v₃), (k₄, v₄)] =
    k₁ ++ '=' :: (v₁ ++ '&' :: (k₂ ++ '=' :: (v₂ ++ '&' :: (k₃ ++ '=' :: (v₃ ++ '&' :: (k₄ ++ '=' :: v₄)))))) := by
  simp only [join, assignment, List.map_cons, List.map_nil, List.intercalate_cons_cons, List.intercalate_singleton,
    List.append_assoc, List.cons_append, List.nil_append]

/-- The pieces of the request, put together as a query. -/
theorem path_shape {host k₁ k₂ k₃ k₄ v₁ v₂ v₃ v₄ p₁ p₂ p₃ p₄ : Text} (h₁ : p₁ = host ++ '?' :: (k₁ ++ ['=']))
    (h₂ : p₂ = '&' :: (k₂ ++ ['='])) (h₃ : p₃ = '&' :: (k₃ ++ ['='])) (h₄ : p₄ = '&' :: (k₄ ++ ['='])) :
    p₁ ++ v₁ ++ p₂ ++ v₂ ++ p₃ ++ v₃ ++ p₄ ++ v₄ =
      host ++ '?' :: join [(k₁, v₁), (k₂, v₂), (k₃, v₃), (k₄, v₄)] := by
  subst h₁ h₂ h₃ h₄
  rw [join_four]
  simp only [List.append_assoc, List.cons_append, List.nil_append]

/-- The request is the path of the service and the query of the arguments. -/
theorem requestPath_eq (a b d : Option Text) : requestPath "json".toList a b d =
    "/auth_access_cluster/".toList ++ '?' :: join (arguments (interpolate a) (interpolate b) (interpolate d)) :=
  path_shape (by decide) (by decide) (by decide) (by decide)

/-- The query of the request, up to what ends a query. -/
theorem query_path (argv : List Text) :
    query (Node.path argv) = (join (written argv)).takeWhile fun ch => ch != '#' && ch != '\r' := by
  have hmark : '?' ∉ "/auth_access_cluster/".toList := by decide
  rw [Node.path, requestPath_eq, query, cut_append hmark]
  rfl

/-- The length of a query of arguments. -/
theorem size_join_arguments (a b d : Text) :
    size (join (arguments a b d)) = 38 + (size a + size b + size d) := by
  have hformat : size "format".toList = 6 := by decide
  have hjson : size "json".toList = 4 := by decide
  have husername : size "username".toList = 8 := by decide
  have htoken : size "token".toList = 5 := by decide
  have hhostname : size "hostname".toList = 8 := by decide
  have hsign : Char.utf8Size '=' = 1 := by decide
  have hamp : Char.utf8Size '&' = 1 := by decide
  rw [arguments, join_four]
  simp only [size_append, size_cons, hformat, hjson, husername, htoken, hhostname, hsign, hamp]
  clear hformat hjson husername htoken hhostname hsign hamp
  omega

/-- Without separators in the values, the query of arguments has its four parts. -/
theorem splitOn_join_arguments {a b d : Text} (ha : '&' ∉ a) (hb : '&' ∉ b) (hd : '&' ∉ d) :
    (join (arguments a b d)).splitOn '&' = (arguments a b d).map assignment := by
  refine List.splitOn_intercalate '&' ?_ (List.cons_ne_nil _ _)
  have hpart : ∀ k v : Text, '&' ∉ k → '&' ∉ v → '&' ∉ assignment (k, v) := by
    intro k v hk hv
    rw [assignment, List.mem_append, List.mem_cons, not_or, not_or]
    exact ⟨hk, by decide, hv⟩
  intro part hmem
  simp only [arguments, List.map_cons, List.map_nil, List.mem_cons, List.not_mem_nil, or_false] at hmem
  rcases hmem with rfl | rfl | rfl | rfl
  · exact hpart _ _ (by decide) (by decide)
  · exact hpart _ _ (by decide) ha
  · exact hpart _ _ (by decide) hb
  · exact hpart _ _ (by decide) hd

/-- The separators in a query of arguments. -/
theorem count_join_arguments (a b d : Text) :
    (join (arguments a b d)).count '&' = 3 + (a.count '&' + b.count '&' + d.count '&') := by
  have hkeys : ∀ k ∈ ["format".toList, "json".toList, "username".toList, "token".toList, "hostname".toList],
      k.count '&' = 0 := by decide
  simp only [List.forall_mem_cons, List.not_mem_nil, false_implies, implies_true, and_true] at hkeys
  obtain ⟨hformat, hjson, husername, htoken, hhostname⟩ := hkeys
  rw [arguments, join_four]
  simp only [List.count_append, List.count_cons, hformat, hjson, husername, htoken, hhostname]
  simp
  omega

/-- A query of arguments is one of such values without separators only for these values. -/
theorem join_arguments_inj {a b d a' b' d' : Text} (h : join (arguments a b d) = join (arguments a' b' d'))
    (ha' : '&' ∉ a') (hb' : '&' ∉ b') (hd' : '&' ∉ d') : a = a' ∧ b = b' ∧ d = d' := by
  have hcount := congrArg (List.count '&') h
  rw [count_join_arguments, count_join_arguments, List.count_eq_zero.mpr ha', List.count_eq_zero.mpr hb',
    List.count_eq_zero.mpr hd'] at hcount
  have ha : '&' ∉ a := List.count_eq_zero.mp (by omega)
  have hb : '&' ∉ b := List.count_eq_zero.mp (by omega)
  have hd : '&' ∉ d := List.count_eq_zero.mp (by omega)
  have hparts := congrArg (List.splitOn '&') h
  rw [splitOn_join_arguments ha hb hd, splitOn_join_arguments ha' hb' hd'] at hparts
  simp only [arguments, List.map_cons, List.map_nil, List.cons.injEq, assignment, List.append_cancel_left_eq,
    and_true, true_and] at hparts
  exact hparts

/-- The parameters of fixed values are plain. -/
theorem plain_arguments {a b d : Text} (h : ∀ x ∈ [a, b, d], Fixed x) :
    ∀ kv ∈ arguments a b d, Queries.Plain kv := by
  simp only [List.forall_mem_cons, List.not_mem_nil, false_implies, implies_true, and_true] at h
  obtain ⟨ha, hb, hd⟩ := h
  have hplain : ∀ k v : Text, '=' ∉ k → '&' ∉ k → ¬ HasEscape k → Fixed v → Queries.Plain (k, v) :=
    fun k v hsign hsep hescape hv => ⟨hsign, ⟨hsep, hv.separator⟩, hescape, hv.escape⟩
  have hjson : Fixed "json".toList := ⟨by decide, by decide, by decide⟩
  simp only [arguments, List.forall_mem_cons, List.not_mem_nil, false_implies, implies_true, and_true]
  refine ⟨hplain _ _ ?_ ?_ ?_ hjson, hplain _ _ ?_ ?_ ?_ ha, hplain _ _ ?_ ?_ ?_ hb, hplain _ _ ?_ ?_ ?_ hd⟩
  all_goals decide

/-- What a query of arguments holds beside the keys and the signs. -/
theorem mem_join_arguments_iff {a b d : Text} {ch : Char} (hch : ch = '#' ∨ ch = '\r') :
    ch ∈ join (arguments a b d) ↔ ch ∈ a ∨ ch ∈ b ∨ ch ∈ d := by
  have hkeys : ∀ k ∈ ["format".toList, "json".toList, "username".toList, "token".toList, "hostname".toList],
      '#' ∉ k ∧ '\r' ∉ k := by decide
  have hkey : ∀ k ∈ ["format".toList, "json".toList, "username".toList, "token".toList, "hostname".toList],
      ch ∉ k := by
    rintro k hk
    rcases hch with rfl | rfl
    · exact (hkeys k hk).1
    · exact (hkeys k hk).2
  simp only [List.forall_mem_cons, List.not_mem_nil, false_implies, implies_true, and_true] at hkey
  obtain ⟨hformat, hjson, husername, htoken, hhostname⟩ := hkey
  have hsigns : ch ≠ '=' ∧ ch ≠ '&' := by rcases hch with rfl | rfl <;> decide
  rw [arguments, join_four]
  simp only [List.mem_append, List.mem_cons, hformat, hjson, husername, htoken, hhostname, hsigns.1, hsigns.2,
    false_or]

/-- What ends a query is in none of the values, or the query of the request ends before its end. -/
theorem takeWhile_join_arguments_iff {a b d : Text} :
    ((join (arguments a b d)).takeWhile fun ch => ch != '#' && ch != '\r') = join (arguments a b d) ↔
      ∀ x ∈ [a, b, d], '#' ∉ x ∧ '\r' ∉ x := by
  have hmark := @mem_join_arguments_iff a b d '#' (.inl rfl)
  have hreturn := @mem_join_arguments_iff a b d '\r' (.inr rfl)
  rw [List.takeWhile_eq_self_iff]
  simp only [Bool.and_eq_true, bne_iff_ne, List.forall_mem_cons, List.not_mem_nil, false_implies, implies_true,
    and_true]
  constructor
  · intro h
    have hnomark : '#' ∉ join (arguments a b d) := fun hmem => (h _ hmem).1 rfl
    have hnoreturn : '\r' ∉ join (arguments a b d) := fun hmem => (h _ hmem).2 rfl
    rw [hmark, not_or, not_or] at hnomark
    rw [hreturn, not_or, not_or] at hnoreturn
    exact ⟨⟨hnomark.1, hnoreturn.1⟩, ⟨hnomark.2.1, hnoreturn.2.1⟩, hnomark.2.2, hnoreturn.2.2⟩
  · rintro ⟨ha, hb, hd⟩ ch hch
    constructor
    · rintro rfl
      rcases hmark.mp hch with hmem | hmem | hmem
      exacts [ha.1 hmem, hb.1 hmem, hd.1 hmem]
    · rintro rfl
      rcases hreturn.mp hch with hmem | hmem | hmem
      exacts [ha.2 hmem, hb.2 hmem, hd.2 hmem]

/-- **What a request says**: when the values written are together no longer than those to arrive, these arrive
only if they are written, and nothing in them is special. -/
theorem parameters_path_iff {argv : List Text} {u p h : Text}
    (hle : size (interpolate argv[0]?) + size (interpolate (argv[1]?.map strip)) + size (interpolate argv[2]?) ≤
      size u + size p + size h) :
    parameters (query (Node.path argv)) = (arguments u p h).map encoded ↔
      (interpolate argv[0]? = u ∧ interpolate (argv[1]?.map strip) = p ∧ interpolate argv[2]? = h) ∧
        ∀ x ∈ [u, p, h], Fixed x := by
  have hne : arguments u p h ≠ [] := List.cons_ne_nil _ _
  rw [query_path, written]
  generalize interpolate argv[0]? = a at *
  generalize interpolate (argv[1]?.map strip) = b at *
  generalize interpolate argv[2]? = d at *
  constructor
  · intro hparameters
    have hprefix := (List.takeWhile_prefix (l := join (arguments a b d)) fun ch => ch != '#' && ch != '\r').sublist
    have hsize := size_le_of_sublist hprefix
    have hab := size_join_arguments a b d
    have hup := size_join_arguments u p h
    obtain ⟨hjoin, hplain⟩ := eq_join_of_parameters hne hparameters (by omega)
    -- nothing of what is written is cut off
    have hwhole := eq_of_sublist hprefix (by rw [hjoin]; omega)
    rw [hwhole] at hjoin
    simp only [arguments, List.forall_mem_cons, List.not_mem_nil, false_implies, implies_true, and_true] at hplain
    obtain ⟨-, hu, hp, hh⟩ := hplain
    obtain ⟨rfl, rfl, rfl⟩ := join_arguments_inj hjoin hu.separator.2 hp.separator.2 hh.separator.2
    have hfragment := takeWhile_join_arguments_iff.mp hwhole
    simp only [List.forall_mem_cons, List.not_mem_nil, false_implies, implies_true, and_true] at hfragment ⊢
    exact ⟨trivial, ⟨hu.separator.2, hfragment.1, hu.escape.2⟩,
      ⟨hp.separator.2, hfragment.2.1, hp.escape.2⟩, ⟨hh.separator.2, hfragment.2.2, hh.escape.2⟩⟩
  · rintro ⟨⟨rfl, rfl, rfl⟩, hfixed⟩
    rw [takeWhile_join_arguments_iff.mpr fun x hx => (hfixed x hx).fragment]
    exact parameters_join hne (plain_arguments hfixed)

/-! ## One word a value -/

variable {P : Patterns} {c : Credentials}

/-- A field that accepts no other name stays as it is. -/
theorem Patterns.expand_of_literal {names : List Text} {x : Text} (hnodup : names.Nodup)
    (h : ∀ name, P.accepts x name = true → name = x) : P.expand names x = [x] := by
  have hfound := hnodup.filter (P.accepts x)
  have hsame : ∀ name ∈ names.filter (P.accepts x), name = x := fun name hname => h name (List.mem_filter.mp hname).2
  unfold Patterns.expand
  generalize names.filter (P.accepts x) = found at hfound hsame
  cases found with
  | nil => rfl
  | cons name found =>
    have hname := hsame name List.mem_cons_self
    subst hname
    -- another one would be the same name again
    have hrest : found = [] := List.eq_nil_iff_forall_not_mem.mpr fun other hother =>
      (List.nodup_cons.mp hfound).1 (hsame other (List.mem_cons_of_mem _ hother) ▸ hother)
    rw [if_neg (List.cons_ne_nil _ _), hrest]

/-- The words written are together no longer than the words there are. -/
theorem size_written_le (ws : List Text) :
    size (interpolate ws[0]?) + size (interpolate (ws[1]?.map strip)) + size (interpolate ws[2]?) ≤
      size ws.flatten := by
  have hstrip : ∀ w : Text, size (strip w) ≤ size w := fun w =>
    size_le_of_sublist ((List.rdropWhile_prefix _ _).sublist.trans (List.dropWhile_sublist _))
  match ws with
  | [] => exact Nat.le_refl _
  | [a] =>
    simp [interpolate]
  | [a, b] =>
    have hb := hstrip b
    simp [interpolate]
    omega
  | a :: b :: d :: ws =>
    have hb := hstrip b
    simp [interpolate]
    omega

/-- Where every value is one word for the shell, and made no longer by the pathname expansion, the request carries
the values when the expansion leaves them and nothing in them is special. -/
theorem carries_iff_of_words {glob : Text → List Text} {e : Text → Text}
    (hglob : ∀ x ∈ [c.pamUser, c.token, c.hostname], glob x = [e x])
    (hsize : ∀ x ∈ [c.pamUser, c.token, c.hostname], size (e x) ≤ size x)
    (hblank : ∀ x ∈ [c.pamUser, c.token, c.hostname], ∀ ch ∈ x, isIfs ch = false)
    (hfilled : c.pamUser ≠ [] ∧ c.token ≠ []) :
    Carries c (commandWords (c.input glob)) ↔
      (e c.pamUser = c.pamUser ∧ strip (e c.token) = c.token ∧ e c.hostname = c.hostname) ∧
        ∀ x ∈ [c.pamUser, c.token, c.hostname], Fixed x := by
  simp only [List.forall_mem_cons, List.not_mem_nil, false_implies, implies_true, and_true] at hglob hsize hblank
  obtain ⟨hglobu, hglobp, hglobh⟩ := hglob
  obtain ⟨hsizeu, hsizep, hsizeh⟩ := hsize
  obtain ⟨hblanku, hblankp, hblankh⟩ := hblank
  have hwords : commandWords (c.input glob) =
      e c.pamUser :: e c.token :: (if c.hostname = [] then [] else [e c.hostname]) := by
    rw [commandWords_input, fields_of_forall hblanku, fields_of_forall hblankp, fields_of_forall hblankh,
      if_neg hfilled.1, if_neg hfilled.2, List.flatMap_append, List.flatMap_append, List.flatMap_singleton,
      List.flatMap_singleton, hglobu, hglobp]
    split
    · rfl
    · rw [List.flatMap_singleton, hglobh]
      rfl
  have hthird : interpolate (commandWords (c.input glob))[2]? = e c.hostname := by
    rw [hwords]
    split
    · rename_i hnil
      rw [hnil] at hsizeh ⊢
      exact (eq_nil_of_size (Nat.le_zero.mp hsizeh)).symm
    · rfl
  have hle := size_written_le (commandWords (c.input glob))
  have hlen : size (commandWords (c.input glob)).flatten ≤
      size c.pamUser + size c.token + size c.hostname := by
    rw [hwords]
    split
    · simp
      omega
    · simp
      omega
  have hrequest : Node.request (commandWords (c.input glob)) = some (Node.path (commandWords (c.input glob))) := by
    rw [Node.request, hwords]
    rfl
  unfold Carries
  rw [hrequest]
  simp only [Option.some.injEq, exists_eq_left']
  rw [parameters_path_iff (by omega), hthird, hwords]
  rfl

/-- **Plain values arrive unaltered.** -/
theorem Patterns.Plain.unaltered (h : P.Plain c) : Unaltered P c := by
  intro names hnodup
  refine (@carries_iff_of_words c (P.expand names) id ?_ ?_ ?_ h.filled).mpr ⟨⟨rfl, h.stripped, rfl⟩, h.fixed⟩
  · exact fun x hx => expand_of_literal hnodup (h.words x hx).literal
  · exact fun x _ => Nat.le_refl _
  · exact fun x hx => (h.words x hx).blank

/-! ## Values that are not plain -/

/-- Where there are no files, the values arrive only as one word each. -/
theorem words_of_carries (h : Carries c (commandWords (c.input fun x => [x]))) :
    (∀ x ∈ [c.pamUser, c.token, c.hostname], ∀ ch ∈ x, isIfs ch = false) ∧ c.pamUser ≠ [] ∧ c.token ≠ [] := by
  obtain ⟨target, hrequest, hparameters⟩ := h
  have hwords : commandWords (c.input fun x => [x]) = fields c.pamUser ++ fields c.token ++ fields c.hostname := by
    rw [commandWords_input, List.flatMap_singleton']
  rw [hwords] at hrequest
  obtain ⟨second, hsecond, rfl⟩ := Option.map_eq_some_iff.mp hrequest
  -- the words have no more characters than the values
  have hfilter : ∀ x : Text, (x.filter fun ch => !isIfs ch).Sublist x := fun x => List.filter_sublist
  have hwritten := size_written_le (fields c.pamUser ++ fields c.token ++ fields c.hostname)
  rw [List.flatten_append, List.flatten_append, flatten_fields, flatten_fields, flatten_fields, size_append,
    size_append] at hwritten
  have hu := size_le_of_sublist (hfilter c.pamUser)
  have hp := size_le_of_sublist (hfilter c.token)
  have hh := size_le_of_sublist (hfilter c.hostname)
  obtain ⟨⟨hfirst, hmiddle, hlast⟩, -⟩ := (parameters_path_iff (by omega)).mp hparameters
  rw [hfirst, hmiddle, hlast] at hwritten
  have hblank : ∀ x : Text, size x ≤ size (x.filter fun ch => !isIfs ch) → ∀ ch ∈ x, isIfs ch = false := by
    intro x hle ch hch
    rw [← eq_of_sublist (hfilter x) hle] at hch
    simpa using (List.mem_filter.mp hch).2
  have hblanku := hblank c.pamUser (by omega)
  have hblankp := hblank c.token (by omega)
  have hblankh := hblank c.hostname (by omega)
  rw [fields_of_forall hblanku, fields_of_forall hblankp, fields_of_forall hblankh] at hsecond hfirst hmiddle hlast
  simp only [List.forall_mem_cons, List.not_mem_nil, false_implies, implies_true, and_true]
  refine ⟨⟨hblanku, hblankp, hblankh⟩, ?_, ?_⟩
  · -- without a user name the password is taken for it
    intro hnil
    rw [hnil] at hfirst
    by_cases htoken : c.token = [] <;> by_cases hhost : c.hostname = [] <;> simp_all [interpolate]
  · -- without a password the host name is
    intro hnil
    rw [hnil] at hmiddle
    by_cases huser : c.pamUser = [] <;> by_cases hhost : c.hostname = [] <;> simp_all [interpolate]

/-- A field where only one name exists. -/
theorem Patterns.expand_singleton (P : Patterns) (name x : Text) :
    P.expand [name] x = [if P.accepts x name = true then name else x] := by
  unfold Patterns.expand
  by_cases h : P.accepts x name = true
  · rw [if_pos h, List.filter_cons_of_pos h, if_neg (List.cons_ne_nil _ _)]
    rfl
  · rw [if_neg h, List.filter_cons_of_neg h, List.filter_nil, if_pos rfl]

/-- Some of the texts accept other names: there is a shortest one. -/
theorem Patterns.exists_shortest {xs : List Text} (h : ∃ x ∈ xs, ∃ name, P.accepts x name = true ∧ name ≠ x) :
    ∃ x ∈ xs, ∃ name, (P.accepts x name = true ∧ name ≠ x) ∧
      ∀ x' ∈ xs, ∀ name', P.accepts x' name' = true → name' ≠ x' → size name ≤ size name' := by
  classical
  have hex : ∃ n, ∃ x ∈ xs, ∃ name, (P.accepts x name = true ∧ name ≠ x) ∧ size name = n := by
    obtain ⟨x, hx, name, hname⟩ := h
    exact ⟨size name, x, hx, name, hname, rfl⟩
  obtain ⟨x, hx, name, hname, hsize⟩ := Nat.find_spec hex
  refine ⟨x, hx, name, hname, fun x' hx' name' haccepts hne => ?_⟩
  rw [hsize]
  exact Nat.find_min' hex ⟨x', hx', name', ⟨haccepts, hne⟩, rfl⟩

/-- Values that arrive whatever files there are accept no other names. -/
theorem Unaltered.literal (h : Unaltered P c)
    (hblank : ∀ x ∈ [c.pamUser, c.token, c.hostname], ∀ ch ∈ x, isIfs ch = false)
    (hfilled : c.pamUser ≠ [] ∧ c.token ≠ []) :
    ∀ x ∈ [c.pamUser, c.token, c.hostname], ∀ name, P.accepts x name = true → name = x := by
  by_contra! hother
  obtain ⟨x, hx, name, ⟨haccepts, hne⟩, hshortest⟩ := Patterns.exists_shortest hother
  -- only this name exists: what it takes the place of is no shorter
  let e : Text → Text := fun y => if P.accepts y name = true then name else y
  have hsize : ∀ y ∈ [c.pamUser, c.token, c.hostname], size (e y) ≤ size y := by
    intro y hy
    by_cases hyname : P.accepts y name = true
    · have hey : e y = name := if_pos hyname
      rw [hey]
      by_cases heq : name = y
      · rw [heq]
      · obtain ⟨other, hotheraccepts, hotherne, hle⟩ := P.short y name hyname heq
        exact (hshortest y hy other hotheraccepts hotherne).trans hle
    · have hey : e y = y := if_neg hyname
      rw [hey]
  obtain ⟨⟨hu, hp, hh⟩, -⟩ := (carries_iff_of_words (e := e) (fun y _ => P.expand_singleton name y) hsize hblank
    hfilled).mp (h [name] (List.nodup_singleton name))
  have hstrip : (strip (e c.token)).Sublist (e c.token) :=
    (List.rdropWhile_prefix _ _).sublist.trans (List.dropWhile_sublist _)
  have hptoken : e c.token = c.token := by
    rw [← eq_of_sublist hstrip (by rw [hp]; exact hsize _ (by simp)), hp]
  have hall : ∀ y ∈ [c.pamUser, c.token, c.hostname], e y = y := by
    simp only [List.forall_mem_cons, List.not_mem_nil, false_implies, implies_true, and_true]
    exact ⟨hu, hptoken, hh⟩
  exact hne ((if_pos haccepts).symm.trans (hall x hx))

/-- Where there are no files, every field stays as it is. -/
theorem Patterns.expand_nil (P : Patterns) : P.expand [] = fun x => [x] := by
  funext x
  rw [Patterns.expand, List.filter_nil, if_pos rfl]

/-- **The values arrive unaltered exactly when they are plain.** -/
theorem unaltered_iff (P : Patterns) (c : Credentials) : Unaltered P c ↔ P.Plain c := by
  refine ⟨fun h => ?_, Patterns.Plain.unaltered⟩
  have hempty := h [] List.nodup_nil
  rw [P.expand_nil] at hempty
  obtain ⟨hblank, hfilled⟩ := words_of_carries hempty
  obtain ⟨⟨-, hstripped, -⟩, hfixed⟩ := (@carries_iff_of_words c (fun x => [x]) id (fun _ _ => rfl)
    (fun _ _ => Nat.le_refl _) hblank hfilled).mp hempty
  exact ⟨hfilled, hstripped, fun x hx => ⟨hblank x hx, h.literal hblank hfilled x hx⟩, hfixed⟩

/-- A password with these characters at its ends. -/
theorem isPassword_of_ends {p : Text} {a b : Char} (hlength : shLength p ≠ 1)
    (hchars : '\\' ∉ p ∧ '\n' ∉ p ∧ '\x00' ∉ p) (hfirst : p.head? = some a) (hlast : p.getLast? = some b)
    (ha : a ≠ ' ' ∧ a ≠ '\t') (hb : b ≠ ' ' ∧ b ≠ '\t') : IsPassword p where
  length := hlength
  chars := hchars
  first ch hch := by
    rw [hfirst] at hch
    rwa [← Option.some.inj hch]
  last ch hch := by
    rw [hlast] at hch
    rwa [← Option.some.inj hch]

/-- A usual login. -/
theorem unaltered_iff_usual : Unaltered Patterns.stars
    ⟨"bob".toList, "secret".toList, "node1".toList,
      isPassword_of_ends (by decide) (by decide) (rfl : _ = some 's') (rfl : _ = some 't') (by decide) (by decide)⟩ :=
  (unaltered_iff _ _).mpr
    { filled := by decide
      stripped := by decide
      words := by
        have hwords : ∀ x ∈ ["bob".toList, "secret".toList, "node1".toList], x.any isIfs = false ∧ '*' ∉ x := by
          decide
        intro x hx
        refine ⟨?_, fun name hname => ?_⟩
        · simpa using (hwords x hx).1
        · exact (decide_eq_true_eq.mp ((Glob.wild_literal (hwords x hx).2 name).symm.trans hname)).symm
      fixed := by
        have hfixed : ∀ x ∈ ["bob".toList, "secret".toList, "node1".toList],
            '&' ∉ x ∧ ('#' ∉ x ∧ '\r' ∉ x) ∧ ¬ HasEscape x := by decide
        exact fun x hx => ⟨(hfixed x hx).1, (hfixed x hx).2.1, (hfixed x hx).2.2⟩ }

/-- A separator in the password sets the host name. -/
theorem separator_alters : ∃ c : Credentials, ∀ P, ¬ Unaltered P c := by
  refine ⟨⟨"bob".toList, "secret&hostname=master".toList, "node1".toList,
    isPassword_of_ends (by decide) (by decide) (rfl : _ = some 's') (rfl : _ = some 'r') (by decide) (by decide)⟩,
    fun P h => ?_⟩
  have hempty := h [] List.nodup_nil
  rw [P.expand_nil] at hempty
  obtain ⟨hblank, hfilled⟩ := words_of_carries hempty
  obtain ⟨-, hfixed⟩ := (@carries_iff_of_words _ (fun x => [x]) id (fun _ _ => rfl) (fun _ _ => Nat.le_refl _)
    hblank hfilled).mp hempty
  have hseparator := (hfixed "secret&hostname=master".toList (by simp)).separator
  revert hseparator
  decide

end GexCloud.Login
