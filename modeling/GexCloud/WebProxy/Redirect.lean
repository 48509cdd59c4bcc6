import GexCloud.Support.Html
import GexCloud.Support.JavaScript
import GexCloud.WebProxy.SetCookie

/-! # The redirect page of `/setcookie`

The handler takes a token from the query or from the body, sends it back as a cookie, and sends a page that leads to
the address in the query. The decoded address stands in the page three times, in two string literals of a script and
in the attribute of a link, and the token stands in the header.

* `setcookie` — the handler.
* `document`, `scriptPieces` — what the page and its script are to be read as, with an address in them.
* `InjectionFree` — the page and the header are read as that.
* `SafeUrl`, `SafeToken` — texts that stay where they are put.
* **`injectionFree_iff`** — they are what it takes. -/

namespace GexCloud.WebProxy

open Texts Cookies Html

/-! ## The handler -/

/-- A value of `ngx.req.get_post_args`: a text, `true` for an argument without value, a table for several ones. -/
inductive PostArg
  | text (s : Text)
  | flag
  | table
  deriving DecidableEq

/-- A request of `/setcookie`: two arguments of the query, as they are written, and the arguments of the body. -/
structure SetcookieRequest where
  argU : Option Text
  argToken : Option Text
  postArgs : Option (List (Text × PostArg))

/-- A response: its `Set-Cookie` header and its body. -/
structure SetcookieResponse where
  setCookie : Option Text
  body : Text
  deriving DecidableEq

/-- A text that does not end a line of the headers. -/
def OneLine (s : Text) : Prop := '\r' ∉ s ∧ '\n' ∉ s

instance (s : Text) : Decidable (OneLine s) := by unfold OneLine; infer_instance

/-- What the template is filled with, and the time that is put into the header. -/
structure Site where
  domainname : Text
  expires : Text
  domainname_ok : Clean domainname ∧ OneLine domainname
  expires_ok : Clean expires ∧ OneLine expires

/-- `string.char(tonumber(x, 16))` for two hexadecimal digits. -/
def hexToChar (a b : Char) : Option Char :=
  match Queries.hexValue a, Queries.hexValue b with
  | some x, some y => some (Char.ofNat (16 * x + y))
  | _, _ => none

/-- `url:gsub("%%(%x%x)", hex_to_char)`. -/
def unescape : Text → Text
  | '%' :: a :: b :: s =>
    match hexToChar a b with
    | some c => c :: unescape s
    | none => '%' :: unescape (a :: b :: s)
  | c :: s => c :: unescape s
  | [] => []

/-- `v_param_url`. -/
def SetcookieRequest.url (r : SetcookieRequest) : Text := (r.argU.map unescape).getD []

/-- One round of the loop over the arguments of the body. -/
def selectArg (token : Option PostArg) (arg : Text × PostArg) : Option PostArg :=
  if arg.2 = .table then token else if arg.1 = "token".toList then some arg.2 else token

/-- `token`, when it is checked. -/
def SetcookieRequest.token (r : SetcookieRequest) : Option PostArg :=
  (r.postArgs.getD []).foldl selectArg (r.argToken.map .text)

/-- The template up to the first address, between the first two, up to the third, and behind. -/
def pageHead : Text :=
  "<HTML>\n    <HEAD>\n    <TITLE>".toList ++ ("Connecting...".toList ++
    ("</TITLE>\n    </HEAD>\n    <BODY>\n\n    <script>".toList ++ "\n        var url = \"".toList))

@[inherit_doc pageHead]
def pageScript : Text :=
  "\";\n\n\n        // similar behavior as clicking on a link\n        if (url !=\"\")\x7b\n           window.location.href = \"".toList

/-- The rest of the script. -/
def scriptEnd : Text :=
  "\";\n        \x7d\n\n\n        // similar behavior as an HTTP redirect\n        //window.location.replace(\"http://stackoverflow.com\");\n\n    ".toList

@[inherit_doc pageHead]
def pageLink : Text := scriptEnd ++ "</script>\n\n     <A HREF=\"".toList

@[inherit_doc pageHead]
def pageTail : Text :=
  "\">Click here if you are not redirected</A>\n    </BODY>\n    </HTML>\n".toList

/-- The template `p`. -/
def template : Text :=
  pageHead ++ "%s".toList ++ pageScript ++ "%s".toList ++ pageLink ++ "%s".toList ++ pageTail

/-- `string.format` with the directive `%s`. -/
def format : Text → List Text → Text
  | '%' :: 's' :: p, a :: args => a ++ format p args
  | c :: p, args => c :: format p args
  | [], _ => []

/-- The page, as `ngx.say` sends it. -/
def page (url : Text) : Text := format template [url, url, url] ++ ['\n']

/-- The page behind the third address. -/
def pageEnd : Text := pageTail ++ ['\n']

/-- **The handler of `/setcookie`**; none when it raises, which the concatenation of `true` does. -/
def setcookie (site : Site) (r : SetcookieRequest) : Option SetcookieResponse :=
  match r.token with
  | none => some ⟨none, "Bad request\n".toList⟩
  | some (.text token) => some ⟨some (sessionHeader site.domainname site.expires token), page r.url⟩
  | some _ => none

/-! ## What the page is to be read as -/

/-- Characters. -/
def chars (s : Text) : List Token := s.map .char

/-- A start tag without attributes. -/
def opening (name : Text) : Token := .tag ⟨false, name, []⟩

/-- An end tag. -/
def ending (name : Text) : Token := .tag ⟨true, name, []⟩

/-- The page up to the script. -/
def documentHead : List Token :=
  [opening "html".toList] ++ chars "\n    ".toList ++ [opening "head".toList] ++ chars "\n    ".toList ++
    [opening "title".toList] ++ chars "Connecting...".toList ++ [ending "title".toList] ++
    chars "\n    ".toList ++ [ending "head".toList] ++ chars "\n    ".toList ++ [opening "body".toList] ++
    chars "\n\n    ".toList ++ [opening "script".toList]

/-- The script with an address in it. -/
def scriptText (url : Text) : Text :=
  "\n        var url = \"".toList ++ (url ++ (pageScript ++ (url ++ scriptEnd)))

/-- The page between the script and the link. -/
def documentMiddle : List Token := ending "script".toList :: chars "\n\n     ".toList

/-- The link to an address. -/
def link (url : Text) : Token := .tag ⟨false, "a".toList, [("href".toList, url)]⟩

/-- The page behind the start of the link. -/
def documentTail : List Token :=
  chars "Click here if you are not redirected".toList ++ [ending "a".toList] ++ chars "\n    ".toList ++
    [ending "body".toList] ++ chars "\n    ".toList ++ [ending "html".toList] ++ chars "\n\n".toList

/-- **The page with an address in it.** -/
def document (url : Text) : List Token :=
  documentHead ++ (chars (scriptText url) ++ (documentMiddle ++ link url :: documentTail))

/-- Characters of the code. -/
def codes (s : Text) : List JavaScript.Piece := s.map .code

/-- **The script with an address in it**, its comments left out. -/
def scriptPieces (url : Text) : List JavaScript.Piece :=
  codes "\n        var url = ".toList ++ .literal url ::
    (codes ";\n\n\n        \n        if (url !=".toList ++ .literal [] ::
      (codes ")\x7b\n           window.location.href = ".toList ++ .literal url ::
        codes ";\n        \x7d\n\n\n        \n        \n\n    ".toList))

/-- The header as it arrives: a line ends it. -/
def headerLine (header : Text) : Text := header.takeWhile fun c => c != '\r' && c != '\n'

/-- **Nothing is injected**: with a token, the page and its script are those with the address in its places, and the
header denotes the cookie of the token. -/
def InjectionFree (site : Site) (r : SetcookieRequest) : Prop :=
  ∀ token, r.token = some (.text token) → ∃ header body, setcookie site r = some ⟨some header, body⟩ ∧
    (tokens body = document r.url ∧ JavaScript.pieces (scriptText r.url) = some (scriptPieces r.url)) ∧
      parseSetCookie (headerLine header) = some (sessionCookie site.domainname site.expires token)

/-- **An address that stays where it is put**: it ends no attribute, is the content of a string literal, and two of
it do not end a script and leave none open in a comment. -/
structure SafeUrl (url : Text) : Prop where
  quote : '"' ∉ url
  content : JavaScript.IsContent '"' url
  script : ∃ l l', scan .plain url = some l ∧ scan l url = some l' ∧ l' ≠ .nested

/-- **A token that stays where it is put.** -/
def SafeToken (token : Text) : Prop := Clean token ∧ OneLine token

/-! ## The page -/

/-- The template is filled from the left. -/
theorem format_append {p : Text} (h : '%' ∉ p) (q a : Text) (args : List Text) :
    format (p ++ '%' :: 's' :: q) (a :: args) = p ++ (a ++ format q args) := by
  induction p with
  | nil => rfl
  | cons c p ih =>
    rw [List.mem_cons, not_or] at h
    rw [List.cons_append, format, ih h.2, List.cons_append]
    exact fun _ _ _ _ hc _ => absurd hc.symm h.1

/-- Without directives it is as it is. -/
theorem format_of_not_mem {p : Text} (h : '%' ∉ p) (args : List Text) : format p args = p := by
  induction p with
  | nil => cases args <;> rfl
  | cons c p ih =>
    rw [List.mem_cons, not_or] at h
    rw [format, ih h.2]
    exact fun _ _ _ _ hc _ => absurd hc.symm h.1

/-- A template with three directives. -/
theorem format_three {a b d e : Text} (ha : '%' ∉ a) (hb : '%' ∉ b) (hd : '%' ∉ d) (he : '%' ∉ e) (u v w : Text) :
    format (a ++ "%s".toList ++ b ++ "%s".toList ++ d ++ "%s".toList ++ e) [u, v, w] =
      a ++ (u ++ (b ++ (v ++ (d ++ (w ++ e))))) := by
  have hdirective : "%s".toList = ['%', 's'] := by decide
  have hshape : a ++ "%s".toList ++ b ++ "%s".toList ++ d ++ "%s".toList ++ e =
      a ++ '%' :: 's' :: (b ++ '%' :: 's' :: (d ++ '%' :: 's' :: e)) := by
    rw [hdirective]
    simp only [List.append_assoc, List.cons_append, List.nil_append]
  rw [hshape, format_append ha, format_append hb, format_append hd, format_of_not_mem he]

/-- The address stands in the page three times. -/
theorem page_eq (url : Text) :
    page url = pageHead ++ (url ++ (pageScript ++ (url ++ (pageLink ++ (url ++ pageEnd))))) := by
  have hhead : '%' ∉ pageHead := by decide +kernel
  have hscript : '%' ∉ pageScript := by
    unfold pageScript
    rw [String.toList_ofList]
    decide +kernel
  have hlink : '%' ∉ pageLink := by
    unfold pageLink scriptEnd
    rw [String.toList_ofList]
    decide +kernel
  have htail : '%' ∉ pageTail := by
    unfold pageTail
    rw [String.toList_ofList]
    decide +kernel
  rw [page, template, format_three hhead hscript hlink htail, pageEnd]
  simp only [List.append_assoc]

/-- A page that starts with an element of text, and then a script. -/
theorem run_head {a t close s u : Text} {name : Text} {h₁ h₂ : List Token}
    (ha : advance .data a = some (h₁, .raw name .plain)) (ht : '<' ∉ t ∧ '-' ∉ t) (hclose : close = '<' :: s)
    (hs : closes name .plain ('<' :: s) = true) (hbody : advance .tagOpen s = some (h₂, .raw Html.script .plain))
    (hu : '<' ∉ u ∧ '-' ∉ u) (r : Text) : run .data (a ++ (t ++ (close ++ u)) ++ r) =
      (h₁ ++ (chars t ++ h₂)) ++ (chars u ++ run (.raw Html.script .plain) r) := by
  subst hclose
  have hclosed : closes name .plain ('<' :: (s ++ (u ++ r))) = true := closes_append hs (u ++ r)
  rw [List.append_assoc, run_of_advance ha, List.append_assoc, run_raw_of_not_mem ht.1 ht.2, List.append_assoc,
    List.cons_append, run_raw_of_closes hclosed, run_of_advance hbody, run_raw_of_not_mem hu.1 hu.2]
  simp only [chars, List.append_assoc]

/-- The page is read up to the first address. -/
theorem run_pageHead (r : Text) : run .data (pageHead ++ r) =
    documentHead ++ (chars "\n        var url = \"".toList ++ run (.raw Html.script .plain) r) := by
  have hopen : advance .data "<HTML>\n    <HEAD>\n    <TITLE>".toList =
      some ([opening "html".toList] ++ chars "\n    ".toList ++ [opening "head".toList] ++ chars "\n    ".toList ++
        [opening "title".toList], .raw "title".toList .plain) := by decide +kernel
  have hbody : advance .tagOpen "/TITLE>\n    </HEAD>\n    <BODY>\n\n    <script>".toList =
      some ([ending "title".toList] ++ chars "\n    ".toList ++ [ending "head".toList] ++ chars "\n    ".toList ++
        [opening "body".toList] ++ chars "\n\n    ".toList ++ [opening "script".toList], .raw Html.script .plain) := by
    decide +kernel
  have hdocument : documentHead = ([opening "html".toList] ++ chars "\n    ".toList ++ [opening "head".toList] ++
      chars "\n    ".toList ++ [opening "title".toList]) ++ (chars "Connecting...".toList ++
      ([ending "title".toList] ++ chars "\n    ".toList ++ [ending "head".toList] ++ chars "\n    ".toList ++
        [opening "body".toList] ++ chars "\n\n    ".toList ++ [opening "script".toList])) := by
    unfold documentHead
    simp only [List.append_assoc]
  rw [hdocument]
  exact run_head hopen (by decide +kernel) (by decide +kernel) (by decide +kernel) hbody (by decide +kernel) r

/-- Between the first two addresses. -/
theorem run_pageScript (l : Level) (r : Text) : run (.raw Html.script l) (pageScript ++ r) =
    chars pageScript ++ run (.raw Html.script l) r := by
  have hplain : '<' ∉ pageScript ∧ '-' ∉ pageScript := by
    unfold pageScript
    rw [String.toList_ofList]
    decide +kernel
  exact run_raw_of_not_mem hplain.1 hplain.2 r

/-- The rest of a script: its end tag ends it unless it is open in a comment. -/
theorem run_rest {u close s : Text} {l : Level} {h : List Token} {st : State} (hu : '<' ∉ u ∧ '-' ∉ u)
    (hclose : close = '<' :: s) (hs : closes Html.script .plain ('<' :: s) = true)
    (hlink : advance .tagOpen s = some (h, st)) (r : Text) :
    run (.raw Html.script l) (u ++ close ++ r) = chars u ++
      if l = .nested then .char '<' :: run (.raw Html.script (l.next ('<' :: (s ++ r)))) (s ++ r)
      else h ++ run st r := by
  subst hclose
  rw [List.append_assoc, run_raw_of_not_mem hu.1 hu.2, List.cons_append]
  split
  · rename_i hnested
    have hopen : closes Html.script l ('<' :: (s ++ r)) = false := by
      rw [closes, decide_eq_false (not_not.mpr hnested)]
      rfl
    rw [run, step, hopen, if_neg Bool.false_ne_true, if_pos rfl]
    rfl
  · rename_i hnested
    have hclosed : closes Html.script l ('<' :: (s ++ r)) = true := by
      have hplain := closes_append hs r
      rw [closes, Bool.and_eq_true] at hplain ⊢
      exact ⟨decide_eq_true hnested, hplain.2⟩
    rw [run_raw_of_closes hclosed, run_of_advance hlink]
    rfl

/-- Behind the second address the script ends, unless it is open in a comment, and the link starts. -/
theorem run_pageLink (l : Level) (r : Text) : ∃ rest, run (.raw Html.script l) (pageLink ++ r) =
    chars scriptEnd ++ if l = .nested then .char '<' :: rest else .tag ⟨true, "script".toList, []⟩ ::
      chars "\n\n     ".toList ++ run (.value ⟨false, "a".toList, []⟩ "href".toList (some '"') []) r := by
  have hlink : advance .tagOpen "/script>\n\n     <A HREF=\"".toList =
      some (.tag ⟨true, "script".toList, []⟩ :: chars "\n\n     ".toList,
        .value ⟨false, "a".toList, []⟩ "href".toList (some '"') []) := by decide +kernel
  have hplain : '<' ∉ scriptEnd ∧ '-' ∉ scriptEnd := by
    unfold scriptEnd
    rw [String.toList_ofList]
    decide +kernel
  exact ⟨_, run_rest hplain (by decide +kernel) (by decide +kernel) hlink r⟩

/-- A tag that ends with the value of an attribute. -/
theorem run_value_end {t : Tag} {name v s : Text} {h : List Token} (hcontent : (t.add name v).content = .data)
    (hrest : advance .data s = some (h, .data)) :
    run (.value t name (some '"') v) ('"' :: '>' :: s) = .tag (t.add name v) :: h := by
  have hgo : (isWs '>' || '>' == '/') = false := by decide
  have hnil : run .data [] = [] := rfl
  have hrun := run_of_advance hrest []
  rw [List.append_nil, hnil, List.append_nil] at hrun
  rw [run, step, if_pos rfl, run, step, hgo, if_neg Bool.false_ne_true, if_pos rfl, Tag.finish, hcontent, hrun]
  rfl

/-- Behind the third address the link is complete. -/
theorem run_pageEnd (url : Text) :
    run (.value ⟨false, "a".toList, []⟩ "href".toList (some '"') url) pageEnd =
      .tag (Tag.add ⟨false, "a".toList, []⟩ "href".toList url) :: documentTail := by
  have hend : pageEnd =
      '"' :: '>' :: "Click here if you are not redirected</A>\n    </BODY>\n    </HTML>\n\n".toList := by decide +kernel
  have hrest : advance .data "Click here if you are not redirected</A>\n    </BODY>\n    </HTML>\n\n".toList =
      some (documentTail, .data) := by decide +kernel
  have hname : "a".toList ∉ rawNames := by decide +kernel
  rw [hend]
  exact run_value_end (if_neg fun h => hname h.2) hrest

/-- The tokens of a page with an address in two literals of a script and in an attribute, by its pieces. -/
theorem run_pieces_iff (url : Text) {head body link tail u v : Text} {H M T : List Token} {t t' : Tag} {name : Text}
    (hhead : ∀ r, run .data (head ++ r) = H ++ (chars u ++ run (.raw Html.script .plain) r))
    (hbody : ∀ l r, run (.raw Html.script l) ('"' :: body ++ r) = chars ('"' :: body) ++ run (.raw Html.script l) r)
    (hlink : ∀ l r, ∃ rest, run (.raw Html.script l) ('"' :: link ++ r) = chars v ++ if l = .nested then
      .char '<' :: rest else .tag t' :: M ++ run (.value t name (some '"') []) r)
    (hattributes : t.attributes = [])
    (htail : ∀ v, run (.value t name (some '"') v) ('"' :: tail) = .tag (t.add name v) :: T) :
    run .data (head ++ (url ++ ('"' :: body ++ (url ++ ('"' :: link ++ (url ++ '"' :: tail)))))) =
        H ++ (chars (u ++ (url ++ ('"' :: body ++ (url ++ v)))) ++ (.tag t' :: M ++ .tag (t.add name url) :: T)) ↔
      '"' ∉ url ∧ ∃ l l', scan .plain url = some l ∧ scan l url = some l' ∧ l' ≠ .nested := by
  rw [hhead]
  simp only [chars, List.map_append, List.append_assoc, List.append_cancel_left_eq] at hbody hlink ⊢
  constructor
  · intro h
    -- the script is not ended in the first address
    obtain ⟨l, hl⟩ := scan_of_run_raw ⟨_, h.symm⟩
    rw [List.cons_append, run_raw_append hl, ← List.cons_append, hbody, List.append_cancel_left_eq,
      List.append_cancel_left_eq] at h
    -- nor in the second
    obtain ⟨l', hl'⟩ := scan_of_run_raw ⟨_, h.symm⟩
    obtain ⟨rest, hrest⟩ := hlink l' (url ++ '"' :: tail)
    rw [List.cons_append, run_raw_append hl', ← List.cons_append, hrest, List.append_cancel_left_eq,
      List.append_cancel_left_eq] at h
    by_cases hnested : l' = .nested
    · rw [if_pos hnested] at h
      cases (List.cons_eq_cons.mp h).1
    rw [if_neg hnested, List.append_cancel_left_eq] at h
    -- the attribute ends with the first quotation mark
    obtain ⟨t'', htag, hextends⟩ := head_run_of_value t name [] url tail (.tag (t.add name url)) (by rw [h]; rfl)
    obtain rfl := Token.tag.inj htag
    have hattribute := hextends.2
    rw [Tag.add, Tag.add, hattributes, List.nil_append, List.nil_append, List.nil_append,
      List.cons_prefix_cons, Prod.mk.injEq] at hattribute
    refine ⟨fun hquote => ?_, l, l', hl, hl', hnested⟩
    have hall := List.takeWhile_eq_self_iff.mp hattribute.1.2 '"' hquote
    cases hall
  · rintro ⟨hquote, l, l', hl, hl', hnested⟩
    obtain ⟨rest, hrest⟩ := hlink l' (url ++ '"' :: tail)
    rw [List.cons_append, run_raw_append hl, ← List.cons_append, hbody, List.cons_append, run_raw_append hl',
      ← List.cons_append, hrest, if_neg hnested, run_value_append hquote, List.nil_append, htail]

/-- **The page is read as intended** exactly when the address ends no attribute and leaves the script. -/
theorem tokens_page_iff (url : Text) : tokens (page url) = document url ↔
    '"' ∉ url ∧ ∃ l l', scan .plain url = some l ∧ scan l url = some l' ∧ l' ≠ .nested := by
  obtain ⟨body, hbody⟩ : ∃ body, pageScript = '"' :: body := by
    unfold pageScript
    exact ⟨_, String.toList_ofList⟩
  obtain ⟨rest, hrest⟩ : ∃ rest, pageLink = '"' :: rest := by
    unfold pageLink scriptEnd
    rw [String.toList_ofList]
    exact ⟨_, rfl⟩
  obtain ⟨tail, htail⟩ : ∃ tail, pageEnd = '"' :: tail := by
    unfold pageEnd pageTail
    rw [String.toList_ofList]
    exact ⟨_, rfl⟩
  have hscript := hbody ▸ run_pageScript
  have hlink := hrest ▸ run_pageLink
  have hend := htail ▸ run_pageEnd
  have hpieces := run_pieces_iff url run_pageHead hscript hlink rfl hend
  unfold tokens document scriptText documentMiddle ending link
  rw [page_eq, hbody, hrest, htail]
  exact hpieces

example : tokens (page []) = document [] :=
  (tokens_page_iff []).mpr ⟨List.not_mem_nil, .plain, .plain, rfl, rfl, by decide⟩

/-- The pieces of a script with an address in two literals. -/
theorem pieces_iff {u body last url : Text} {p q r : List JavaScript.Piece}
    (hu : JavaScript.advance .code u = some (p, .literal '"' .text []))
    (hbody : JavaScript.advance .code (';' :: '\n' :: body) = some (q, .literal '"' .text []))
    (hlast : JavaScript.advance .code (';' :: '\n' :: last) = some (r, .code)) (hquote : '"' ∉ url) :
    JavaScript.pieces (u ++ (url ++ ('"' :: ';' :: '\n' :: body ++ (url ++ '"' :: ';' :: '\n' :: last)))) =
      some (p ++ .literal url :: (q ++ .literal url :: r)) ↔ JavaScript.IsContent '"' url := by
  unfold JavaScript.pieces
  rw [JavaScript.advance_append, hu, Option.bind_some]
  constructor
  · intro h
    apply JavaScript.isContent_of_advance hquote
    intro hnone
    rw [List.cons_append, List.cons_append, List.cons_append] at h
    rw [hnone] at h
    cases h
  · intro h
    rw [List.cons_append, JavaScript.advance_content hquote h, JavaScript.advance_append, hbody, Option.bind_some,
      JavaScript.advance_content hquote h, hlast]
    simp [JavaScript.State.rest]

/-- **The script is read as intended** exactly when the address is the content of a literal. -/
theorem pieces_scriptText_iff {url : Text} (hquote : '"' ∉ url) :
    JavaScript.pieces (scriptText url) = some (scriptPieces url) ↔ JavaScript.IsContent '"' url := by
  obtain ⟨body, hbody⟩ : ∃ body, pageScript = '"' :: ';' :: '\n' :: body := by
    unfold pageScript
    exact ⟨_, String.toList_ofList⟩
  obtain ⟨last, hlast⟩ : ∃ last, scriptEnd = '"' :: ';' :: '\n' :: last := by
    unfold scriptEnd
    rw [String.toList_ofList]
    exact ⟨_, rfl⟩
  have hstart : JavaScript.advance .code "\n        var url = \"".toList =
      some (codes "\n        var url = ".toList, .literal '"' .text []) := by decide +kernel
  have hmiddle : JavaScript.advance .code (pageScript.drop 1) =
      some (codes ";\n\n\n        \n        if (url !=".toList ++ .literal [] ::
        codes ")\x7b\n           window.location.href = ".toList, .literal '"' .text []) := by
    unfold pageScript
    rw [String.toList_ofList]
    decide +kernel
  have hrest : JavaScript.advance .code (scriptEnd.drop 1) =
      some (codes ";\n        \x7d\n\n\n        \n        \n\n    ".toList, .code) := by
    unfold scriptEnd
    rw [String.toList_ofList]
    decide +kernel
  rw [hbody] at hmiddle
  rw [hlast] at hrest
  unfold scriptText scriptPieces
  rw [hbody, hlast, ← pieces_iff hstart hmiddle hrest hquote]
  simp only [List.append_assoc, List.cons_append]

/-! ## The header -/

/-- **The header denotes the cookie of its token** exactly when the token stays where it is put. -/
theorem parseSetCookie_headerLine_iff (site : Site) (token : Text) :
    parseSetCookie (headerLine (sessionHeader site.domainname site.expires token)) =
      some (sessionCookie site.domainname site.expires token) ↔ SafeToken token := by
  have hline : OneLine token →
      headerLine (sessionHeader site.domainname site.expires token) =
        sessionHeader site.domainname site.expires token := by
    intro htoken
    have hown : ∀ p ∈ ["token=".toList, "; path=/; domain=".toList, "; expires=".toList, "; HttpOnly".toList],
        OneLine p := by decide +kernel
    simp only [List.forall_mem_cons, List.not_mem_nil, false_implies, implies_true, and_true] at hown
    obtain ⟨hname, hdomain, hexpires, hflag⟩ := hown
    have happend : ∀ {s t : Text}, OneLine s → OneLine t → OneLine (s ++ t) := by
      intro s t hs ht
      rw [OneLine, List.mem_append, List.mem_append, not_or, not_or]
      exact ⟨⟨hs.1, ht.1⟩, hs.2, ht.2⟩
    have hall : OneLine (sessionHeader site.domainname site.expires token) :=
      happend (happend (happend (happend (happend (happend hname htoken) hdomain) site.domainname_ok.2) hexpires)
        site.expires_ok.2) hflag
    rw [headerLine, List.takeWhile_eq_self_iff]
    intro c hc
    rw [Bool.and_eq_true, bne_iff_ne, bne_iff_ne]
    exact ⟨fun h => hall.1 (h ▸ hc), fun h => hall.2 (h ▸ hc)⟩
  constructor
  · intro h
    -- the value is in the line
    have hmem : ∀ c ∈ token, c ≠ '\r' ∧ c ≠ '\n' := by
      intro c hc
      have hkept := List.mem_takeWhile_imp (mem_of_parseSetCookie h hc)
      rw [Bool.and_eq_true, bne_iff_ne, bne_iff_ne] at hkept
      exact hkept
    have htoken : OneLine token := ⟨fun hc => (hmem _ hc).1 rfl, fun hc => (hmem _ hc).2 rfl⟩
    rw [hline htoken] at h
    exact ⟨((parseSetCookie_sessionHeader_iff _ _ _).mp h).1, htoken⟩
  · intro h
    rw [hline h.2]
    exact (parseSetCookie_sessionHeader_iff _ _ _).mpr ⟨h.1, site.domainname_ok.1, site.expires_ok.1⟩

/-! ## No injection -/

/-- What the handler does with a token. -/
theorem setcookie_of_token {site : Site} {r : SetcookieRequest} {token : Text} (h : r.token = some (.text token)) :
    setcookie site r = some ⟨some (sessionHeader site.domainname site.expires token), page r.url⟩ := by
  rw [setcookie, h]

/-- **Nothing is injected exactly when the address and the token stay where they are put.** -/
theorem injectionFree_iff (site : Site) (r : SetcookieRequest) :
    InjectionFree site r ↔ ∀ token, r.token = some (.text token) → SafeUrl r.url ∧ SafeToken token := by
  constructor
  · intro h token htoken
    obtain ⟨header, body, hresponse, ⟨hpage, hscript⟩, hcookie⟩ := h token htoken
    rw [setcookie_of_token htoken, Option.some.injEq, SetcookieResponse.mk.injEq, Option.some.injEq] at hresponse
    obtain ⟨rfl, rfl⟩ := hresponse
    obtain ⟨hquote, hkept⟩ := (tokens_page_iff r.url).mp hpage
    exact ⟨⟨hquote, (pieces_scriptText_iff hquote).mp hscript, hkept⟩,
      (parseSetCookie_headerLine_iff site token).mp hcookie⟩
  · intro h token htoken
    obtain ⟨hurl, hsafe⟩ := h token htoken
    exact ⟨_, _, setcookie_of_token htoken, ⟨(tokens_page_iff r.url).mpr ⟨hurl.quote, hurl.script⟩,
      (pieces_scriptText_iff hurl.quote).mpr hurl.content⟩, (parseSetCookie_headerLine_iff site token).mpr hsafe⟩

/-- **An address with a quotation mark runs as a script.** -/
theorem quote_injects : ¬ ∀ site r, InjectionFree site r := by
  intro h
  have hfree := h ⟨"gex".toList, "never".toList, by decide, by decide⟩
    ⟨some "%22;alert(1);//".toList, some "t".toList, none⟩ "t".toList (by decide)
  obtain ⟨header, body, hresponse, ⟨hpage, -⟩, -⟩ := hfree
  rw [@setcookie_of_token _ _ "t".toList (by decide), Option.some.injEq, SetcookieResponse.mk.injEq] at hresponse
  obtain ⟨-, rfl⟩ := hresponse
  have hquote := ((tokens_page_iff _).mp hpage).1
  revert hquote
  decide

end GexCloud.WebProxy
