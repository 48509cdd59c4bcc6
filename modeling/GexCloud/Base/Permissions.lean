import GexCloud.Base.Ruby
import GexCloud.Support.Spans

/-! # `set_permissions`: the permission header of a template

A template can say in a comment on its first line, `<%# owner:group:mode %>`, what its destination is
chowned and chmoded to; a plain file says it in its `.acl` file. `set_permissions` cuts the header out of
the line with the greedy `/<%#.*%>/`. `template_utils.rb` and the Chef library share the code.

* `setPermissions` — the commands it gives to `xexec`.
* `header`, `required` — a header, and the commands it asks for.
* **`setPermissions_iff`** — the header is obeyed exactly when no other tag ends behind it on its line,
  and nothing is run exactly when the line has no comment. -/

namespace GexCloud

open Texts

/-! ## The code -/

/-- `s.split(c)`: the pieces, those at the end dropped while they are empty. -/
def splitBy (c : Char) (s : Text) : List Text := (s.splitOn c).rdropWhile (· = [])

/-- `ERB_L`. -/
def erbL : Text := "<%#".toList

/-- `ERB_R`. -/
def erbR : Text := "%>".toList

/-- The end of `set_permissions`: the commands for the permissions that were read. -/
def permissionCommands (permissions file : Text) : List Text :=
  let tokens := splitBy ':' permissions
  -- a token that is not there is nil, an empty text where it is interpolated
  (if tokens[0]? = some "root".toList ∧ tokens[1]? = some "root".toList then []
    else ["chown ".toList ++ (tokens[0]?.getD [] ++ ':' :: (tokens[1]?.getD [] ++ ' ' :: file))]) ++
  ["chmod ".toList ++ (tokens[2]?.getD [] ++ ' ' :: file)]

/-- `set_permissions`: the commands given to `xexec`, the first that fails being the last. -/
def setPermissions (file contents : Text) (plain : Bool) : List Text :=
  if plain then
    if contents = [] then [] else permissionCommands (strip contents) file
  else
    match (lines contents).head? with
    | none => []
    | some p =>
      match spanned erbL erbR p with
      | none => []
      | some comment =>
        -- `comment[ERB_L.length .. -(ERB_R.length + 1)]`
        permissionCommands
          (strip ((slice erbL.length (comment.length - erbR.length) comment).getD [])) file

/-! ## What a header asks for -/

/-- A part of a header. -/
structure IsToken (t : Text) : Prop where
  ne_nil : t ≠ []
  not_colon : ':' ∉ t
  not_percent : '%' ∉ t
  not_space : ∀ c ∈ t, isSpace c.toNat = false

/-- A text without these letters is one. -/
theorem isToken_of_all {t : Text} (hne : t ≠ [])
    (h : t.all (fun c => c != ':' && c != '%' && !isSpace c.toNat) = true) : IsToken t := by
  have hall : ∀ c ∈ t, (c ≠ ':' ∧ c ≠ '%') ∧ isSpace c.toNat = false := by
    intro c hc
    simpa using List.all_eq_true.mp h c hc
  exact ⟨hne, fun hc => (hall _ hc).1.1 rfl, fun hc => (hall _ hc).1.2 rfl, fun c hc => (hall c hc).2⟩

/-- The comment tag `<%# owner:group:mode %>`. -/
def header (owner group mode : Text) : Text :=
  erbL ++ ((' ' :: (owner ++ ':' :: (group ++ ':' :: (mode ++ [' '])))) ++ erbR)

/-- The commands a header asks for. -/
def required (owner group mode file : Text) : List Text :=
  (if owner = "root".toList ∧ group = "root".toList then []
    else ["chown ".toList ++ (owner ++ ':' :: (group ++ ' ' :: file))]) ++
  ["chmod ".toList ++ (mode ++ ' ' :: file)]

/-- The first line of a template, its newline with it. -/
def firstLine (contents : Text) : Text := (lines contents).headD []

/-- A comment tag in a line, whatever it says. -/
def HasComment (line : Text) : Prop := ∃ front behind, line = front ++ (erbL ++ behind) ∧ erbR <:+: behind

/-! ## The permissions read -/

variable {owner group mode file rest : Text}

/-- What is dropped at the end of a list is behind the last element that is kept. -/
theorem rdropWhile_append_cons {α : Type} {p : α → Bool} {x : α} (hx : p x = false) (a b : List α) :
    (a ++ x :: b).rdropWhile p = a ++ x :: b.rdropWhile p := by
  induction b using List.reverseRecOn with
  | nil => rw [List.rdropWhile_concat_neg _ _ _ (by simp [hx]), List.rdropWhile_nil]
  | append_singleton b y ih =>
    rw [← List.cons_append, ← List.append_assoc]
    by_cases hy : p y = true
    · rw [List.rdropWhile_concat_pos _ _ _ hy, List.rdropWhile_concat_pos _ _ _ hy, ih]
    · rw [List.rdropWhile_concat_neg _ _ _ hy, List.rdropWhile_concat_neg _ _ _ hy, List.append_assoc,
        List.cons_append]

/-- A space in front of a text is stripped, and white space behind it as far as it goes. -/
theorem strip_space_append {d : Char} {x : Text} (hx : ∀ c ∈ x.head?, isSpace c.toNat = false)
    (hne : x ≠ []) (hd : isSpace d.toNat = false) (y : Text) :
    strip (' ' :: (x ++ d :: y)) = x ++ d :: y.rdropWhile fun c => isSpace c.toNat := by
  obtain ⟨c, x, rfl⟩ := List.exists_cons_of_ne_nil hne
  have hfront : (' ' :: (c :: x ++ d :: y)).dropWhile (fun c => isSpace c.toNat) = c :: x ++ d :: y := by
    rw [List.dropWhile_cons_of_pos (by decide), List.cons_append,
      List.dropWhile_cons_of_neg (by simp [hx c rfl])]
  rw [strip, stripBy, hfront]
  exact rdropWhile_append_cons (p := fun c : Char => isSpace c.toNat) hd (c :: x) y

/-- The tokens of a text whose first two have no colon. -/
theorem splitBy_colon {s first : Text} {more : List Text} (howner : ':' ∉ owner) (hgroup : ':' ∉ group)
    (hs : s.splitOn ':' = first :: more) (hne : first ≠ []) :
    ∃ more', splitBy ':' (owner ++ ':' :: (group ++ ':' :: s)) = owner :: group :: first :: more' := by
  have hsplit : (owner ++ ':' :: (group ++ ':' :: s)).splitOn ':' =
      [owner, group] ++ first :: more := by
    rw [List.splitOn_append_cons_self_of_not_mem howner, List.splitOn_append_cons_self_of_not_mem hgroup,
      hs]
    rfl
  refine ⟨more.rdropWhile (· = []), ?_⟩
  rw [splitBy, hsplit, rdropWhile_append_cons (by simp [hne])]
  rfl

/-- The commands for three tokens, whatever follows. -/
theorem permissionCommands_eq {permissions : Text} {more : List Text}
    (h : splitBy ':' permissions = owner :: group :: mode :: more) :
    permissionCommands permissions file = required owner group mode file := by
  simp only [permissionCommands, h, required, List.getElem?_cons_zero, List.getElem?_cons_succ,
    Option.some.injEq, Option.getD_some]

/-- The mode can be told from the commands. -/
theorem required_inj {mode' : Text} (h : required owner group mode file = required owner group mode' file) :
    mode = mode' := by
  have hchmod := List.append_cancel_left h
  rw [List.cons.injEq] at hchmod
  exact List.append_cancel_right (List.append_cancel_left hchmod.1)

/-! ## The header -/

/-- The first line of a template that starts with a line of which the rest is given. -/
theorem head?_lines {line tail : Text} (hne : line ≠ []) (hline : '\n' ∉ line)
    (htail : tail = [] ∨ ∃ more, tail = '\n' :: more) :
    ∃ newline, (newline = [] ∨ newline = ['\n']) ∧
      (lines (line ++ tail)).head? = some (line ++ newline) := by
  obtain rfl | ⟨more, rfl⟩ := htail
  · exact ⟨[], .inl rfl, by rw [List.append_nil, lines_of_not_mem hne hline]; rfl⟩
  · exact ⟨['\n'], .inr rfl, by rw [lines_append_newline_cons hline]; rfl⟩

/-- The end of a tag is not made by what stands in front of the rest of the line or by its newline. -/
theorem erbR_infix_iff {newline : Text} (h : newline = [] ∨ newline = ['\n']) :
    erbR <:+: '>' :: (rest ++ newline) ↔ erbR <:+: rest := by
  have hfront : ¬erbR <+: '>' :: (rest ++ newline) := by
    intro hstart
    exact absurd (List.cons_prefix_cons.mp hstart).1 (by decide)
  rw [List.infix_cons_iff, or_iff_right hfront]
  obtain rfl | rfl := h
  · rw [List.append_nil]
  · have hend : ¬erbR <:+ rest ++ ['\n'] := by
      intro hsuffix
      have hlast := hsuffix.getLast (by decide : erbR ≠ [])
      rw [List.getLast_append_singleton] at hlast
      exact absurd hlast (by decide)
    rw [List.infix_concat_iff, or_iff_right hend]

/-- A comment that starts the line is obeyed with what stands between its ends. -/
theorem setPermissions_of_spanned {contents p between : Text} (hline : (lines contents).head? = some p)
    (hspan : spanned erbL erbR p = some (erbL ++ (between ++ erbR))) :
    setPermissions file contents false = permissionCommands (strip between) file := by
  have hslice : slice erbL.length ((erbL ++ (between ++ erbR)).length - erbR.length)
      (erbL ++ (between ++ erbR)) = some between := by
    rw [← List.append_assoc]
    refine slice_between rfl ?_
    simp only [List.length_append, Nat.add_sub_cancel]
  have hset : setPermissions file contents false = permissionCommands (strip ((slice erbL.length
      ((erbL ++ (between ++ erbR)).length - erbR.length) (erbL ++ (between ++ erbR))).getD [])) file := by
    simp only [setPermissions, hline, hspan]
    rfl
  rw [hset, hslice, Option.getD_some]

/-- The commands for a comment that starts with an owner and a group: the mode is the rest of its first
token, up to white space at its end. -/
theorem permissionCommands_strip (howner : IsToken owner) (hgroup : IsToken group) {s first y : Text}
    {d : Char} (hd : isSpace d.toNat = false) {more : List Text} (hne : first ≠ [])
    (hs : (s ++ d :: y.rdropWhile fun c => isSpace c.toNat).splitOn ':' = first :: more) :
    permissionCommands (strip (' ' :: (owner ++ ':' :: (group ++ ':' :: (s ++ d :: y))))) file =
      required owner group first file := by
  have hpath : ∀ t : Text, owner ++ ':' :: (group ++ ':' :: (s ++ t)) =
      (owner ++ ':' :: (group ++ ':' :: s)) ++ t := by simp
  have hhead : ∀ c ∈ (owner ++ ':' :: (group ++ ':' :: s)).head?, isSpace c.toNat = false := by
    obtain ⟨c, t, ht⟩ := List.exists_cons_of_ne_nil howner.ne_nil
    intro c' hc'
    rw [ht, List.cons_append, List.head?_cons] at hc'
    obtain rfl := Option.some.inj hc'
    exact howner.not_space c (by simp [ht])
  rw [hpath, strip_space_append hhead (by simp) hd, ← hpath]
  obtain ⟨more', hmore⟩ := splitBy_colon howner.not_colon hgroup.not_colon hs hne
  exact permissionCommands_eq hmore

/-- **A header alone** is obeyed. -/
theorem setPermissions_header (howner : IsToken owner) (hgroup : IsToken group) (hmode : IsToken mode)
    {contents : Text} (hrest : ¬erbR <:+: '>' :: rest)
    (hline : (lines contents).head? = some (header owner group mode ++ rest)) :
    setPermissions file contents false = required owner group mode file := by
  have hspan : spanned erbL erbR (header owner group mode ++ rest) = some (header owner group mode) := by
    rw [header, List.append_assoc, List.append_assoc]
    exact spanned_of_last (by decide) rfl hrest
  rw [setPermissions_of_spanned hline hspan]
  -- the last letter of the mode ends what is kept
  obtain ⟨s, d, hlast⟩ : ∃ s d, mode = s ++ [d] :=
    ⟨_, _, (List.dropLast_append_getLast hmode.ne_nil).symm⟩
  have hd : isSpace d.toNat = false := hmode.not_space d (by simp [hlast])
  have hsplit : (s ++ d :: [' '].rdropWhile fun c => isSpace c.toNat).splitOn ':' = [mode] := by
    have hdrop : ([' '].rdropWhile fun c : Char => isSpace c.toNat) = [] := by decide
    rw [hdrop, ← hlast, List.splitOn_eq_singleton hmode.not_colon]
  have hmode' : mode ++ [' '] = s ++ d :: [' '] := by rw [hlast, List.append_assoc]; rfl
  rw [hmode']
  exact permissionCommands_strip howner hgroup hd hmode.ne_nil hsplit

/-- **A header with another tag behind it** is not: the mode runs on into the rest of the line. -/
theorem setPermissions_header_ne (howner : IsToken owner) (hgroup : IsToken group)
    (hmode : IsToken mode) {contents : Text} (hrest : erbR <:+: rest)
    (hline : (lines contents).head? = some (header owner group mode ++ rest)) :
    setPermissions file contents false ≠ required owner group mode file := by
  obtain ⟨m, hm⟩ := Option.ne_none_iff_exists'.mp
    (mt (upToLast_eq_none_iff (by decide : erbR ≠ [])).mp (not_not.mpr hrest))
  obtain ⟨-, r, rfl⟩ := upToLast_spec hm
  have hspan : spanned erbL erbR (header owner group mode ++ rest) =
      some (erbL ++ (' ' :: (owner ++ ':' :: (group ++ ':' :: ((mode ++ " %".toList) ++ '>' :: r))) ++
        erbR)) := by
    have hbetween := upToLast_append hm
      (' ' :: (owner ++ ':' :: (group ++ ':' :: (mode ++ [' ']))) ++ erbR)
    have hspan := spanned_append (by decide : erbL ≠ []) hbetween
    have hcut : ' ' :: (owner ++ ':' :: (group ++ ':' :: (mode ++ [' ']))) ++ erbR ++ (r ++ erbR) =
        ' ' :: (owner ++ ':' :: (group ++ ':' :: ((mode ++ " %".toList) ++ '>' :: r))) ++ erbR := by
      simp [erbR]
    rw [header, List.append_assoc, hspan, hcut]
  obtain ⟨first, more, hsplit, hstart⟩ := exists_splitOn_append (c := ':') (s := mode ++ " %>".toList)
    (by simpa using hmode.not_colon) (r.rdropWhile fun c => isSpace c.toNat)
  have hfirst : first ≠ mode := by
    rintro rfl
    have hlength := hstart.length_le
    rw [List.length_append] at hlength
    exact absurd hlength (by simp)
  have hne : first ≠ [] := by
    rintro rfl
    have hnil := List.prefix_nil.mp hstart
    exact hmode.ne_nil (List.append_eq_nil_iff.mp hnil).1
  have hsplit' : ((mode ++ " %".toList) ++ '>' :: r.rdropWhile fun c => isSpace c.toNat).splitOn ':' =
      first :: more := by
    rw [← hsplit]
    simp
  rw [setPermissions_of_spanned hline hspan,
    permissionCommands_strip howner hgroup (by decide) hne hsplit']
  exact fun h => hfirst (required_inj h)

/-- No command is run for a template without a comment on its first line, and for no other. -/
theorem setPermissions_eq_nil_iff {contents : Text} :
    setPermissions file contents false = [] ↔ ¬HasComment (firstLine contents) := by
  have hcomment : ∀ p : Text, spanned erbL erbR p = none ↔ ¬HasComment p := by
    intro p
    rw [spanned_eq_none_iff (by decide) (by decide)]
    simp only [HasComment, not_exists, not_and]
  have hcommands : ∀ permissions, permissionCommands permissions file ≠ [] := by
    intro permissions
    exact List.append_ne_nil_of_right_ne_nil _ (List.cons_ne_nil _ _)
  cases hlines : lines contents with
  | nil =>
    refine iff_of_true ?_ ((hcomment _).mp ?_)
    · simp [setPermissions, hlines]
    · simp [firstLine, hlines, spanned]
  | cons p ps =>
    have hfirst : firstLine contents = p := by rw [firstLine, hlines]; rfl
    rw [hfirst, ← hcomment]
    cases hspan : spanned erbL erbR p with
    | none => simp [setPermissions, hlines, hspan]
    | some comment => simp [setPermissions, hlines, hspan, hcommands]

/-- **Permission headers**: one that starts a template is obeyed exactly when no other tag ends behind it
on its line, whatever else follows; and nothing is run exactly when there is no comment on the line. -/
theorem setPermissions_iff (file : Text) :
    (∀ {owner group mode rest tail : Text}, IsToken owner → IsToken group → IsToken mode → '\n' ∉ rest →
      (tail = [] ∨ ∃ more, tail = '\n' :: more) →
      (setPermissions file (header owner group mode ++ rest ++ tail) false =
        required owner group mode file ↔ ¬erbR <:+: rest)) ∧
    ∀ contents, setPermissions file contents false = [] ↔ ¬HasComment (firstLine contents) := by
  refine ⟨fun {owner group mode rest tail} howner hgroup hmode hrest htail => ?_,
    fun contents => setPermissions_eq_nil_iff⟩
  have hnewline : ∀ {t : Text}, IsToken t → '\n' ∉ t := by
    intro t ht hmem
    exact absurd (ht.not_space '\n' hmem) (by decide)
  have hheader : '\n' ∉ header owner group mode ++ rest := by
    simp [header, erbL, erbR, hnewline howner, hnewline hgroup, hnewline hmode, hrest]
  obtain ⟨newline, hnew, hline⟩ := head?_lines (by simp [header, erbL]) hheader htail
  rw [List.append_assoc _ rest newline] at hline
  constructor
  · intro h hinfix
    have hinfix' : erbR <:+: rest ++ newline := hinfix.trans (List.prefix_append _ _).isInfix
    exact setPermissions_header_ne howner hgroup hmode hinfix' hline h
  · intro h
    exact setPermissions_header howner hgroup hmode (mt (erbR_infix_iff hnew).mp h) hline

/-- A header with text behind it. -/
theorem setPermissions_hosts : setPermissions "/etc/hosts.allow".toList
    (header "root".toList "gex".toList "0644".toList ++ "# allowed hosts".toList ++ "\nall\n".toList) false =
    required "root".toList "gex".toList "0644".toList "/etc/hosts.allow".toList :=
  ((setPermissions_iff _).1 (isToken_of_all (by decide) (by decide)) (isToken_of_all (by decide) (by decide))
    (isToken_of_all (by decide) (by decide)) (by decide) (.inr ⟨_, rfl⟩)).mpr (by decide)

/-- A header with a tag behind it is misread, and a comment that is no header is read as one. -/
theorem setPermissions_misread : setPermissions "/etc/motd".toList
      (header "root".toList "root".toList "0644".toList ++ "<%= @name %>".toList ++ "\n".toList) false ≠
        required "root".toList "root".toList "0644".toList "/etc/motd".toList ∧
    setPermissions "/etc/motd".toList "<%# greeting %>\n".toList false ≠ [] := by
  decide

end GexCloud
