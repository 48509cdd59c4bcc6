import GexCloud.Support.Texts

/-! # `Set-Cookie` headers

A `Set-Cookie` header as a user agent reads it: the parts between semicolons are a name-value pair
and attributes, each split at its first equals sign and stripped of blanks and tabs.

* **`parseSetCookie`** — the cookie that a header denotes.
* `Clean` — a text that survives the reading; every value and attribute value that is read is clean
  (`parseSetCookie_clean`).
* **`parseSetCookie_header`** — a header put together from clean texts denotes just these. -/

namespace Cookies

open Texts

/-- Blanks and tabs. -/
def isWsp (c : Char) : Bool := c == ' ' || c == '\t'

/-- A text without the blanks and tabs around it. -/
def trim (s : Text) : Text := stripBy isWsp s

/-- A cookie with its attributes, in the order of the header. -/
structure Cookie where
  name : Text
  value : Text
  attributes : List (Text × Text)
  deriving DecidableEq

/-- An attribute: the text before the first equals sign and the text behind, each stripped. -/
def parseAttribute (part : Text) : Text × Text :=
  (trim (cut '=' part).1, trim ((cut '=' part).2.getD []))

/-- **The cookie of a `Set-Cookie` header**; none when the first part is no name-value pair. -/
def parseSetCookie (header : Text) : Option Cookie :=
  match header.splitOn ';' with
  | [] => none
  | pair :: parts =>
    match cut '=' pair with
    | (_, none) => none
    | (name, some value) =>
      if trim name = [] then none
      else some ⟨trim name, trim value, parts.map parseAttribute⟩

/-- A text without semicolon and without blanks and tabs around it. -/
def Clean (s : Text) : Prop := ';' ∉ s ∧ trim s = s

instance (s : Text) : Decidable (Clean s) := by unfold Clean; infer_instance

/-- What is left of a text without semicolon is clean. -/
theorem clean_trim {s : Text} (h : ';' ∉ s) : Clean (trim s) :=
  ⟨fun hmem => h (mem_of_mem_stripBy hmem), stripBy_idem isWsp s⟩

/-- The value of an attribute is clean. -/
theorem clean_parseAttribute {part : Text} (h : ';' ∉ part) : Clean (parseAttribute part).2 := by
  refine clean_trim fun hmem => h ?_
  cases hcut : cut '=' part with
  | mk before after =>
    rw [hcut] at hmem
    cases after with
    | none => simp at hmem
    | some rest => exact mem_of_cut hcut hmem

/-- **What is read is clean**: the value of the cookie and the values of its attributes. -/
theorem parseSetCookie_clean {header : Text} {c : Cookie} (h : parseSetCookie header = some c) :
    Clean c.value ∧ ∀ a ∈ c.attributes, Clean a.2 := by
  unfold parseSetCookie at h
  split at h
  · cases h
  rename_i pair parts hsplit
  split at h
  · cases h
  rename_i name value hcut
  split at h
  · cases h
  obtain rfl := Option.some.inj h
  have hpart : ∀ part ∈ pair :: parts, ';' ∉ part := fun part hmem =>
    not_mem_of_mem_splitOn (hsplit ▸ hmem)
  constructor
  · exact clean_trim fun hmem => hpart pair List.mem_cons_self (mem_of_cut hcut hmem)
  · intro a ha
    obtain ⟨part, hmem, rfl⟩ := List.mem_map.mp ha
    exact clean_parseAttribute (hpart part (List.mem_cons_of_mem _ hmem))

/-- The value that is read is in the header. -/
theorem mem_of_parseSetCookie {header : Text} {c : Cookie} {x : Char} (h : parseSetCookie header = some c)
    (hx : x ∈ c.value) : x ∈ header := by
  unfold parseSetCookie at h
  split at h
  · cases h
  rename_i pair parts hsplit
  split at h
  · cases h
  rename_i name value hcut
  split at h
  · cases h
  obtain rfl := Option.some.inj h
  have hpair : x ∈ pair := mem_of_cut hcut (mem_of_mem_stripBy hx)
  have hheader : [';'].intercalate (header.splitOn ';') = header := List.intercalate_splitOn ';'
  rw [← hheader, hsplit]
  cases parts with
  | nil => rwa [List.intercalate_singleton]
  | cons next parts =>
    rw [List.intercalate_cons_cons, List.append_assoc]
    exact List.mem_append_left _ hpair

/-- A part of a header: a name and a value around an equals sign. -/
def part (name value : Text) : Text := name ++ '=' :: value

/-- A name of an attribute, or of a cookie, that stands for itself. -/
def CleanName (name : Text) : Prop := Clean name ∧ '=' ∉ name ∧ name ≠ []

instance (name : Text) : Decidable (CleanName name) := by unfold CleanName; infer_instance

/-- A part with a blank in front denotes its attribute. -/
theorem parseAttribute_part {name value : Text} (hname : CleanName name) (hvalue : Clean value) :
    parseAttribute (' ' :: part name value) = (name, value) := by
  have hcut : cut '=' (' ' :: part name value) = (' ' :: name, some value) :=
    cut_append (a := ' ' :: name) (by simp [hname.2.1]) value
  unfold parseAttribute
  rw [hcut]
  show (trim (' ' :: name), trim value) = _
  rw [hvalue.2, trim, stripBy_cons rfl hname.1.2]

/-- A flag with a blank in front denotes an attribute without value. -/
theorem parseAttribute_flag {name : Text} (hname : CleanName name) :
    parseAttribute (' ' :: name) = (name, []) := by
  have hcut : cut '=' (' ' :: name) = (' ' :: name, none) := cut_of_not_mem (by simp [hname.2.1])
  unfold parseAttribute
  rw [hcut]
  show (trim (' ' :: name), trim []) = _
  rw [trim, stripBy_cons rfl hname.1.2]
  rfl

/-- **A header of clean texts denotes them**: a pair and attributes, each behind a semicolon and a
blank. -/
theorem parseSetCookie_header {name value : Text} (hname : CleanName name) (hvalue : Clean value)
    (parts : List Text) (hparts : ∀ p ∈ parts, ';' ∉ p) :
    parseSetCookie ([';'].intercalate (part name value :: parts)) =
      some ⟨name, value, parts.map parseAttribute⟩ := by
  have hpair : ';' ∉ part name value := by simp [part, hname.1.1, hvalue.1]
  have hsplit : ([';'].intercalate (part name value :: parts)).splitOn ';' =
      part name value :: parts := by
    refine List.splitOn_intercalate ';' ?_ (by simp)
    intro l hl
    obtain rfl | hl := List.mem_cons.mp hl
    · exact hpair
    · exact hparts l hl
  unfold parseSetCookie
  rw [hsplit]
  have hcut : cut '=' (part name value) = (name, some value) := cut_append hname.2.1 value
  simp only [hcut]
  have htrim : trim name = name := hname.1.2
  rw [htrim, if_neg hname.2.2, hvalue.2]

end Cookies
