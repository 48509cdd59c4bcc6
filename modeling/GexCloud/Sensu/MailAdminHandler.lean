import GexCloud.Base.Ruby
import GexCloud.Support.Runs

/-! # `mail_admin_handler.rb`: alerts by mail

The handler mails the output of a check to the administrator. The output is read as JSON; an array is
presented element by element, and what is no JSON goes into the mail as it is. A text in the data of an element
is read as JSON once more, and where it is none an empty object takes its place. Whatever is raised on the way
is only printed.

* `Json` — the values of `JSON.parse`, and what the handler does with them (`index`, `assign`, `each`).
* `Ruby` — the JSON library and what else is called outside the script.
* `handle` — `MailAdminHandler#handle`: the mails it sends and the lines it prints.
* `StandsFor`, `Carries` — a mail shows an element itself, or with the text in its data read.
* **`meets_iff`** — no alert is lost exactly when the output is text, or a non-empty array of objects whose
  data is an object, a string or such a value as JSON text; and where there is nothing to say, an exception is
  printed. -/

namespace GexCloud.Sensu

open Texts Runs

/-! ## Values -/

/-- A value that `JSON.parse` gives. -/
inductive Json
  | null
  | bool (b : Bool)
  | integer (n : Int)
  | float (digits : Text)
  | string (text : Text)
  | array (elements : List Json)
  | object (fields : List (Text × Json))

namespace Json

/-- The value of a field, nil when there is none. -/
def get (fields : List (Text × Json)) (key : Text) : Json := (fields.lookup key).getD .null

/-- The fields with another value at a key. -/
def set (fields : List (Text × Json)) (key : Text) (value : Json) : List (Text × Json) :=
  fields.map fun field => if field.1 = key then (key, value) else field

/-- `TypeError`. -/
def typeError : RubyError := .exception "TypeError".toList

/-- `r[key]`. -/
def index (key : Text) : Json → Except RubyError Json
  | .object fields => .ok (get fields key)
  | .string text => .ok (if key <:+: text then .string key else .null)
  | .array _ => .error typeError
  | .integer _ => .error typeError
  | .float _ => .error .noMethodError
  | .bool _ => .error .noMethodError
  | .null => .error .noMethodError

/-- `r[key] = value`. -/
def assign (key : Text) (value : Json) : Json → Except RubyError Json
  | .object fields => .ok (.object (set fields key value))
  | .string text =>
    match value with
    | .string replacement =>
      match sub key replacement text with
      | some text => .ok (.string text)
      | none => .error (.exception "IndexError".toList)
    | _ => .error typeError
  | .array _ => .error typeError
  | _ => .error .noMethodError

/-- The values that `data.each` yields: the pairs of an object are arrays. -/
def each : Json → Except RubyError (List Json)
  | .array elements => .ok elements
  | .object fields => .ok (fields.map fun field => .array [.string field.1, field.2])
  | _ => .error .noMethodError

/-- What has a value for `type_name`, if only nil. -/
def Indexable : Json → Prop
  | .object _ => True
  | .string _ => True
  | _ => False

/-- A value has one iff it can be indexed. -/
theorem index_eq_ok_iff {key : Text} {d : Json} : (∃ v, d.index key = .ok v) ↔ d.Indexable := by
  cases d <;> simp [index, Indexable]

/-- The value that was set. -/
theorem get_set {fields : List (Text × Json)} {key : Text} (h : get fields key ≠ .null) (value : Json) :
    get (set fields key value) key = value := by
  have hlookup : (set fields key value).lookup key = (fields.lookup key).map fun _ => value := by
    clear h
    induction fields with
    | nil => rfl
    | cons field fields ih =>
      obtain ⟨k, v⟩ := field
      by_cases hk : k = key
      · simp [set, hk]
      · have hbeq : (key == k) = false := by simpa using Ne.symm hk
        have hset : set ((k, v) :: fields) key value = (k, v) :: set fields key value := by
          rw [set, List.map_cons, if_neg hk]
          rfl
        rw [hset, List.lookup_cons, List.lookup_cons, hbeq, ih]
  rw [get, hlookup]
  cases hfield : fields.lookup key with
  | none => exact absurd (by rw [get, hfield]; rfl) h
  | some v => rfl

end Json

/-! ## The handler -/

/-- What is called outside the script. -/
structure Ruby where
  /-- `JSON.parse`; `none` when it raises. -/
  parse : Text → Option Json
  /-- `JSON.pretty_generate`; `none` when it raises. -/
  prettyGenerate : Json → Option Text
  /-- A value in a text. -/
  toS : Json → Text
  /-- `e.inspect`. -/
  inspect : RubyError → Text
  /-- A word that is no JSON. -/
  parse_data : parse "data".toList = none

/-- What the handler reads of an event. -/
structure Event where
  clientName : Text
  checkName : Text
  action : Text
  output : Text

/-- What stands in `a_text` and `a_html` for one thing. -/
inductive Row
  /-- The output as it is. -/
  | raw (output : Text)
  /-- An element, with its type, its message, and how `JSON.pretty_generate` prints it. -/
  | element (r typeName message : Json) (pretty : Text)

/-- A mail, its addresses apart. -/
structure Mail where
  subject : Text
  clientName : Text
  rows : List Row

/-- The mails that were sent and the lines that were printed. -/
structure Outcome where
  mails : List Mail
  printed : List Text

/-- `short_name`. -/
def Event.shortName (event : Event) : Text := event.clientName ++ '/' :: event.checkName

variable (R : Ruby)

/-- An element of an array with the text in `data` read, an empty object in place of what is no JSON. -/
def readData (r : Json) : Except RubyError Json := do
  match ← r.index "data".toList with
  | .string text => Json.assign "data".toList ((R.parse text).getD (.object [])) r
  | _ => return r

/-- What is put into the mail for an element. -/
def present (r : Json) : Except RubyError Row := do
  let r ← readData R r
  let data ← r.index "data".toList
  let typeName ← data.index "type_name".toList
  let message ← r.index "message".toList
  match R.prettyGenerate r with
  | none => throw (.exception "JSON::GeneratorError".toList)
  | some pretty => return .element r typeName message pretty

/-- An entry of `a_text`. -/
def Row.text : Row → Text
  | .raw output => output
  | .element _ typeName message pretty =>
    "  ".toList ++ (R.toS typeName ++ (". ".toList ++ (R.toS message ++ ("\n  ".toList ++
      (pretty ++ "\n\n".toList)))))

/-- An entry of `a_html`. -/
def Row.html : Row → Text
  | .raw output => output
  | .element _ typeName message pretty =>
    "<b>".toList ++ (R.toS typeName ++ ("</b>. ".toList ++ (R.toS message ++ ("<br>\n".toList ++
      (pretty ++ "<br>\n<br>\n".toList)))))

/-- `s_text`. The `'\n'` of the `join` is no end of a line, but the two characters. -/
def Mail.body (m : Mail) : Text :=
  "Client: ".toList ++ (m.clientName ++ ('\n' :: "\\n".toList.intercalate (m.rows.map (Row.text R))))

/-- `s_html`. -/
def Mail.htmlBody (m : Mail) : Text :=
  "Client: ".toList ++ (m.clientName ++ ("<br>".toList ++ "<br>".toList.intercalate (m.rows.map (Row.html R))))

/-- What `a_text` and `a_html` are filled with. -/
def rows (output : Text) : Except RubyError (List Row) :=
  match R.parse output with
  | some data => do
    let elements ← data.each
    elements.mapM (present R)
  | none => .ok (if strip output = [] then [] else [.raw output])

/-- The mail of an event. -/
def mail (event : Event) : Except RubyError Mail := do
  let rows ← rows R event.output
  -- `s_html` is assigned further down: where it is read it is the name of nothing
  if rows.isEmpty then throw (.exception "NameError".toList)
  else return ⟨"notify handler".toList, event.clientName, rows⟩

/-- **`MailAdminHandler#handle`**. -/
def handle (event : Event) : Outcome :=
  match mail R event with
  | .ok mail => ⟨[mail], []⟩
  | .error e => ⟨[], ["mail_admin handler: exception. e: ".toList ++ (R.inspect e ++ (event.action ++
      (", ".toList ++ event.shortName)))]⟩

/-! ## What it is for -/

/-- There is nothing to say: the output is blank, or an empty array. -/
def Nothing (output : Text) : Prop := strip output = [] ∨ R.parse output = some (.array [])

/-- What may stand for an element: the element itself, or, where its data is a text that is JSON, the element with the
value that this text describes. -/
def StandsFor (r r' : Json) : Prop := r' = r ∨ ∃ fields text value, r = .object fields ∧
  Json.get fields "data".toList = .string text ∧ R.parse text = some value ∧
  r' = .object (Json.set fields "data".toList value)

/-- A mail shows an element with a row: what stands for it, as it is printed, is in both bodies. -/
def ShowsWith (m : Mail) (r : Json) (row : Row) : Prop :=
  ∃ r' typeName message pretty, row = .element r' typeName message pretty ∧ StandsFor R r r' ∧
    R.prettyGenerate r' = some pretty ∧ pretty <:+: m.body R ∧ pretty <:+: m.htmlBody R

/-- A mail carries an output: the text as it is, or the elements of the array, one by one. -/
def Carries (m : Mail) (output : Text) : Prop :=
  match R.parse output with
  | some (.array elements) => List.Forall₂ (ShowsWith R m) elements m.rows
  | _ => output <:+: m.body R ∧ output <:+: m.htmlBody R

/-- **No alert is lost**: one mail carries the output; where there is nothing to say, none is sent and
nothing printed. -/
def Meets (event : Event) : Prop :=
  (Nothing R event.output → (handle R event).mails = [] ∧ (handle R event).printed = []) ∧
  (¬Nothing R event.output → ∃ m, (handle R event).mails = [m] ∧ Carries R m event.output)

/-- An element that can be presented, with all its data: an object whose data is an object or a string, or a text that
is JSON for such a value, and that can be printed with it. -/
def Presentable : Json → Prop
  | .object fields =>
    match Json.get fields "data".toList with
    | .string text => ∃ value, R.parse text = some value ∧ value.Indexable ∧
      (R.prettyGenerate (.object (Json.set fields "data".toList value))).isSome = true
    | data => data.Indexable ∧ (R.prettyGenerate (.object fields)).isSome = true
  | _ => False

/-! ## Elements -/

variable {R}

/-- The data of an object, read. -/
theorem readData_object (fields : List (Text × Json)) : readData R (.object fields) =
    match Json.get fields "data".toList with
    | .string text =>
      .ok (.object (Json.set fields "data".toList ((R.parse text).getD (.object []))))
    | _ => .ok (.object fields) := by
  unfold readData
  rw [Json.index]
  show (match Json.get fields "data".toList with
    | .string text => Json.assign "data".toList ((R.parse text).getD (.object [])) (.object fields)
    | _ => .ok (.object fields)) = _
  cases Json.get fields "data".toList <;> rfl

/-- **What is presented**: an element with its data read, whose data can be asked for its type and which
can be printed. -/
theorem present_eq_ok_iff {r : Json} {row : Row} : present R r = .ok row ↔
    ∃ r', readData R r = .ok r' ∧ ∃ data, r'.index "data".toList = .ok data ∧
    ∃ typeName, data.index "type_name".toList = .ok typeName ∧
    ∃ message, r'.index "message".toList = .ok message ∧
    ∃ pretty, R.prettyGenerate r' = some pretty ∧ .element r' typeName message pretty = row := by
  unfold present
  simp only [bind_eq_ok_iff]
  refine exists_congr fun r' => and_congr_right fun _ => exists_congr fun data => and_congr_right fun _ =>
    exists_congr fun typeName => and_congr_right fun _ => exists_congr fun message =>
    and_congr_right fun _ => ?_
  cases R.prettyGenerate r' with
  | none => simp [throw, throwThe, MonadExceptOf.throw]
  | some pretty => simp [pure, Except.pure]

/-- What is presented is the element with its data read. -/
theorem readData_of_present {r r' typeName message : Json} {pretty : Text}
    (h : present R r = .ok (.element r' typeName message pretty)) :
    readData R r = .ok r' ∧ R.prettyGenerate r' = some pretty := by
  obtain ⟨s, hread, data, -, type, -, text, -, p, hpretty, heq⟩ := present_eq_ok_iff.mp h
  cases heq
  exact ⟨hread, hpretty⟩

/-- An object is presented iff its data can be asked for its type and it can be printed. -/
theorem exists_present_iff {r : Json} {fields : List (Text × Json)}
    (hread : readData R r = .ok (.object fields)) : (∃ row, present R r = .ok row) ↔
    (Json.get fields "data".toList).Indexable ∧ (R.prettyGenerate (.object fields)).isSome = true := by
  simp only [present_eq_ok_iff]
  constructor
  · rintro ⟨row, r', hr', data, hdata, typeName, htype, message, -, pretty, hpretty, -⟩
    obtain rfl := Except.ok.inj (hread.symm.trans hr')
    obtain rfl := Except.ok.inj hdata
    exact ⟨Json.index_eq_ok_iff.mp ⟨typeName, htype⟩, by rw [hpretty]; rfl⟩
  · rintro ⟨hindexable, hsome⟩
    obtain ⟨typeName, htype⟩ := Json.index_eq_ok_iff.mpr hindexable
    obtain ⟨pretty, hpretty⟩ := Option.isSome_iff_exists.mp hsome
    exact ⟨_, _, hread, _, rfl, typeName, htype, _, rfl, pretty, hpretty, rfl⟩

/-- Only objects are presented. -/
theorem object_of_present {r : Json} {row : Row} (h : present R r = .ok row) : ∃ fields, r = .object fields := by
  obtain ⟨r', hread, data, hindex, typeName, htype, -⟩ := present_eq_ok_iff.mp h
  cases r with
  | object fields => exact ⟨fields, rfl⟩
  | string text =>
    unfold readData at hread
    rw [Json.index] at hread
    split at hread
    · -- the word is no JSON, and a hash does not go into a string
      change Json.assign "data".toList ((R.parse "data".toList).getD (.object [])) (.string text) = _ at hread
      rw [R.parse_data] at hread
      cases hread
    · -- there is nothing to ask for a type
      rename_i hin
      cases hread
      rw [Json.index, if_neg hin] at hindex
      cases hindex
      cases htype
  | _ => cases hread

/-- An element that is presented has a row of its own. -/
theorem exists_element_of_present {r : Json} {row : Row} (h : present R r = .ok row) :
    ∃ r' typeName message pretty, row = .element r' typeName message pretty ∧ readData R r = .ok r' := by
  obtain ⟨r', hread, -, -, typeName, -, message, -, pretty, -, heq⟩ := present_eq_ok_iff.mp h
  exact ⟨r', typeName, message, pretty, heq.symm, hread⟩

/-- An object with a text in its data is presented with what the text is JSON for. -/
theorem exists_present_string_iff {fields : List (Text × Json)} {text : Text}
    (hdata : Json.get fields "data".toList = .string text) :
    (∃ r' typeName message pretty, present R (.object fields) = .ok (.element r' typeName message pretty) ∧
      StandsFor R (.object fields) r') ↔
      ∃ value, R.parse text = some value ∧ value.Indexable ∧
        (R.prettyGenerate (.object (Json.set fields "data".toList value))).isSome = true := by
  have hread := readData_object (R := R) fields
  simp only [hdata] at hread
  have hnull : Json.get fields "data".toList ≠ .null := by
    rw [hdata]
    exact Json.noConfusion
  have hget := Json.get_set hnull ((R.parse text).getD (.object []))
  have hexists := exists_present_iff hread
  rw [hget] at hexists
  constructor
  · rintro ⟨r', typeName, message, pretty, hpresent, hstands⟩
    obtain ⟨hindexable, hsome⟩ := hexists.mp ⟨_, hpresent⟩
    obtain rfl := Except.ok.inj (hread.symm.trans (readData_of_present hpresent).1)
    obtain hsame | ⟨fields', text', value, hobject, htext, hparse, -⟩ := hstands
    · -- the text would still be there
      have hfield := congrArg (fun fields => Json.get fields "data".toList) (Json.object.inj hsame)
      simp only [hget, hdata] at hfield
      cases hparse : R.parse text with
      | none =>
        rw [hparse] at hfield
        cases hfield
      | some value =>
        rw [hparse] at hindexable hsome
        exact ⟨value, rfl, hindexable, hsome⟩
    · obtain rfl := Json.object.inj hobject
      obtain rfl := Json.string.inj (hdata.symm.trans htext)
      rw [hparse] at hindexable hsome
      exact ⟨value, hparse, hindexable, hsome⟩
  · rintro ⟨value, hparse, hindexable, hsome⟩
    rw [hparse] at hexists hread
    obtain ⟨row, hpresent⟩ := hexists.mpr ⟨hindexable, hsome⟩
    obtain ⟨r', typeName, message, pretty, rfl, hread'⟩ := exists_element_of_present hpresent
    obtain rfl := Except.ok.inj (hread.symm.trans hread')
    exact ⟨_, typeName, message, pretty, hpresent, .inr ⟨fields, text, value, rfl, hdata, hparse, rfl⟩⟩

/-- **Elements**: those that can be presented with all their data are, and no others. -/
theorem exists_present_iff_presentable {r : Json} :
    (∃ r' typeName message pretty, present R r = .ok (.element r' typeName message pretty) ∧ StandsFor R r r') ↔
      Presentable R r := by
  cases r with
  | object fields =>
    have hread := readData_object (R := R) fields
    cases hdata : Json.get fields "data".toList with
    | string text =>
      rw [exists_present_string_iff hdata, Presentable, hdata]
    | _ =>
      simp only [hdata] at hread
      have hexists := exists_present_iff hread
      rw [hdata] at hexists
      rw [Presentable, hdata]
      refine Iff.trans ?_ hexists
      constructor
      · rintro ⟨r', typeName, message, pretty, hpresent, -⟩
        exact ⟨_, hpresent⟩
      · rintro ⟨row, hpresent⟩
        obtain ⟨r', typeName, message, pretty, rfl, hread'⟩ := exists_element_of_present hpresent
        obtain rfl := Except.ok.inj (hread.symm.trans hread')
        exact ⟨_, typeName, message, pretty, hpresent, .inl rfl⟩
  | _ =>
    refine iff_of_false ?_ id
    rintro ⟨r', typeName, message, pretty, hpresent, -⟩
    obtain ⟨fields, hobject⟩ := object_of_present hpresent
    cases hobject

/-- A row of an element has it in it, as it is printed. -/
theorem pretty_infix (r typeName message : Json) (pretty : Text) :
    pretty <:+: Row.text R (.element r typeName message pretty) ∧
      pretty <:+: Row.html R (.element r typeName message pretty) := by
  have hin : ∀ a b c d e f : Text, pretty <:+: a ++ (b ++ (c ++ (d ++ (e ++ (pretty ++ f))))) := by
    intro a b c d e f
    exact ⟨a ++ (b ++ (c ++ (d ++ e))), f, by simp only [List.append_assoc]⟩
  exact ⟨hin .., hin ..⟩

/-! ## The mail -/

variable {event : Event}

/-- The mail is made of the rows, of which there must be one. -/
theorem mail_eq_ok_iff {m : Mail} : mail R event = .ok m ↔ ∃ rs, rows R event.output = .ok rs ∧ rs ≠ [] ∧
    ⟨"notify handler".toList, event.clientName, rs⟩ = m := by
  rw [mail, bind_eq_ok_iff]
  refine exists_congr fun rs => and_congr_right fun _ => ?_
  cases rs with
  | nil => simp [throw, throwThe, MonadExceptOf.throw]
  | cons row rs => simp [pure, Except.pure]

/-- One mail is sent, or a line is printed. -/
theorem handle_mails_iff {m : Mail} : (handle R event).mails = [m] ↔ mail R event = .ok m := by
  rw [handle]
  cases mail R event with
  | ok m' => simp
  | error e => simp

/-- The handler is never silent. -/
theorem handle_not_silent : ¬((handle R event).mails = [] ∧ (handle R event).printed = []) := by
  rw [handle]
  cases mail R event with
  | ok m => simp
  | error e => simp

/-- What is in a row is in the mail. -/
theorem infix_mail {m : Mail} {row : Row} (hrow : row ∈ m.rows) {t : Text} (htext : t <:+: row.text R)
    (hhtml : t <:+: row.html R) : t <:+: m.body R ∧ t <:+: m.htmlBody R := by
  have hbody := htext.trans (infix_intercalate (List.mem_map_of_mem (f := Row.text R) hrow) "\\n".toList)
  have hhtml := hhtml.trans (infix_intercalate (List.mem_map_of_mem (f := Row.html R) hrow) "<br>".toList)
  have hbehind : ∀ {s : Text}, t <:+: s → ∀ a b c : Text, t <:+: a ++ (b ++ (c ++ s)) := by
    intro s hs a b c
    rw [← List.append_assoc, ← List.append_assoc]
    exact hs.trans (List.suffix_append _ s).isInfix
  exact ⟨hbehind hbody _ _ ['\n'], hbehind hhtml _ _ _⟩

/-- **Text** that is no JSON is mailed as it is. -/
theorem exists_mail_text (hparse : R.parse event.output = none) (hblank : strip event.output ≠ []) :
    ∃ m, mail R event = .ok m ∧ Carries R m event.output := by
  have hrows : rows R event.output = .ok [.raw event.output] := by
    rw [rows, hparse, if_neg hblank]
  refine ⟨_, mail_eq_ok_iff.mpr ⟨_, hrows, List.cons_ne_nil _ _, rfl⟩, ?_⟩
  rw [Carries, hparse]
  exact infix_mail List.mem_cons_self List.infix_rfl List.infix_rfl

/-- The rows of presentable elements show them. -/
theorem exists_rows {elements : List Json} (h : ∀ r ∈ elements, Presentable R r) :
    ∃ rs, elements.mapM (present R) = .ok rs ∧ List.Forall₂ (fun r row => ∃ r' typeName message pretty,
      row = .element r' typeName message pretty ∧ StandsFor R r r' ∧ R.prettyGenerate r' = some pretty)
        elements rs := by
  induction elements with
  | nil => exact ⟨[], rfl, .nil⟩
  | cons r elements ih =>
    obtain ⟨rs, hmap, hrs⟩ := ih fun s hs => h s (List.mem_cons_of_mem r hs)
    obtain ⟨r', typeName, message, pretty, hpresent, hstands⟩ :=
      exists_present_iff_presentable.mpr (h r List.mem_cons_self)
    exact ⟨_, mapM_eq_ok_iff.mpr (.cons hpresent (mapM_eq_ok_iff.mp hmap)),
      .cons ⟨r', typeName, message, pretty, rfl, hstands, (readData_of_present hpresent).2⟩ hrs⟩

/-- **An array** of presentable elements is mailed, all of it. -/
theorem exists_mail_array {elements : List Json} (hparse : R.parse event.output = some (.array elements))
    (hne : elements ≠ []) (h : ∀ r ∈ elements, Presentable R r) :
    ∃ m, mail R event = .ok m ∧ Carries R m event.output := by
  obtain ⟨rs, hmap, hshown⟩ := exists_rows h
  have hrows : rows R event.output = .ok rs := by
    rw [rows, hparse]
    exact hmap
  have hrs : rs ≠ [] := by
    rintro rfl
    cases hshown
    exact hne rfl
  refine ⟨_, mail_eq_ok_iff.mpr ⟨_, hrows, hrs, rfl⟩, ?_⟩
  rw [Carries, hparse]
  refine (List.forall₂_iff_zip.mpr ⟨hshown.length_eq, fun {r row} hmem => ?_⟩ : List.Forall₂ _ elements rs)
  obtain ⟨r', typeName, message, pretty, rfl, hstands, hpretty⟩ := (List.forall₂_iff_zip.mp hshown).2 hmem
  have hin := pretty_infix (R := R) r' typeName message pretty
  exact ⟨r', typeName, message, pretty, rfl, hstands, hpretty,
    infix_mail (m := ⟨_, _, rs⟩) (List.of_mem_zip hmem).2 hin.1 hin.2⟩

/-- **A mail that carries the output** is sent for nothing else. -/
theorem of_mail {m : Mail} (h : mail R event = .ok m) (hcarries : Carries R m event.output) :
    R.parse event.output = none ∨
      ∃ elements, R.parse event.output = some (.array elements) ∧ ∀ r ∈ elements, Presentable R r := by
  obtain ⟨rs, hrows, hne, rfl⟩ := mail_eq_ok_iff.mp h
  cases hparse : R.parse event.output with
  | none => exact .inl rfl
  | some data =>
    rw [rows, hparse] at hrows
    obtain ⟨elements, heach, hmap⟩ := bind_eq_ok_iff.mp hrows
    cases data with
    | array elements' =>
      obtain rfl := Except.ok.inj heach
      rw [Carries, hparse] at hcarries
      refine .inr ⟨_, rfl, fun r hr => ?_⟩
      -- the row of an element is what is presented for it
      obtain ⟨n, hn, rfl⟩ := List.getElem_of_mem hr
      have hpresent := (List.forall₂_iff_get.mp (mapM_eq_ok_iff.mp hmap)).2 n hn
      obtain ⟨hlength, hshown⟩ := List.forall₂_iff_get.mp hcarries
      have hn' : n < rs.length := hlength ▸ hn
      obtain ⟨r', typeName, message, pretty, hrow, hstands, -⟩ := hshown n hn hn'
      have hrow' := (hpresent hn').trans (congrArg Except.ok hrow)
      exact exists_present_iff_presentable.mp ⟨r', typeName, message, pretty, hrow', hstands⟩
    | object fields =>
      obtain rfl := Except.ok.inj heach
      cases fields with
      | nil =>
        obtain rfl := Except.ok.inj hmap
        exact absurd rfl hne
      | cons field fields =>
        -- the first pair is an array, which is no element that can be presented
        cases mapM_eq_ok_iff.mp hmap with
        | cons hpresent _ =>
          obtain ⟨fields, hobject⟩ := object_of_present hpresent
          cases hobject
    | _ => cases heach

/-- **No alert is lost** exactly when there is something to say, as text or as an array of objects that can be
presented with all their data. -/
theorem meets_iff (R : Ruby) (event : Event) : Meets R event ↔ ¬Nothing R event.output ∧
    (R.parse event.output = none ∨
      ∃ elements, R.parse event.output = some (.array elements) ∧ ∀ r ∈ elements, Presentable R r) := by
  constructor
  · rintro ⟨hsilent, hmail⟩
    have hnothing : ¬Nothing R event.output := fun h => handle_not_silent (hsilent h)
    obtain ⟨m, hm, hcarries⟩ := hmail hnothing
    exact ⟨hnothing, of_mail (handle_mails_iff.mp hm) hcarries⟩
  · rintro ⟨hnothing, hcases⟩
    refine ⟨fun h => absurd h hnothing, fun _ => ?_⟩
    obtain ⟨hblank, hempty⟩ := not_or.mp hnothing
    obtain hparse | ⟨elements, hparse, hall⟩ := hcases
    · obtain ⟨m, hm, hcarries⟩ := exists_mail_text hparse hblank
      exact ⟨m, handle_mails_iff.mpr hm, hcarries⟩
    · have hne : elements ≠ [] := by
        rintro rfl
        exact hempty hparse
      obtain ⟨m, hm, hcarries⟩ := exists_mail_array hparse hne hall
      exact ⟨m, handle_mails_iff.mpr hm, hcarries⟩

/-- A library that knows two texts: an array with an object without data, and one with data that is no JSON. -/
def twoArrays : Ruby where
  parse text :=
    if text = "[\x7b\"message\": \"disk full\"\x7d]".toList then
      some (.array [.object [("message".toList, .string "disk full".toList)]])
    else if text = "[\x7b\"data\": \"disk full\"\x7d]".toList then
      some (.array [.object [("data".toList, .string "disk full".toList)]])
    else none
  prettyGenerate _ := some "\x7b\n  \"data\": \x7b\x7d\n\x7d".toList
  toS
    | .string text => text
    | _ => []
  inspect _ := "#<NoMethodError>".toList
  parse_data := by decide

/-- The event with this output. -/
def eventOf (output : Text) : Event := ⟨"web".toList, "disk".toList, "create".toList, output⟩

/-- For the second text an empty object is shown in place of the data. -/
theorem mail_twoArrays : mail twoArrays (eventOf "[\x7b\"data\": \"disk full\"\x7d]".toList) =
    .ok ⟨"notify handler".toList, "web".toList, [.element (.object [("data".toList, .object [])]) .null .null
      "\x7b\n  \"data\": \x7b\x7d\n\x7d".toList]⟩ := by
  rfl

/-- An object without data is lost, data that is no JSON is not in the mail, and a blank output is reported as an
exception. -/
theorem alert_lost : ¬Meets twoArrays (eventOf "[\x7b\"message\": \"disk full\"\x7d]".toList) ∧
    ¬Meets twoArrays (eventOf "[\x7b\"data\": \"disk full\"\x7d]".toList) ∧
    ¬Meets twoArrays (eventOf "\n".toList) := by
  have hnothing : ∀ output, strip output ≠ [] → twoArrays.parse output ≠ some (.array []) →
      ¬Nothing twoArrays output := fun output hblank hempty h => h.elim hblank hempty
  refine ⟨?_, ?_, ?_⟩
  · rintro ⟨-, hmail⟩
    obtain ⟨m, hm, -⟩ := hmail (hnothing _ (by decide) (by rintro ⟨⟩))
    cases hm
  · rintro ⟨-, hmail⟩
    obtain ⟨m, hm, hcarries⟩ := hmail (hnothing _ (by decide) (by rintro ⟨⟩))
    have hsent := mail_twoArrays.symm.trans (handle_mails_iff.mp hm)
    obtain rfl := Except.ok.inj hsent
    -- what is shown is neither the element nor the element with its text read
    obtain ⟨⟨r', typeName, message, pretty, hrow, hstands, -⟩, -⟩ := List.forall₂_cons.mp hcarries
    cases hrow
    obtain hsame | ⟨fields, text, value, hobject, htext, hparse, -⟩ := hstands
    · cases hsame
    · cases hobject
      cases htext
      have hnone : twoArrays.parse "disk full".toList = none := rfl
      rw [hnone] at hparse
      cases hparse
  · rintro ⟨hsilent, -⟩
    exact handle_not_silent (hsilent (.inl (by decide)))

end GexCloud.Sensu
