import GexCloud.Support.Hosts

/-! # Changing the words of a text in place

The words of a text are changed, and what stands between them is not.

* `mapWords` — every word is changed; `mapNames` — every word but the first.
* **`mapWords_eq_iff`**, **`mapWords_eq_mapNames_iff`** — two changes that give the same text change each word
  alike.
* **`mapWords_mapWords`**, **`mapNames_mapNames`** — one change after the other. -/

namespace Hosts

open Texts

variable {p : Char → Bool} {f g : Text → Text} {s t u v w : Text} {c d : Char}

/-- A text without separators. -/
abbrev Solid (p : Char → Bool) (w : Text) : Prop := ∀ c ∈ w, p c = false

/-- A text before which a word ends: it is empty or starts with a separator. -/
def Apart (p : Char → Bool) (t : Text) : Prop := ∀ c ∈ t.head?, p c = true

/-- A word is changed. -/
def onWord (f : Text → Text) (w : Text) : Text := if w = [] then [] else f w

/-- The words are changed, of which one is under way. -/
def mapWordsFrom (p : Char → Bool) (f : Text → Text) (w : Text) : Text → Text
  | [] => onWord f w
  | c :: cs => if p c then onWord f w ++ c :: mapWordsFrom p f [] cs else mapWordsFrom p f (w ++ [c]) cs

/-- **Every word is changed.** -/
def mapWords (p : Char → Bool) (f : Text → Text) (s : Text) : Text := mapWordsFrom p f [] s

/-- **Every word but the first is changed.** -/
def mapNames (p : Char → Bool) (f : Text → Text) : Text → Text
  | [] => []
  | c :: cs =>
    if p c then c :: mapNames p f cs
    else c :: (cs.takeWhile (fun d => !p d) ++ mapWords p f (cs.dropWhile fun d => !p d))

/-! ## Where words end -/

/-- The end of a line is apart from every word. -/
theorem apart_nil : Apart p [] := nofun

/-- So is what starts with a separator, and nothing else. -/
theorem apart_cons : Apart p (c :: t) ↔ p c = true := by simp [Apart]

/-- Where a word ends before a text, it does so with more behind that. -/
theorem apart_append (hs : Apart p s) (ht : Apart p t) : Apart p (s ++ t) := by
  cases s with
  | nil => exact ht
  | cons c s => exact apart_cons.mpr (apart_cons.mp hs)

/-- What is behind the first word. -/
theorem apart_dropWhile (s : Text) : Apart p (s.dropWhile fun d => !p d) := by
  intro c hc
  cases hdrop : s.dropWhile fun d => !p d with
  | nil =>
    rw [hdrop] at hc
    cases hc
  | cons d t =>
    have hd := List.head_dropWhile_not (fun d => !p d) (l := s) (by rw [hdrop]; exact List.cons_ne_nil d t)
    simp only [hdrop, List.head_cons, List.head?_cons, Option.mem_def, Option.some.injEq] at hd hc
    simpa [← hc] using hd

/-- The first word. -/
theorem solid_takeWhile (s : Text) : Solid p (s.takeWhile fun d => !p d) := fun c hc => by
  simpa using List.mem_takeWhile_imp hc

/-- The first word ends at one place only. -/
theorem append_inj_of_apart (hu : Solid p u) (hv : Solid p v) (hs : Apart p s) (ht : Apart p t)
    (h : u ++ s = v ++ t) : u = v ∧ s = t := by
  have htake : ∀ w r : Text, Solid p w → Apart p r → (w ++ r).takeWhile (fun d => !p d) = w := by
    intro w r hw hr
    rw [List.takeWhile_append_of_pos fun c hc => by simp [hw c hc]]
    cases r with
    | nil => simp
    | cons c r => simp [apart_cons.mp hr]
  have hsame : u = v := by rw [← htake u s hu hs, h, htake v t hv ht]
  subst hsame
  exact ⟨rfl, List.append_cancel_left h⟩

/-- A separator behind equally many stands at the same place. -/
theorem append_cons_inj_of_countP (hc : p c = true) (hd : p d = true) (hcount : u.countP p = v.countP p)
    (h : u ++ c :: s = v ++ d :: t) : u = v ∧ s = t := by
  induction u generalizing v with
  | nil =>
    cases v with
    | nil => exact ⟨rfl, (List.cons_eq_cons.mp h).2⟩
    | cons x v =>
      obtain ⟨rfl, -⟩ := List.cons_eq_cons.mp h
      rw [List.countP_cons_of_pos hc] at hcount
      exact absurd hcount (Nat.succ_ne_zero _).symm
  | cons x u ih =>
    cases v with
    | nil =>
      obtain ⟨rfl, -⟩ := List.cons_eq_cons.mp h
      rw [List.countP_cons_of_pos hd] at hcount
      exact absurd hcount (Nat.succ_ne_zero _)
    | cons y v =>
      obtain ⟨rfl, hrest⟩ := List.cons_eq_cons.mp h
      rw [List.countP_cons, List.countP_cons, Nat.add_right_cancel_iff] at hcount
      obtain ⟨rfl, rfl⟩ := ih hcount hrest
      exact ⟨rfl, rfl⟩

/-- **Texts are words and separators**: what holds of the empty text, and still holds with a separator or a word
in front, holds of every text. -/
theorem wordsInduction {motive : Text → Prop} (nil : motive [])
    (sep : ∀ c t, p c = true → motive t → motive (c :: t))
    (word : ∀ w t, w ≠ [] → Solid p w → Apart p t → motive t → motive (w ++ t)) (s : Text) : motive s := by
  induction hlength : s.length using Nat.strong_induction_on generalizing s with
  | _ n ih =>
    subst hlength
    cases s with
    | nil => exact nil
    | cons c cs =>
      by_cases hc : p c = true
      · exact sep c cs hc (ih cs.length (Nat.lt_succ_self _) cs rfl)
      · have hne : (c :: cs).takeWhile (fun d => !p d) ≠ [] := by simp [hc]
        rw [← List.takeWhile_append_dropWhile (p := fun d => !p d) (l := c :: cs)]
        refine word _ _ hne (solid_takeWhile _) (apart_dropWhile _) (ih _ ?_ _ rfl)
        have hsum := congrArg List.length (List.takeWhile_append_dropWhile (p := fun d => !p d) (l := c :: cs))
        rw [List.length_append] at hsum
        have hpos := List.length_pos_iff.mpr hne
        omega

/-! ## Words of a text -/

/-- A separator in front. -/
theorem wordsBy_cons_sep (hc : p c = true) (t : Text) : wordsBy p (c :: t) = wordsBy p t :=
  wordsBy_append_cons [] t hc

/-- A word in front. -/
theorem wordsBy_append (hne : w ≠ []) (hw : Solid p w) (ht : Apart p t) : wordsBy p (w ++ t) = w :: wordsBy p t := by
  cases t with
  | nil =>
    rw [List.append_nil, wordsBy_of_forall hw, if_neg hne]
    rfl
  | cons c t =>
    rw [wordsBy_cons hw hne (apart_cons.mp ht), wordsBy_cons_sep (apart_cons.mp ht)]

/-- A text with more than separators has a word. -/
theorem wordsBy_ne_nil (hmem : c ∈ s) (hc : p c = false) : wordsBy p s ≠ [] := by
  induction s using wordsInduction (p := p) with
  | nil => cases hmem
  | sep d s hd ih =>
    rw [wordsBy_cons_sep hd]
    refine ih ((List.mem_cons.mp hmem).resolve_left ?_)
    rintro rfl
    rw [hd] at hc
    cases hc
  | word w s hne hw hs _ =>
    rw [wordsBy_append hne hw hs]
    exact List.cons_ne_nil w _

/-- **A word has a separator in front of it**, unless it is the first one and starts the text. -/
theorem exists_of_mem_wordsBy (h : w ∈ wordsBy p s) (hfirst : ∀ t, s = w ++ t → ¬ Apart p t) :
    ∃ u c t, s = u ++ c :: (w ++ t) ∧ p c = true ∧ Apart p t := by
  induction s using wordsInduction (p := p) with
  | nil => cases h
  | sep c s hc ih =>
    rw [wordsBy_cons_sep hc] at h
    by_cases hnext : ∃ t, s = w ++ t ∧ Apart p t
    · obtain ⟨t, rfl, ht⟩ := hnext
      exact ⟨[], c, t, rfl, hc, ht⟩
    · obtain ⟨u, d, t, rfl, hd, ht⟩ := ih h fun t hs ht => hnext ⟨t, hs, ht⟩
      exact ⟨c :: u, d, t, rfl, hd, ht⟩
  | word w' s hne hw hs ih =>
    rw [wordsBy_append hne hw hs] at h
    obtain rfl | h := List.mem_cons.mp h
    · exact absurd hs (hfirst s rfl)
    · -- the text behind the first word does not start with a word
      obtain ⟨hwne, hwsolid⟩ := forall_of_mem_wordsBy h
      obtain ⟨u, d, t, rfl, hd, ht⟩ := ih h fun t ht _ => by
        obtain ⟨e, v, rfl⟩ := List.exists_cons_of_ne_nil hwne
        rw [ht] at hs
        exact absurd (apart_cons.mp hs) (by simp [hwsolid e List.mem_cons_self])
      exact ⟨w' ++ u, d, t, (List.append_assoc w' u _).symm, hd, ht⟩

/-! ## Changing every word -/

/-- A word is mapped. -/
theorem onWord_of_ne_nil (h : w ≠ []) : onWord f w = f w := if_neg h

/-- The characters of a word are collected. -/
theorem mapWordsFrom_append (hv : Solid p v) (w s : Text) :
    mapWordsFrom p f w (v ++ s) = mapWordsFrom p f (w ++ v) s := by
  induction v generalizing w with
  | nil => rw [List.nil_append, List.append_nil]
  | cons c v ih =>
    have hc : p c = false := hv c List.mem_cons_self
    rw [List.cons_append, mapWordsFrom, hc, if_neg Bool.false_ne_true, ih fun d hd => hv d (List.mem_cons_of_mem c hd),
      List.append_assoc, List.singleton_append]

@[simp] theorem mapWords_nil : mapWords p f [] = [] := rfl

/-- A separator is kept. -/
theorem mapWords_cons (hc : p c = true) (t : Text) : mapWords p f (c :: t) = c :: mapWords p f t := by
  rw [mapWords, mapWordsFrom, if_pos hc]
  rfl

/-- A word in front. -/
theorem mapWords_append (hw : Solid p w) (ht : Apart p t) :
    mapWords p f (w ++ t) = onWord f w ++ mapWords p f t := by
  rw [mapWords, mapWordsFrom_append hw, List.nil_append]
  cases t with
  | nil => exact (List.append_nil _).symm
  | cons c t => rw [mapWordsFrom, if_pos (apart_cons.mp ht), mapWords_cons (apart_cons.mp ht), mapWords]

/-- A single word is mapped as a whole. -/
theorem mapWords_of_solid (hw : Solid p w) : mapWords p f w = onWord f w := by
  rw [← List.append_nil w, mapWords_append hw apart_nil, mapWords_nil, List.append_nil, List.append_nil]

/-- A separator divides the change. -/
theorem mapWords_append_cons (hc : p c = true) (s t : Text) :
    mapWords p f (s ++ c :: t) = mapWords p f s ++ c :: mapWords p f t := by
  induction s using wordsInduction (p := p) with
  | nil => exact mapWords_cons hc t
  | sep d s hd ih => rw [List.cons_append, mapWords_cons hd, ih, mapWords_cons hd, List.cons_append]
  | word w s _ hw hs ih =>
    have hrest : Apart p (s ++ c :: t) := apart_append hs (apart_cons.mpr hc)
    rw [List.append_assoc, mapWords_append hw hrest, ih, mapWords_append hw hs, List.append_assoc]

/-- What is apart stays so. -/
theorem apart_mapWords (ht : Apart p t) : Apart p (mapWords p f t) := by
  cases t with
  | nil => exact apart_nil
  | cons c t =>
    rw [mapWords_cons (apart_cons.mp ht)]
    exact apart_cons.mpr (apart_cons.mp ht)

/-- The separators stay. -/
theorem countP_mapWords (hf : ∀ w ∈ wordsBy p s, Solid p (f w)) : (mapWords p f s).countP p = s.countP p := by
  induction s using wordsInduction (p := p) with
  | nil => rfl
  | sep c s hc ih =>
    rw [wordsBy_cons_sep hc] at hf
    rw [mapWords_cons hc, List.countP_cons, List.countP_cons, ih hf]
  | word w s hne hw hs ih =>
    rw [wordsBy_append hne hw hs] at hf
    have hsolid : ∀ x : Text, Solid p x → x.countP p = 0 := fun x hx =>
      List.countP_eq_zero.mpr fun c hc => by simp [hx c hc]
    rw [mapWords_append hw hs, onWord_of_ne_nil hne, List.countP_append, List.countP_append,
      hsolid _ (hf w List.mem_cons_self), hsolid w hw, ih fun x hx => hf x (List.mem_cons_of_mem w hx)]

/-- A text that is kept where it ends a word stays at the end. -/
theorem isSuffix_mapWords (hne : u ≠ []) (hu : Solid p u) (hf : ∀ w, u <:+ w → f w = w) (s : Text) :
    u <:+ mapWords p f (s ++ u) := by
  induction s using wordsInduction (p := p) with
  | nil => rw [List.nil_append, mapWords_of_solid hu, onWord_of_ne_nil hne, hf u List.suffix_rfl]
  | sep c s hc ih =>
    rw [List.cons_append, mapWords_cons hc]
    exact ih.trans (List.suffix_cons c _)
  | word w s hw hsolid hs ih =>
    cases s with
    | nil =>
      rw [List.append_nil, mapWords_of_solid fun d hd => (List.mem_append.mp hd).elim (hsolid d) (hu d),
        onWord_of_ne_nil (List.append_ne_nil_of_left_ne_nil hw u), hf _ (List.suffix_append w u)]
      exact List.suffix_append w u
    | cons c s =>
      have hrest : Apart p (c :: s ++ u) := apart_cons.mpr (apart_cons.mp hs)
      rw [List.append_assoc, mapWords_append hsolid hrest]
      exact ih.trans (List.suffix_append _ _)

/-- **Two changes give the same text** exactly when they change each word alike. -/
theorem mapWords_eq_iff (hf : ∀ w ∈ wordsBy p s, Solid p (f w)) (hg : ∀ w ∈ wordsBy p s, Solid p (g w)) :
    mapWords p f s = mapWords p g s ↔ ∀ w ∈ wordsBy p s, f w = g w := by
  induction s using wordsInduction (p := p) with
  | nil => exact iff_of_true rfl nofun
  | sep c s hc ih =>
    rw [wordsBy_cons_sep hc] at hf hg ⊢
    rw [mapWords_cons hc, mapWords_cons hc, List.cons_inj_right]
    exact ih hf hg
  | word w s hne hw hs ih =>
    rw [wordsBy_append hne hw hs] at hf hg ⊢
    have hrest := ih (fun x hx => hf x (List.mem_cons_of_mem w hx)) fun x hx => hg x (List.mem_cons_of_mem w hx)
    rw [mapWords_append hw hs, mapWords_append hw hs, onWord_of_ne_nil hne, onWord_of_ne_nil hne,
      List.forall_mem_cons, ← hrest]
    constructor
    · exact append_inj_of_apart (hf w List.mem_cons_self) (hg w List.mem_cons_self) (apart_mapWords hs)
        (apart_mapWords hs)
    · rintro ⟨hword, htail⟩
      rw [hword, htail]

/-- Words that are changed alike. -/
theorem mapWords_congr (h : ∀ w ∈ wordsBy p s, f w = g w) : mapWords p f s = mapWords p g s := by
  induction s using wordsInduction (p := p) with
  | nil => rfl
  | sep c s hc ih =>
    rw [wordsBy_cons_sep hc] at h
    rw [mapWords_cons hc, mapWords_cons hc, ih h]
  | word w s hne hw hs ih =>
    rw [wordsBy_append hne hw hs] at h
    rw [mapWords_append hw hs, mapWords_append hw hs, onWord_of_ne_nil hne, onWord_of_ne_nil hne,
      h w List.mem_cons_self, ih fun x hx => h x (List.mem_cons_of_mem w hx)]

/-- The characters are those of the text and of the new words. -/
theorem mem_mapWords (h : c ∈ mapWords p f s) : c ∈ s ∨ ∃ w ∈ wordsBy p s, c ∈ f w := by
  induction s using wordsInduction (p := p) with
  | nil => cases h
  | sep d s hd ih =>
    rw [mapWords_cons hd, List.mem_cons] at h
    rw [wordsBy_cons_sep hd]
    obtain rfl | h := h
    · exact .inl List.mem_cons_self
    · exact (ih h).imp_left (List.mem_cons_of_mem d)
  | word w s hne hw hs ih =>
    rw [mapWords_append hw hs, onWord_of_ne_nil hne, List.mem_append] at h
    rw [wordsBy_append hne hw hs]
    obtain h | h := h
    · exact .inr ⟨w, List.mem_cons_self, h⟩
    · obtain h | ⟨x, hx, h⟩ := ih h
      · exact .inl (List.mem_append_right w h)
      · exact .inr ⟨x, List.mem_cons_of_mem w hx, h⟩

/-- Words that stay. -/
theorem mapWords_eq_self (hf : ∀ w ∈ wordsBy p s, f w = w) : mapWords p f s = s := by
  induction s using wordsInduction (p := p) with
  | nil => rfl
  | sep c s hc ih =>
    rw [wordsBy_cons_sep hc] at hf
    rw [mapWords_cons hc, ih hf]
  | word w s hne hw hs ih =>
    rw [wordsBy_append hne hw hs] at hf
    rw [mapWords_append hw hs, onWord_of_ne_nil hne, hf w List.mem_cons_self,
      ih fun x hx => hf x (List.mem_cons_of_mem w hx)]

/-- **One change after the other.** -/
theorem mapWords_mapWords (hf : ∀ w ∈ wordsBy p s, Solid p (f w)) :
    mapWords p g (mapWords p f s) = mapWords p (fun w => onWord g (f w)) s := by
  induction s using wordsInduction (p := p) with
  | nil => rfl
  | sep c s hc ih =>
    rw [wordsBy_cons_sep hc] at hf
    rw [mapWords_cons hc, mapWords_cons hc, ih hf, mapWords_cons hc]
  | word w s hne hw hs ih =>
    rw [wordsBy_append hne hw hs] at hf
    rw [mapWords_append hw hs, onWord_of_ne_nil hne, mapWords_append (hf w List.mem_cons_self) (apart_mapWords hs),
      ih fun x hx => hf x (List.mem_cons_of_mem w hx), mapWords_append hw hs, onWord_of_ne_nil hne]

/-! ## Changing every word but the first -/

@[simp] theorem mapNames_nil : mapNames p f [] = [] := rfl

/-- A separator in front is kept. -/
theorem mapNames_cons (hc : p c = true) (t : Text) : mapNames p f (c :: t) = c :: mapNames p f t := by
  rw [mapNames, if_pos hc]

/-- The first word. -/
theorem mapNames_append (hne : w ≠ []) (hw : Solid p w) (ht : Apart p t) :
    mapNames p f (w ++ t) = w ++ mapWords p f t := by
  obtain ⟨c, v, rfl⟩ := List.exists_cons_of_ne_nil hne
  have hc : p c = false := hw c List.mem_cons_self
  have hv : Solid p v := fun d hd => hw d (List.mem_cons_of_mem c hd)
  obtain ⟨htake, hdrop⟩ := append_inj_of_apart (solid_takeWhile (p := p) (v ++ t)) hv (apart_dropWhile (v ++ t)) ht
    List.takeWhile_append_dropWhile
  rw [List.cons_append, mapNames, hc, if_neg Bool.false_ne_true, htake, hdrop, List.cons_append]

/-- A separator behind the first word divides the change. -/
theorem mapNames_append_cons (hc : p c = true) (hs : wordsBy p s ≠ []) (t : Text) :
    mapNames p f (s ++ c :: t) = mapNames p f s ++ c :: mapWords p f t := by
  induction s using wordsInduction (p := p) with
  | nil => exact absurd rfl hs
  | sep d s hd ih =>
    rw [wordsBy_cons_sep hd] at hs
    rw [List.cons_append, mapNames_cons hd, ih hs, mapNames_cons hd, List.cons_append]
  | word w s hne hw hs' _ =>
    have hrest : Apart p (s ++ c :: t) := apart_append hs' (apart_cons.mpr hc)
    rw [List.append_assoc, mapNames_append hne hw hrest, mapWords_append_cons hc, mapNames_append hne hw hs',
      List.append_assoc]

/-- An ending that is kept in every word is the ending of the line. -/
theorem isSuffix_mapNames (hne : u ≠ []) (hu : Solid p u) (hf : ∀ w, u <:+ w → f w = w) (s : Text) :
    u <:+ mapNames p f (s ++ u) := by
  induction s using wordsInduction (p := p) with
  | nil =>
    have hword := mapNames_append (f := f) hne hu apart_nil
    rw [List.append_nil, mapWords_nil, List.append_nil] at hword
    rw [List.nil_append, hword]
  | sep c s hc ih =>
    rw [List.cons_append, mapNames_cons hc]
    exact ih.trans (List.suffix_cons c _)
  | word w s hw hsolid hs _ =>
    cases s with
    | nil =>
      have hboth : Solid p (w ++ u) := fun d hd => (List.mem_append.mp hd).elim (hsolid d) (hu d)
      have hword := mapNames_append (f := f) (List.append_ne_nil_of_left_ne_nil hw u) hboth apart_nil
      rw [List.append_nil, mapWords_nil, List.append_nil] at hword
      rw [List.append_nil, hword]
      exact List.suffix_append w u
    | cons c s =>
      have hrest : Apart p (c :: s ++ u) := apart_cons.mpr (apart_cons.mp hs)
      rw [List.append_assoc, mapNames_append hw hsolid hrest]
      exact (isSuffix_mapWords hne hu hf _).trans (List.suffix_append _ _)

/-- The separators are counted as before when words are mapped to words. -/
theorem countP_mapNames (hf : ∀ w ∈ (wordsBy p s).tail, Solid p (f w)) : (mapNames p f s).countP p = s.countP p := by
  induction s using wordsInduction (p := p) with
  | nil => rfl
  | sep c s hc ih =>
    rw [wordsBy_cons_sep hc] at hf
    rw [mapNames_cons hc, List.countP_cons, List.countP_cons, ih hf]
  | word w s hne hw hs _ =>
    rw [wordsBy_append hne hw hs] at hf
    rw [mapNames_append hne hw hs, List.countP_append, List.countP_append, countP_mapWords hf]

/-- Maps that agree on the names give the same line. -/
theorem mapNames_congr (h : ∀ w ∈ (wordsBy p s).tail, f w = g w) : mapNames p f s = mapNames p g s := by
  induction s using wordsInduction (p := p) with
  | nil => rfl
  | sep c s hc ih =>
    rw [wordsBy_cons_sep hc] at h
    rw [mapNames_cons hc, mapNames_cons hc, ih h]
  | word w s hne hw hs _ =>
    rw [wordsBy_append hne hw hs] at h
    rw [mapNames_append hne hw hs, mapNames_append hne hw hs, mapWords_congr h]

/-- The characters of the line are old ones, or of a new name. -/
theorem mem_mapNames (h : c ∈ mapNames p f s) : c ∈ s ∨ ∃ w ∈ (wordsBy p s).tail, c ∈ f w := by
  induction s using wordsInduction (p := p) with
  | nil => cases h
  | sep d s hd ih =>
    rw [mapNames_cons hd, List.mem_cons] at h
    rw [wordsBy_cons_sep hd]
    obtain rfl | h := h
    · exact .inl List.mem_cons_self
    · exact (ih h).imp_left (List.mem_cons_of_mem d)
  | word w s hne hw hs _ =>
    rw [mapNames_append hne hw hs, List.mem_append] at h
    rw [wordsBy_append hne hw hs]
    obtain h | h := h
    · exact .inl (List.mem_append_left s h)
    · exact (mem_mapWords h).imp_left (List.mem_append_right w)

/-- A line whose names are kept is kept. -/
theorem mapNames_eq_self (hf : ∀ w ∈ (wordsBy p s).tail, f w = w) : mapNames p f s = s := by
  induction s using wordsInduction (p := p) with
  | nil => rfl
  | sep c s hc ih =>
    rw [wordsBy_cons_sep hc] at hf
    rw [mapNames_cons hc, ih hf]
  | word w s hne hw hs _ =>
    rw [wordsBy_append hne hw hs] at hf
    rw [mapNames_append hne hw hs, mapWords_eq_self hf]

/-- **A change of every word is one of every word but the first** exactly when it keeps the first one, and changes
the others alike. -/
theorem mapWords_eq_mapNames_iff (hf : ∀ w ∈ wordsBy p s, Solid p (f w))
    (hg : ∀ w ∈ (wordsBy p s).tail, Solid p (g w)) : mapWords p f s = mapNames p g s ↔
      (∀ w ∈ (wordsBy p s).head?, f w = w) ∧ ∀ w ∈ (wordsBy p s).tail, f w = g w := by
  induction s using wordsInduction (p := p) with
  | nil => exact iff_of_true rfl ⟨nofun, nofun⟩
  | sep c s hc ih =>
    rw [wordsBy_cons_sep hc] at hf hg ⊢
    rw [mapWords_cons hc, mapNames_cons hc, List.cons_inj_right]
    exact ih hf hg
  | word w s hne hw hs _ =>
    rw [wordsBy_append hne hw hs] at hf hg ⊢
    have htail := fun x hx => hf x (List.mem_cons_of_mem w hx)
    rw [mapWords_append hw hs, mapNames_append hne hw hs, onWord_of_ne_nil hne, List.tail_cons,
      ← mapWords_eq_iff htail hg]
    constructor
    · intro h
      obtain ⟨hword, hrest⟩ := append_inj_of_apart (hf w List.mem_cons_self) hw (apart_mapWords hs)
        (apart_mapWords hs) h
      exact ⟨by simpa using hword, hrest⟩
    · rintro ⟨hword, hrest⟩
      rw [hword w rfl, hrest]

/-- **One change after the other**, of the words behind the first. -/
theorem mapNames_mapNames (hf : ∀ w ∈ (wordsBy p s).tail, Solid p (f w)) :
    mapNames p g (mapNames p f s) = mapNames p (fun w => onWord g (f w)) s := by
  induction s using wordsInduction (p := p) with
  | nil => rfl
  | sep c s hc ih =>
    rw [wordsBy_cons_sep hc] at hf
    rw [mapNames_cons hc, mapNames_cons hc, ih hf, mapNames_cons hc]
  | word w s hne hw hs _ =>
    rw [wordsBy_append hne hw hs] at hf
    rw [mapNames_append hne hw hs, mapNames_append hne hw (apart_mapWords hs), mapWords_mapWords hf,
      mapNames_append hne hw hs]

end Hosts
