import Agenda.Settings
import Mathlib.Data.List.Nodup

/-!
# Files that mean the defaults

When something in the settings file cannot be read, the log says that the defaults are used.  What
was read before stays all the same, and whatever is asked of the settings is answered from it.

**Which files mean the defaults** (`defaults_iff`).  A file, refused or not, is answered for as if
there were no file just when nothing is taken in from it: either the first line that counts is not a
header, which ends the reading at once, or no line of the file begins an option or a section other
than the one that is always there.  From every other file something is kept that can be asked for
(`Reader.Taken`), however the file goes on, and whether it is refused in the end or not
(`scrap_not_default`).

One lemma says what a line can do to the sections (`Reader.line_cases`); that nothing is lost again
(`Reader.Taken.line`) and that everything can be found (`Reader.Orderly.line`) follow from it.
-/

namespace Agenda.Settings

variable {cs : List Char} {ls : List (List Char)}

/-! ### Questions -/

/-- What is asked of settings.  Where something may be absent, the question has what counts
then. -/
inductive Question
  | database
  | log
  | text (name key : String) (fallback : Scalar)
  | flag (name key : String) (fallback : Bool)
  | whole (name key : String) (fallback : Int)
  | hasSection (name : String)
  | sections

/-- The form of the answer to a question. -/
abbrev Question.Reply : Question → Type
  | .database => OfDatabase
  | .log => OfLog
  | .text .. => Scalar
  | .flag .. => Bool
  | .whole .. => Int
  | .hasSection _ => Bool
  | .sections => List String

/-- Answers a question. -/
def ask (s : Settings) (e : Environment) : (q : Question) → Except Failure q.Reply
  | .database => s.database e
  | .log => s.log e
  | .text name key fallback => (s.get? name key).map fun v => (v.map Scalar.text).getD fallback
  | .flag name key fallback => (s.flag? name key).map (·.getD fallback)
  | .whole name key fallback => (s.whole? name key).map (·.getD fallback)
  | .hasSection name => .ok (s.ini.sectionNames.contains name)
  | .sections => .ok s.ini.sectionNames

/-- All answers come from the options, the names of the sections, and the home directory. -/
theorem ask_congr {s s' : Settings} (hhome : s.home = s'.home)
    (hget : ∀ name key, s.get? name key = s'.get? name key)
    (hnames : s.ini.sectionNames = s'.ini.sectionNames) (e : Environment) (q : Question) :
    s.ask e q = s'.ask e q := by
  have hflag : ∀ name key, s.flag? name key = s'.flag? name key := by
    intro name key
    simp only [flag?, getAs?, hget]
  have hwhole : ∀ name key, s.whole? name key = s'.whole? name key := by
    intro name key
    simp only [whole?, getAs?, hget]
  cases q with
  | database => simp only [ask, database, flagOf, textOf, hflag, hget, hhome]
  | log => simp only [ask, log, flagOf, textOf, hflag, hget]
  | text name key fallback => simp only [ask, hget]
  | flag name key fallback => simp only [ask, hflag]
  | whole name key fallback => simp only [ask, hwhole]
  | hasSection name => simp only [ask, hnames]
  | sections => simp only [ask, hnames]

/-! ### Lines -/

namespace Ini

/-- A line without the blanks at its ends. -/
def body (cs : List Char) : List Char := Text.stripEnds Text.isBlank cs

/-- A line that says nothing: it is blank, or a remark. -/
def IsIdle (cs : List Char) : Prop := ∀ c ∈ (body cs).head?, c = '#' ∨ c = ';'

/-- A line that is no header. -/
def NoHeader (cs : List Char) : Prop := Reader.header? (body cs) = none

/-- A line that takes up the section that is always there. -/
def Resumes (cs : List Char) : Prop := Reader.header? (body cs) = some defaultSection

/-- A line that is neither a header nor an option. -/
def IsStray (cs : List Char) : Prop := NoHeader cs ∧ Reader.option? (body cs) = none

/-- Lines from which nothing is taken in.  The first one that counts is no header; or none of them
begins an option, or a section other than the one that is always there. -/
def Barren (ls : List (List Char)) : Prop :=
  (∃ front cs back, ls = front ++ cs :: back ∧ (∀ l ∈ front, IsIdle l) ∧ ¬ IsIdle cs ∧
    NoHeader cs) ∨ ∀ l ∈ ls, IsIdle l ∨ Resumes l ∨ IsStray l

/-- A header says something. -/
theorem not_isIdle_of_header {name : String} (h : Reader.header? (body cs) = some name) :
    ¬ IsIdle cs := by
  intro hidle
  unfold IsIdle at hidle
  generalize body cs = b at h hidle
  unfold Reader.header? at h
  split at h
  · rcases hidle '[' rfl with hc | hc
    · exact absurd hc (by decide)
    · exact absurd hc (by decide)
  · cases h

/-- A line that says nothing changes nothing at the front. -/
theorem barren_cons_of_isIdle (h : IsIdle cs) : Barren (cs :: ls) ↔ Barren ls := by
  constructor
  · rintro (⟨front, l, back, hsplit, hfront, hl, hno⟩ | hall)
    · cases front with
      | nil =>
        obtain ⟨rfl, -⟩ := List.cons.inj hsplit
        exact absurd h hl
      | cons _ front =>
        obtain ⟨-, rfl⟩ := List.cons.inj hsplit
        exact .inl ⟨front, l, back, rfl, fun x hx => hfront x (List.mem_cons_of_mem _ hx), hl, hno⟩
    · exact .inr fun l hl => hall l (List.mem_cons_of_mem _ hl)
  · rintro (⟨front, l, back, rfl, hfront, hl, hno⟩ | hall)
    · exact .inl ⟨cs :: front, l, back, rfl, List.forall_mem_cons.2 ⟨h, hfront⟩, hl, hno⟩
    · exact .inr (List.forall_mem_cons.2 ⟨.inl h, hall⟩)

/-- Behind a header, only the second way is left. -/
theorem barren_cons_of_header {name : String} (h : Reader.header? (body cs) = some name) :
    Barren (cs :: ls) ↔
      name = defaultSection ∧ ∀ l ∈ ls, IsIdle l ∨ Resumes l ∨ IsStray l := by
  have hcounts : ¬ IsIdle cs := not_isIdle_of_header h
  constructor
  · rintro (⟨front, l, back, hsplit, hfront, hl, hno⟩ | hall)
    · cases front with
      | nil =>
        obtain ⟨rfl, -⟩ := List.cons.inj hsplit
        unfold NoHeader at hno
        rw [h] at hno
        cases hno
      | cons x front =>
        obtain ⟨rfl, -⟩ := List.cons.inj hsplit
        exact absurd (hfront cs List.mem_cons_self) hcounts
    · obtain ⟨hfirst, hrest⟩ := List.forall_mem_cons.1 hall
      refine ⟨?_, hrest⟩
      rcases hfirst with hidle | hresumes | hstray
      · exact absurd hidle hcounts
      · unfold Resumes at hresumes
        rw [h] at hresumes
        exact Option.some.inj hresumes
      · have hno : Reader.header? (body cs) = none := hstray.1
        rw [h] at hno
        cases hno
  · rintro ⟨rfl, hrest⟩
    exact .inr (List.forall_mem_cons.2 ⟨.inr (.inl h), hrest⟩)

end Ini

/-! ### What a line does -/

namespace Reader

open Ini

variable {r r' : Reader}

/-- A line that is not part of a value begins a section that is new, or an option, or it leaves the
sections as they are. -/
theorem beginLine_cases {b : List Char} (h : r.beginLine b = some r') :
    r'.sections = r.sections ∨
      (∃ name, name ∉ r.sections.map (·.name) ∧ r'.sections = r.sections ++ [⟨name, []⟩]) ∨
      ∃ word value,
        r'.sections = (r.change (· ++ [(Text.toLower word, [value])])).sections := by
  unfold beginLine at h
  split at h
  · rename_i name _
    unfold beginSection at h
    dsimp only at h
    split_ifs at h with hdefault hthere
    · obtain rfl := Option.some.inj h
      exact .inl rfl
    · obtain rfl := Option.some.inj h
      refine .inr (.inl ⟨name, ?_, rfl⟩)
      simpa using hthere
  · cases h
  · split at h
    · rename_i key value hoption
      unfold beginOption at h
      dsimp only at h
      split_ifs at h with hthere
      obtain rfl := Option.some.inj h
      obtain ⟨word, rfl⟩ : ∃ word, key = Text.toLower word := by
        unfold option? at hoption
        dsimp only at hoption
        split at hoption
        · cases hoption
        · exact ⟨_, (congrArg Prod.fst (Option.some.inj hoption)).symm⟩
      exact .inr (.inr ⟨word, value, rfl⟩)
    · obtain rfl := Option.some.inj h
      exact .inl rfl

/-- The ways in which reading a line changes the sections: not at all, by one more line of a value,
by a new section, or by a new option. -/
theorem line_cases (h : r.line cs = some r') :
    r'.sections = r.sections ∨
      (∃ text, r'.sections = (r.addLine text).sections) ∨
      (∃ name, name ∉ r.sections.map (·.name) ∧ r'.sections = r.sections ++ [⟨name, []⟩]) ∨
      ∃ word value,
        r'.sections = (r.change (· ++ [(Text.toLower word, [value])])).sections := by
  unfold line at h
  dsimp only at h
  split at h
  · obtain rfl := Option.some.inj h
    split_ifs
    · exact .inr (.inl ⟨"", rfl⟩)
    · exact .inl rfl
  · obtain rfl := Option.some.inj h
    exact .inl rfl
  · obtain rfl := Option.some.inj h
    exact .inl rfl
  · split_ifs at h
    · obtain rfl := Option.some.inj h
      exact .inr (.inl ⟨_, rfl⟩)
    · exact (beginLine_cases h).imp_right .inr

/-- Something has been taken in: a section other than the one that is always there, or an option. -/
def Taken (r : Reader) : Prop := ∃ s ∈ r.sections, s.name ≠ defaultSection ∨ s.options ≠ []

theorem Taken.congr (h : r.Taken) (hsections : r'.sections = r.sections) : r'.Taken := by
  obtain ⟨s, hs, hkept⟩ := h
  exact ⟨s, hsections ▸ hs, hkept⟩

theorem Taken.change (h : r.Taken) {f : List (String × List String) → List (String × List String)}
    (hf : ∀ options, options ≠ [] → f options ≠ []) : (r.change f).Taken := by
  obtain ⟨s, hs, hkept⟩ := h
  refine ⟨_, List.mem_map_of_mem hs, ?_⟩
  split
  · exact hkept.imp_right (hf s.options)
  · exact hkept

/-- What has been taken in is not lost by a line. -/
theorem Taken.line (h : r.Taken) (hline : r.line cs = some r') : r'.Taken := by
  rcases line_cases hline with hsame | ⟨text, hadd⟩ | ⟨name, -, hsection⟩ | ⟨word, value, hoption⟩
  · exact h.congr hsame
  · refine (h.change fun options hne => ?_).congr hadd
    simpa using hne
  · obtain ⟨s, hs, hkept⟩ := h
    exact ⟨s, hsection ▸ List.mem_append_left _ hs, hkept⟩
  · refine (h.change fun options _ => ?_).congr hoption
    simp

/-- Nor by the rest of the file. -/
theorem Taken.lines (h : r.Taken) (ls : List (List Char)) : (r.lines ls).Taken := by
  induction ls generalizing r with
  | nil => exact h
  | cons cs rest ih =>
    rw [Reader.lines]
    split
    · rename_i r' hline
      exact ih (h.line hline)
    · exact h

/-- What makes everything findable: no name comes twice, and all keys are in lower case. -/
structure Orderly (r : Reader) : Prop where
  names : (r.sections.map (·.name)).Nodup
  keys : ∀ s ∈ r.sections, ∀ o ∈ s.options, ∃ word, o.1 = Text.toLower word

theorem Orderly.congr (h : r.Orderly) (hsections : r'.sections = r.sections) : r'.Orderly :=
  ⟨hsections ▸ h.names, hsections ▸ h.keys⟩

theorem Orderly.change (h : r.Orderly)
    {f : List (String × List String) → List (String × List String)}
    (hf : ∀ options, (∀ o ∈ options, ∃ word, o.1 = Text.toLower word) →
      ∀ o ∈ f options, ∃ word, o.1 = Text.toLower word) : (r.change f).Orderly := by
  constructor
  · have hnames : (r.change f).sections.map (·.name) = r.sections.map (·.name) := by
      simp only [Reader.change, List.map_map]
      refine List.map_congr_left fun s _ => ?_
      dsimp only [Function.comp_apply]
      split <;> rfl
    rw [hnames]
    exact h.names
  · intro s' hs'
    obtain ⟨s, hs, rfl⟩ := List.mem_map.1 hs'
    split
    · exact hf s.options (h.keys s hs)
    · exact h.keys s hs

theorem Orderly.line (h : r.Orderly) (hline : r.line cs = some r') : r'.Orderly := by
  rcases line_cases hline with
    hsame | ⟨text, hadd⟩ | ⟨name, hnew, hsection⟩ | ⟨word, value, hoption⟩
  · exact h.congr hsame
  · refine (h.change fun options hkeys o ho => ?_).congr hadd
    obtain ⟨o₁, ho₁, rfl⟩ := List.mem_map.1 ho
    dsimp only
    split
    · exact hkeys o₁ ho₁
    · exact hkeys o₁ ho₁
  · constructor
    · rw [hsection, List.map_append]
      exact h.names.append (List.nodup_singleton _) (by simpa using hnew)
    · intro s hs
      rw [hsection] at hs
      rcases List.mem_append.1 hs with hs | hs
      · exact h.keys s hs
      · rw [List.mem_singleton.1 hs]
        exact fun o ho => nomatch ho
  · refine (h.change fun options hkeys o ho => ?_).congr hoption
    rcases List.mem_append.1 ho with ho | ho
    · exact hkeys o ho
    · exact ⟨word, by rw [List.mem_singleton.1 ho]⟩

theorem Orderly.lines (h : r.Orderly) (ls : List (List Char)) : (r.lines ls).Orderly := by
  induction ls generalizing r with
  | nil => exact h
  | cons cs rest ih =>
    rw [Reader.lines]
    split
    · rename_i r' hline
      exact ih (h.line hline)
    · exact h.congr rfl

/-! ### Nothing taken in -/

/-- A reader that has taken in nothing and is not in a value, in some section or outside of all. -/
structure Vacant (r : Reader) (current : Option String) : Prop where
  sections : r.sections = [⟨defaultSection, []⟩]
  current : r.current = current
  key : r.key = ""

namespace Vacant

variable {current : Option String}

theorem start : Reader.start.Vacant none := ⟨rfl, rfl, rfl⟩

theorem orderly (h : r.Vacant current) : r.Orderly := by
  constructor
  · rw [h.sections]
    exact List.nodup_singleton _
  · intro s hs
    rw [h.sections, List.mem_singleton] at hs
    subst hs
    exact fun o ho => nomatch ho

theorem not_taken (h : r.Vacant current) : ¬ r.Taken := by
  rintro ⟨s, hs, hkept⟩
  rw [h.sections, List.mem_singleton] at hs
  subst hs
  rcases hkept with hname | hoptions
  · exact hname rfl
  · exact hoptions rfl

theorem inValue (h : r.Vacant current) : r.inValue = false := by
  simp [Reader.inValue, h.key]

theorem line_of_isIdle (h : r.Vacant current) (hidle : IsIdle cs) : r.line cs = some r := by
  unfold IsIdle body at hidle
  unfold Reader.line
  dsimp only
  generalize Text.stripEnds Text.isBlank cs = b at hidle
  cases b with
  | nil => simp [h.inValue]
  | cons c rest =>
    rcases hidle c rfl with rfl | rfl
    · rfl
    · rfl

/-- Outside of values, a line that says something begins something. -/
theorem line_of_not_isIdle (h : r.Vacant current) (hcounts : ¬ IsIdle cs) :
    ∃ r₁ : Reader, r₁.Vacant current ∧ r.line cs = r₁.beginLine (body cs) := by
  refine ⟨{ r with indent := (cs.takeWhile Text.isBlank).length },
    ⟨h.sections, h.current, h.key⟩, ?_⟩
  unfold IsIdle body at hcounts
  unfold Reader.line body
  dsimp only
  generalize Text.stripEnds Text.isBlank cs = b at hcounts
  split
  · exact absurd (fun c hc => nomatch hc) hcounts
  · refine absurd (fun c hc => ?_) hcounts
    exact .inl (Option.some.inj hc).symm
  · refine absurd (fun c hc => ?_) hcounts
    exact .inr (Option.some.inj hc).symm
  · simp [h.inValue]

theorem line_of_resumes (h : r.Vacant current) (hline : Resumes cs) :
    ∃ r', r.line cs = some r' ∧ r'.Vacant (some defaultSection) := by
  obtain ⟨r₁, h₁, hbegin⟩ := h.line_of_not_isIdle (not_isIdle_of_header hline)
  have hheader : header? (body cs) = some defaultSection := hline
  refine ⟨{ r₁ with current := some defaultSection, key := "" }, ?_, ⟨h₁.sections, rfl, rfl⟩⟩
  rw [hbegin, beginLine, hheader]
  show r₁.beginSection defaultSection = _
  rw [beginSection, if_pos rfl]

theorem line_of_section (h : r.Vacant current) {name : String}
    (hheader : header? (body cs) = some name) (hname : name ≠ defaultSection) :
    ∃ r', r.line cs = some r' ∧ r'.Taken := by
  obtain ⟨r₁, h₁, hbegin⟩ := h.line_of_not_isIdle (not_isIdle_of_header hheader)
  have hnew : r₁.sections.any (·.name = name) = false := by
    rw [h₁.sections]
    simpa using Ne.symm hname
  rw [hbegin, beginLine, hheader]
  simp only [beginSection, if_neg hname, hnew, Bool.false_eq_true, if_false]
  refine ⟨_, rfl, ⟨name, []⟩, ?_, .inl hname⟩
  exact List.mem_append_right _ (List.mem_singleton.2 rfl)

theorem line_outside (h : r.Vacant none) (hcounts : ¬ IsIdle cs) (hno : NoHeader cs) :
    r.line cs = none := by
  obtain ⟨r₁, h₁, hbegin⟩ := h.line_of_not_isIdle hcounts
  have hheader : header? (body cs) = none := hno
  rw [hbegin, beginLine, hheader, h₁.current]

theorem line_of_isStray (h : r.Vacant (some defaultSection)) (hcounts : ¬ IsIdle cs)
    (hstray : IsStray cs) : ∃ r', r.line cs = some r' ∧ r'.Vacant (some defaultSection) := by
  obtain ⟨r₁, h₁, hbegin⟩ := h.line_of_not_isIdle hcounts
  have hheader : header? (body cs) = none := hstray.1
  refine ⟨{ r₁ with faulty := true }, ?_, ⟨h₁.sections, h₁.current, h₁.key⟩⟩
  rw [hbegin]
  unfold beginLine
  simp only [hheader, h₁.current, hstray.2]

theorem line_of_option (h : r.Vacant (some defaultSection)) (hcounts : ¬ IsIdle cs)
    (hno : NoHeader cs) {key value : String} (hoption : option? (body cs) = some (key, value)) :
    ∃ r', r.line cs = some r' ∧ r'.Taken := by
  obtain ⟨r₁, h₁, hbegin⟩ := h.line_of_not_isIdle hcounts
  have hheader : header? (body cs) = none := hno
  have hempty : r₁.optionsOf defaultSection = [] := by
    simp [optionsOf, h₁.sections]
  rw [hbegin, beginLine, hheader, h₁.current]
  dsimp only
  rw [hoption]
  dsimp only
  rw [beginOption, hempty]
  refine ⟨_, rfl, ⟨defaultSection, [(key, [value])]⟩, ?_, .inr (List.cons_ne_nil _ _)⟩
  simp [Reader.change, h₁.sections, h₁.current]

/-- In the section that is always there. -/
theorem lines_inside (h : r.Vacant (some defaultSection)) :
    ¬ (r.lines ls).Taken ↔ ∀ l ∈ ls, IsIdle l ∨ Resumes l ∨ IsStray l := by
  induction ls generalizing r with
  | nil => exact iff_of_true h.not_taken fun l hl => nomatch hl
  | cons cs rest ih =>
    rw [Reader.lines, List.forall_mem_cons]
    by_cases hidle : IsIdle cs
    · rw [h.line_of_isIdle hidle]
      exact (ih h).trans (and_iff_right (.inl hidle)).symm
    cases hheader : header? (body cs) with
    | some name =>
      by_cases hname : name = defaultSection
      · subst hname
        obtain ⟨r', hline, hr'⟩ := h.line_of_resumes hheader
        rw [hline]
        exact (ih hr').trans (and_iff_right (.inr (.inl hheader))).symm
      · obtain ⟨r', hline, hr'⟩ := h.line_of_section hheader hname
        rw [hline]
        refine iff_of_false (fun hno => hno (hr'.lines rest)) ?_
        rintro ⟨hfirst | hfirst | hfirst, -⟩
        · exact hidle hfirst
        · exact hname (Option.some.inj (hheader.symm.trans hfirst))
        · exact nomatch hheader.symm.trans hfirst.1
    | none =>
      cases hoption : option? (body cs) with
      | none =>
        obtain ⟨r', hline, hr'⟩ := h.line_of_isStray hidle ⟨hheader, hoption⟩
        rw [hline]
        exact (ih hr').trans (and_iff_right (.inr (.inr ⟨hheader, hoption⟩))).symm
      | some option =>
        obtain ⟨r', hline, hr'⟩ := h.line_of_option hidle hheader hoption
        rw [hline]
        refine iff_of_false (fun hno => hno (hr'.lines rest)) ?_
        rintro ⟨hfirst | hfirst | hfirst, -⟩
        · exact hidle hfirst
        · exact nomatch hheader.symm.trans hfirst
        · exact nomatch hoption.symm.trans hfirst.2

/-- From the start of a file. -/
theorem lines_outside (h : r.Vacant none) : ¬ (r.lines ls).Taken ↔ Barren ls := by
  induction ls with
  | nil => exact iff_of_true h.not_taken (.inr fun l hl => nomatch hl)
  | cons cs rest ih =>
    rw [Reader.lines]
    by_cases hidle : IsIdle cs
    · rw [h.line_of_isIdle hidle]
      exact ih.trans (barren_cons_of_isIdle hidle).symm
    cases hheader : header? (body cs) with
    | some name =>
      rw [barren_cons_of_header hheader]
      by_cases hname : name = defaultSection
      · subst hname
        obtain ⟨r', hline, hr'⟩ := h.line_of_resumes hheader
        rw [hline]
        exact hr'.lines_inside.trans (and_iff_right rfl).symm
      · obtain ⟨r', hline, hr'⟩ := h.line_of_section hheader hname
        rw [hline]
        exact iff_of_false (fun hno => hno (hr'.lines rest)) fun hbarren => hname hbarren.1
    | none =>
      -- the reading ends here, with nothing taken in
      rw [h.line_outside hidle hheader]
      have hfront : ∀ l ∈ ([] : List (List Char)), IsIdle l := fun l hl => nomatch hl
      exact iff_of_true h.not_taken (.inl ⟨[], cs, rest, rfl, hfront, hidle, hheader⟩)

end Vacant

end Reader

/-! ### Answers -/

/-- Where no section has an option, no option has a value. -/
theorem Ini.raw?_eq_none {ini : Ini} (h : ∀ s ∈ ini.sections, s.options = []) (name key : String) :
    ini.raw? name key = none := by
  have hnone : ∀ name, ((ini.options? name).getD []).lookup key = none := by
    intro name
    unfold Ini.options?
    cases hfind : ini.sections.find? (·.name = name) with
    | none => rfl
    | some s =>
      have hs : s.options = [] := h s (List.mem_of_find?_eq_some hfind)
      simp [hs]
  unfold Ini.raw?
  cases hown : ini.options? name with
  | none => rfl
  | some own =>
    have hlookup := hnone name
    rw [hown] at hlookup
    show (own.lookup key).or _ = none
    rw [show own.lookup key = none from hlookup, hnone defaultSection]
    rfl

theorem Ini.get?_eq_none_iff {ini : Ini} {name key : String} :
    ini.get? name key = .ok none ↔ ini.raw? name (Text.toLower key) = none := by
  unfold Ini.get?
  cases ini.raw? name (Text.toLower key) with
  | none => exact iff_of_true rfl rfl
  | some text =>
    refine iff_of_false (fun h => ?_) (Option.some_ne_none text)
    dsimp only at h
    split at h
    · cases h
    · cases hvalue : Reference.expand (ini.raw? name) text with
      | ok value =>
        rw [hvalue] at h
        cases h
      | error e =>
        rw [hvalue] at h
        cases h

/-- A section is found by its name if no other has that name. -/
theorem Ini.options?_of_mem {ini : Ini} (hnames : (ini.sections.map (·.name)).Nodup)
    {s : Section} (hs : s ∈ ini.sections) : ini.options? s.name = some s.options := by
  unfold Ini.options?
  cases hfind : ini.sections.find? (·.name = s.name) with
  | none =>
    have hno := List.find?_eq_none.1 hfind s hs
    simp at hno
  | some s' =>
    have hname : s'.name = s.name := by simpa using List.find?_some hfind
    have hsame := List.inj_on_of_nodup_map hnames (List.mem_of_find?_eq_some hfind) hs hname
    simp [hsame]

/-- The values of a file that was not read to its end cannot be used. -/
theorem Ini.get?_ne_some_of_brokenOff {ini : Ini} (h : ini.brokenOff = true)
    (name key value : String) : ini.get? name key ≠ .ok (some value) := by
  unfold Ini.get?
  cases ini.raw? name (Text.toLower key) with
  | none => exact fun hvalue => nomatch hvalue
  | some text =>
    dsimp only
    rw [if_pos h]
    exact fun hvalue => nomatch hvalue

namespace Reader

variable {r : Reader}

/-- The sections of a file once the values are put together from their lines. -/
def closed (r : Reader) : List Section :=
  r.sections.map fun d => ⟨d.name, d.options.map fun (key, lines) => (key, Ini.joinLines lines)⟩

theorem map_name_closed (r : Reader) : r.closed.map (·.name) = r.sections.map (·.name) := by
  unfold closed
  rw [List.map_map]
  rfl

/-- Where nothing has been taken in, every option is absent, and there are no sections to name. -/
theorem absent_of_not_taken (h : ¬ r.Taken) {ini : Ini} (hini : ini.sections = r.closed) :
    (∀ name key, ini.get? name key = .ok none) ∧ ini.sectionNames = [] := by
  have hnone : ∀ s ∈ r.sections, s.name = defaultSection ∧ s.options = [] := by
    intro s hs
    by_contra hno
    exact h ⟨s, hs, not_and_or.1 hno⟩
  constructor
  · intro name key
    refine Ini.get?_eq_none_iff.2 (Ini.raw?_eq_none (fun s' hs' => ?_) _ _)
    rw [hini] at hs'
    obtain ⟨s, hs, rfl⟩ := List.mem_map.1 hs'
    simp [(hnone s hs).2]
  · unfold Ini.sectionNames
    rw [hini, map_name_closed, List.filter_eq_nil_iff]
    intro name hname
    obtain ⟨s, hs, rfl⟩ := List.mem_map.1 hname
    simp [(hnone s hs).1]

/-- Whatever has been taken in is a section that is named, or an option that is not absent. -/
theorem Taken.present (h : r.Taken) (horderly : r.Orderly) {ini : Ini}
    (hini : ini.sections = r.closed) :
    (∃ key, ini.get? defaultSection key ≠ .ok none) ∨ ini.sectionNames ≠ [] := by
  obtain ⟨s, hs, hkept⟩ := h
  have hmem : (⟨s.name, s.options.map fun (key, lines) => (key, Ini.joinLines lines)⟩ : Section) ∈
      ini.sections := by
    rw [hini]
    exact List.mem_map_of_mem hs
  by_cases hname : s.name = defaultSection
  · left
    have hoptions : s.options ≠ [] := hkept.resolve_left fun hne => hne hname
    obtain ⟨o, rest, hcons⟩ := List.exists_cons_of_ne_nil hoptions
    obtain ⟨word, hword⟩ := horderly.keys s hs o (hcons ▸ List.mem_cons_self)
    refine ⟨word, fun hnone => ?_⟩
    -- the only section of the name is found, and its first option with it
    have hnames : (ini.sections.map (·.name)).Nodup := by
      rw [hini, map_name_closed]
      exact horderly.names
    have hown := Ini.options?_of_mem hnames hmem
    have hraw := Ini.get?_eq_none_iff.1 hnone
    unfold Ini.raw? at hraw
    rw [← hname, hown] at hraw
    simp [hcons, hword] at hraw
  · right
    intro hnil
    have hnamed : s.name ∈ ini.sectionNames := by
      unfold Ini.sectionNames
      rw [List.mem_filter]
      exact ⟨List.mem_map_of_mem hmem, by simpa using hname⟩
    rw [hnil] at hnamed
    cases hnamed

end Reader

/-- Without a file every option is absent. -/
theorem get?_load_none (home name key : String) : (load home none).get? name key = .ok none := by
  have hempty : ∀ s ∈ Ini.empty.sections, s.options = [] := by decide
  exact Ini.get?_eq_none_iff.2 (Ini.raw?_eq_none hempty name _)

/-- An option is absent if the answer is what counts then, for lack of a value. -/
theorem ask_text_absent_iff {s : Settings} {e : Environment} {name key : String} :
    s.ask e (.text name key .absent) = .ok .absent ↔ s.get? name key = .ok none := by
  show (s.get? name key).map _ = _ ↔ _
  rcases s.get? name key with failure | (_ | value)
  · exact iff_of_false (fun h => nomatch h) fun h => nomatch h
  · exact iff_of_true rfl rfl
  · exact iff_of_false (fun h => nomatch h) fun h => nomatch h

/-- **Files that mean the defaults.**  Whatever the variables, everything that is asked of a file is
answered as if there were no file just when nothing is taken in from its lines, be it refused or
not.  If it is refused before its end, no option that was taken in can be used; this second part is
about the parser before release 3.11.10 only (`Ini.brokenOff`). -/
theorem defaults_iff (home text : String) (e : Environment) :
    ((∀ q, (load home (some text)).ask e q = (load home none).ask e q) ↔
      Ini.Barren (Ini.splitLines text.toList)) ∧
    ((load home (some text)).ini.brokenOff = true →
      ∀ name key value, (load home (some text)).get? name key ≠ .ok (some value)) := by
  have hini : (load home (some text)).ini.sections =
      (Reader.start.lines (Ini.splitLines text.toList)).closed := rfl
  have horderly := Reader.Vacant.start.orderly.lines (Ini.splitLines text.toList)
  refine ⟨?_, Ini.get?_ne_some_of_brokenOff⟩
  rw [← Reader.Vacant.start.lines_outside]
  constructor
  · intro hsame htaken
    rcases htaken.present horderly hini with ⟨key, hpresent⟩ | hnames
    · have hanswer := hsame (.text defaultSection key .absent)
      rw [ask_text_absent_iff.2 (get?_load_none home defaultSection key)] at hanswer
      exact hpresent (ask_text_absent_iff.1 hanswer)
    · exact hnames (Except.ok.inj (hsame .sections))
  · intro hnothing
    obtain ⟨hget, hnames⟩ := Reader.absent_of_not_taken hnothing hini
    have hoptions : ∀ name key,
        (load home (some text)).get? name key = (load home none).get? name key := by
      intro name key
      rw [get?_load_none]
      exact hget name key
    have hdefaults : (load home none).ini.sectionNames = [] := rfl
    refine ask_congr ?_ hoptions (hnames.trans hdefaults.symm) e
    rfl

/-- A file with a line that is neither a header nor an option. -/
def scrap : String := "[database]\necho = yes\nscrap\n"

/-- The file is refused, and its option counts all the same. -/
theorem scrap_not_default :
    (load "/home/ada" (some scrap)).failed = true ∧
      (load "/home/ada" (some scrap)).ask [] .database =
        .ok ⟨"sqlite+aiosqlite:////home/ada/.tasktree/tasktree.db", true⟩ ∧
      (load "/home/ada" none).ask [] .database =
        .ok ⟨"sqlite+aiosqlite:////home/ada/.tasktree/tasktree.db", false⟩ := by
  have hini : Ini.ofText scrap =
      ⟨[⟨"DEFAULT", []⟩, ⟨"database", [("echo", "yes")]⟩], true, false⟩ := by decide +kernel
  have hhome : defaultUrl "/home/ada" = "sqlite+aiosqlite:////home/ada/.tasktree/tasktree.db" := by
    decide +kernel
  have hplain : ∀ value?, Reference.expand value? "yes" = .ok "yes" := by
    intro value?
    simp [Reference.expand, Reference.expandTo, Reference.maxDepth, Reference.replace]
    rfl
  have hecho : (load "/home/ada" (some scrap)).get? "database" "echo" = .ok (some "yes") := by
    have hkey : Text.toLower "echo" = "echo" := by decide +kernel
    show (Ini.ofText scrap).get? "database" "echo" = _
    rw [hini, Ini.get?, hkey]
    show (Reference.expand _ "yes").map some = _
    rw [hplain]
    rfl
  have hurl : (load "/home/ada" (some scrap)).get? "database" "url" = .ok none := by
    have hkey : Text.toLower "url" = "url" := by decide +kernel
    show (Ini.ofText scrap).get? "database" "url" = _
    rw [hini, Ini.get?, hkey]
    rfl
  have hyes : readFlag "yes" = .ok true := by
    have hword : Text.toLower "yes" = "yes" := by decide +kernel
    rw [readFlag, hword]
    rfl
  refine ⟨?_, ?_, ?_⟩
  · show (Ini.ofText scrap).faulty = true
    rw [hini]
  · have hflag : (load "/home/ada" (some scrap)).flag? "database" "echo" = .ok (some true) := by
      unfold flag? getAs?
      rw [hecho]
      show (readFlag "yes" >>= fun b => pure (some b)) = _
      rw [hyes]
      rfl
    unfold ask database flagOf textOf
    rw [hflag, hurl, ← hhome]
    rfl
  · have hflag : (load "/home/ada" none).flag? "database" "echo" = .ok none := by
      unfold flag? getAs?
      rw [get?_load_none]
      rfl
    unfold ask database flagOf textOf
    rw [hflag, get?_load_none, ← hhome]
    rfl

end Agenda.Settings
