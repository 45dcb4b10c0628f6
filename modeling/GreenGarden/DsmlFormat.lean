/-
GreenGarden/DsmlFormat.lean

The documented form of leaked tool calls (the docstring of
`features/chat/dsml.py`), written out with whatever bars and whitespace the
patterns allow, and what the patterns make of its tags.

A tag is read in one way only: bars, whitespace and letters exclude each other,
and a name ends at its quote (`run_opening`, `run_closing`).  The pattern of one
tag fails on every other.
-/
import GreenGarden.Dsml

namespace GreenGarden

open Pattern

namespace Dsml

/-! ### The format -/

/-- Whitespace where some is allowed. -/
abbrev Blank := {s : Text // ∀ c ∈ s, isSpace c = true}

/-- Whitespace where some is needed. -/
abbrev Gap := {s : Text // s ≠ [] ∧ ∀ c ∈ s, isSpace c = true}

/-- ASCII or full-width bars, at least one. -/
abbrev Bars := {s : Text // s ≠ [] ∧ ∀ c ∈ s, isBar c = true}

/-- `｜DSML｜`. -/
structure Lead where
  first : Bars
  afterFirst : Blank
  beforeSecond : Blank
  second : Bars
  afterSecond : Blank

/-- The lead as it is written. -/
def Lead.text (lead : Lead) : Text :=
  lead.first ++ (lead.afterFirst ++ ("DSML".toList ++ (lead.beforeSecond ++
    (lead.second ++ lead.afterSecond))))

/-- `<｜DSML｜tag name="..."`. -/
structure Opening where
  before : Blank
  lead : Lead
  gap : Gap
  name : Text
  name_clean : ∀ c ∈ name, c ≠ '"' ∧ c ≠ '<'

/-- The opening tag up to the end of its name. -/
def Opening.text (tag : Text) (opening : Opening) : Text :=
  '<' :: (opening.before ++ (opening.lead.text ++ (tag ++ (opening.gap ++
    ("name=\"".toList ++ (opening.name ++ ['"']))))))

/-- The trimmed name. -/
def Opening.key (opening : Opening) : Text := strip opening.name

/-- `</｜DSML｜tag>`. -/
structure Closing where
  before : Blank
  afterSlash : Blank
  lead : Lead
  behind : Blank

/-- A closing tag without its last bracket. -/
def Closing.open (tag : Text) (closing : Closing) : Text :=
  '<' :: (closing.before ++ ('/' :: (closing.afterSlash ++ (closing.lead.text ++
    (tag ++ closing.behind)))))

/-- The closing tag. -/
def Closing.text (tag : Text) (closing : Closing) : Text := closing.open tag ++ ['>']

/-- A value of a parameter: a string without an attribute or with `string="true"`, or JSON with
`string="false"`. -/
inductive Value where
  | plain (front back : Blank) (s : Text)
  | string (gap : Gap) (front back : Blank) (s : Text)
  | json (gap : Gap) (text : Text) (v : Json)

namespace Value

/-- The value of the attribute `string`. -/
def isString : Value → Option Text
  | plain .. => none
  | string .. => some "true".toList
  | json .. => some "false".toList

/-- The attribute as it is written. -/
def attributeText : Value → Text
  | plain .. => []
  | string gap .. => gap ++ ("string=\"".toList ++ ("true".toList ++ ['"']))
  | json gap .. => gap ++ ("string=\"".toList ++ ("false".toList ++ ['"']))

/-- What stands between the tags. -/
def raw : Value → Text
  | plain front back s => front ++ (s ++ back)
  | string _ front back s => front ++ (s ++ back)
  | json _ text _ => text

/-- What it stands for. -/
def value : Value → Json
  | plain _ _ s => .string s
  | string _ _ _ s => .string s
  | json _ _ v => v

/-- Strings are trimmed, JSON has no floats and is what its text is read as, and there is no
opening bracket. -/
def Good (py : Python) : Value → Prop
  | plain _ _ s => strip s = s ∧ '<' ∉ s
  | string _ _ _ s => strip s = s ∧ '<' ∉ s
  | json _ text v => '<' ∉ text ∧ Json.loads py.decodeLimit text = .ok v ∧ v.FloatFree

end Value

/-- One parameter, from its opening tag to its closing tag. -/
structure Parameter where
  opening : Opening
  value : Value
  behind : Blank
  closing : Closing

namespace Parameter

/-- The tag and the value. -/
def head (p : Parameter) : Text :=
  p.opening.text "parameter".toList ++ (p.value.attributeText ++ (p.behind ++ ('>' :: p.value.raw)))

/-- The parameter as it is written. -/
def text (p : Parameter) : Text := p.head ++ p.closing.text "parameter".toList

/-- The key and the value in the arguments. -/
def entry (p : Parameter) : Text × Json := (p.opening.key, p.value.value)

end Parameter

/-- One call with its parameters. -/
structure Invocation where
  opening : Opening
  behind : Blank
  inner : Blank
  parameters : List (Parameter × Blank)
  closing : Closing

namespace Invocation

/-- The opening tag. -/
def head (inv : Invocation) : Text :=
  inv.opening.text "invoke".toList ++ (inv.behind ++ ['>'])

/-- Parameters, each with what stands behind it. -/
def parametersText (parameters : List (Parameter × Blank)) : Text :=
  parameters.flatMap fun p => p.1.text ++ p.2.1

/-- What stands between the tags. -/
def body (inv : Invocation) : Text := inv.inner ++ parametersText inv.parameters

/-- The call as it is written. -/
def text (inv : Invocation) : Text :=
  inv.head ++ (inv.body ++ inv.closing.text "invoke".toList)

/-- The arguments that some of the parameters make. -/
def argumentsOf (parameters : List Parameter) : Json := .object (parameters.map Parameter.entry)

/-- The name and the arguments it calls for. -/
def call (inv : Invocation) : Text × Json :=
  (inv.opening.key, argumentsOf (inv.parameters.map Prod.fst))

/-- A name that is not blank, distinct keys, good values, and arguments that may be nested so
deep. -/
structure Good (py : Python) (inv : Invocation) : Prop where
  name : inv.opening.key ≠ []
  keys : (inv.parameters.map fun p => p.1.opening.key).Nodup
  values : ∀ p ∈ inv.parameters, p.1.value.Good py
  depth : inv.call.2.depth ≤ py.encodeLimit

/-- The parameters that a cut leaves whole. -/
def whole : List (Parameter × Blank) → Text → List Parameter
  | [], _ => []
  | (p, blank) :: parameters, cut =>
    if p.text <+: cut then
      p :: whole parameters ((cut.drop p.text.length).drop blank.1.length)
    else []

end Invocation

/-- Calls between the tags `function_calls`. -/
structure Document where
  before : Blank
  lead : Lead
  behind : Blank
  inner : Blank
  invocations : List (Invocation × Blank)
  closing : Closing

namespace Document

/-- The document up to some of its invocations. -/
def upTo (doc : Document) (invocations : List (Invocation × Blank)) : Text :=
  '<' :: (doc.before ++ (doc.lead.text ++ ("function_calls".toList ++ (doc.behind ++
    ('>' :: (doc.inner ++ invocations.flatMap fun inv => inv.1.text ++ inv.2.1))))))

/-- The document as it is written. -/
def text (doc : Document) : Text :=
  doc.upTo doc.invocations ++ doc.closing.text "function_calls".toList

end Document

/-! ### Tags -/

section Tags

variable {β : Type} {g : Groups Char} {k : Groups Char → Text → Option β}
variable {pieces : List (Pattern Char)}

/-- A text that begins with neither a bar nor a space. -/
def Leads (text : Text) : Prop := ∃ c rest, text = c :: rest ∧ isBar c = false ∧ isSpace c = false

theorem Leads.append {text : Text} (h : Leads text) (rest : Text) : Leads (text ++ rest) := by
  obtain ⟨c, tail, rfl, hc⟩ := h
  exact ⟨c, tail ++ rest, rfl, hc⟩

theorem Leads.not_space {text : Text} (h : Leads text) :
    ∀ c ∈ text.head?, isSpace c = false := by
  obtain ⟨c, tail, rfl, hc⟩ := h
  intro d hd
  cases hd
  exact hc.2

theorem Leads.not_bar {text : Text} (h : Leads text) : ∀ c ∈ text.head?, isBar c = false := by
  obtain ⟨c, tail, rfl, hc⟩ := h
  intro d hd
  cases hd
  exact hc.1

theorem refuses_word {p : Char → Bool} {t : Char} (ht : p t = false) (w : Text)
    (pieces : List (Pattern Char)) : (cat (word (t :: w) ++ pieces)).Refuses p := by
  apply refuses_one
  rintro c hc
  rw [beq_eq_false_iff_ne]
  rintro rfl
  rw [ht] at hc
  cases hc

theorem Leads.refuses_space {w : Text} (h : Leads w) (pieces : List (Pattern Char)) :
    (cat (word w ++ pieces)).Refuses isSpace := by
  obtain ⟨t, w, rfl, -, ht⟩ := h
  exact refuses_word ht w pieces

theorem Leads.refuses_bar {w : Text} (h : Leads w) (pieces : List (Pattern Char)) :
    (cat (word w ++ pieces)).Refuses isBar := by
  obtain ⟨t, w, rfl, ht, -⟩ := h
  exact refuses_word ht w pieces

theorem leads_dsml : Leads "DSML".toList := ⟨'D', "SML".toList, rfl, by decide, by decide⟩

theorem refuses_space_bars (pieces : List (Pattern Char)) :
    (cat (bars ++ pieces)).Refuses isSpace :=
  refuses_one (fun _ hc => isBar_of_isSpace hc) _

theorem refuses_space_lead (pieces : List (Pattern Char)) :
    (cat (dsmlLead ++ pieces)).Refuses isSpace :=
  refuses_one (fun _ hc => isBar_of_isSpace hc) _

theorem run_spaces (x : Blank) (hpieces : (cat pieces).Refuses isSpace) {rest : Text}
    (hrest : ∀ c ∈ rest.head?, isSpace c = false) :
    (cat (spaces ++ pieces)).run g (x.1 ++ rest) k = (cat pieces).run g rest k :=
  cat_many hpieces x.2 hrest

theorem run_bars (x : Bars) (y : Blank) (hspace : (cat pieces).Refuses isSpace)
    (hbar : (cat pieces).Refuses isBar) {rest : Text} (hrest : Leads rest) :
    (cat (bars ++ pieces)).run g (x.1 ++ (y.1 ++ rest)) k = (cat pieces).run g rest k := by
  have hspaces : (cat (spaces ++ pieces)).Refuses isBar :=
    refuses_many (fun _ hc => isSpace_of_isBar hc) hbar
  have hhead : ∀ c ∈ (y.1 ++ rest).head?, isBar c = false :=
    head_stretch (fun c hc => isBar_of_isSpace (y.2 c hc)) hrest.not_bar
  rw [bars, List.append_assoc, cat_oneOrMore hspaces x.2.1 x.2.2 hhead,
    run_spaces y hspace hrest.not_space]

theorem bars_not_space (x : Bars) (rest : Text) :
    ∀ c ∈ (x.1 ++ rest).head?, isSpace c = false := by
  obtain ⟨b, tail, hx⟩ := List.exists_cons_of_ne_nil x.2.1
  rw [hx]
  intro c hc
  cases hc
  exact isSpace_of_isBar (x.2.2 b (by rw [hx]; exact List.mem_cons_self))

/-- `｜DSML｜` is read in one way, whatever word stands behind it. -/
theorem run_lead (lead : Lead) {w rest : Text} (hw : Leads w) (hrest : Leads rest) :
    (cat (dsmlLead ++ (word w ++ pieces))).run g (lead.text ++ rest) k =
      (cat (word w ++ pieces)).run g rest k := by
  rw [dsmlLead, Lead.text]
  simp only [List.append_assoc]
  rw [run_bars lead.first lead.afterFirst (leads_dsml.refuses_space _) (leads_dsml.refuses_bar _)
      (leads_dsml.append _),
    cat_word, run_spaces lead.beforeSecond (refuses_space_bars _) (bars_not_space _ _),
    run_bars lead.second lead.afterSecond (hw.refuses_space _) (hw.refuses_bar _) hrest]

theorem lead_not_space (lead : Lead) (rest : Text) :
    ∀ c ∈ (lead.text ++ rest).head?, isSpace c = false := by
  rw [Lead.text, List.append_assoc]
  exact bars_not_space lead.first _

theorem run_char (c : Char) (rest : Text) :
    (cat (word [c] ++ pieces)).run g (c :: rest) k = (cat pieces).run g rest k :=
  cat_word [c] rest

/-- An opening tag is read in one way, and its name is the first group. -/
theorem run_opening (opening : Opening) (hname : opening.name ≠ []) {tag : Text}
    (htag : Leads tag) (rest : Text) :
    (cat (openingRe tag ++ pieces)).run g (opening.text tag ++ rest) k =
      (cat pieces).run ((1, opening.name) :: g) rest k := by
  have hname_leads : Leads "name=\"".toList := ⟨'n', "ame=\"".toList, rfl, by decide, by decide⟩
  have hquote : (cat (word ['"'] ++ pieces)).Refuses (· != '"') := by
    apply refuses_one
    intro c hc
    exact beq_eq_false_iff_ne.mpr (bne_iff_ne.mp hc)
  have hclean : ∀ c ∈ opening.name, (c != '"') = true := fun c hc =>
    bne_iff_ne.mpr (opening.name_clean c hc).1
  rw [openingRe, Opening.text]
  simp only [List.append_assoc, List.cons_append]
  rw [run_char, run_spaces opening.before (refuses_space_lead _) (lead_not_space _ _),
    run_lead opening.lead htag (htag.append _), cat_word,
    cat_oneOrMore (hname_leads.refuses_space _) opening.gap.2.1 opening.gap.2.2
      (hname_leads.append _).not_space,
    cat_word]
  show (cat (group 1 _ :: (word ['"'] ++ pieces))).run g
    (opening.name ++ ([] ++ '"' :: rest)) k = _
  rw [List.nil_append, cat_group_oneOrMore hquote hname hclean fun c hc => by cases hc; rfl]
  exact run_char '"' rest

theorem leads_slash (rest : Text) : Leads ('/' :: rest) := ⟨'/', rest, rfl, by decide, by decide⟩

theorem leads_bracket (rest : Text) : Leads ('>' :: rest) := ⟨'>', rest, rfl, by decide, by decide⟩

/-- A closing tag is read up to its word in one way. -/
theorem run_closing_word (closing : Closing) {w tag rest : Text} (hw : Leads w)
    (htag : Leads (tag ++ rest)) :
    (cat (word ['<'] ++ (spaces ++ (word ['/'] ++ (spaces ++ (dsmlLead ++
        (word w ++ pieces))))))).run
      g ('<' :: (closing.before ++ ('/' :: (closing.afterSlash ++ (closing.lead.text ++
        (tag ++ rest)))))) k = (cat (word w ++ pieces)).run g (tag ++ rest) k := by
  rw [run_char, run_spaces closing.before ((leads_slash []).refuses_space _)
      (leads_slash _).not_space,
    run_char, run_spaces closing.afterSlash (refuses_space_lead _) (lead_not_space _ _),
    run_lead closing.lead hw htag]

/-- A closing tag is read in one way. -/
theorem run_closing (closing : Closing) {tag : Text} (htag : Leads tag) (rest : Text) :
    (cat (closingRe tag ++ pieces)).run g (closing.text tag ++ rest) k =
      (cat pieces).run g rest k := by
  rw [closingRe, Closing.text, Closing.open]
  simp only [List.append_assoc, List.cons_append, List.nil_append]
  rw [run_closing_word closing htag (htag.append _), cat_word,
    run_spaces closing.behind ((leads_bracket []).refuses_space _) (leads_bracket _).not_space]
  exact run_char '>' rest

end Tags

/-! ### Where a tag fails -/

section Fails

variable {pieces : List (Pattern Char)}

theorem fails_of_eq {a b : Pattern Char} {l l' : Text} (h : a.matchAt l = b.matchAt l')
    (hb : b.Fails l') : a.Fails l :=
  fails_of_run (h.trans (hb.run [] _))

/-- No opening tag of one word is one of another. -/
theorem opening_fails_word {tag w : Text} (htag : Leads tag) {before : Blank} {lead : Lead}
    {rest : Text} (hw : Leads w) (hne : ¬ tag <+: w ++ rest) :
    (cat (openingRe tag ++ pieces)).Fails ('<' :: (before ++ (lead.text ++ (w ++ rest)))) := by
  have hfails : (cat (word tag ++ (oneOrMore isSpace ++ (word "name=\"".toList ++
      ([group 1 (cat (oneOrMore (· != '"')))] ++ (word ['"'] ++ pieces)))))).Fails (w ++ rest) :=
    fails_word hne _
  apply fails_of_eq _ hfails
  rw [openingRe]
  simp only [List.append_assoc]
  rw [matchAt, run_char, run_spaces before (refuses_space_lead _) (lead_not_space _ _),
    run_lead lead htag (hw.append _)]
  rfl

/-- No opening tag is a closing one. -/
theorem opening_fails_closing (tag : Text) (before : Blank) (rest : Text) :
    (cat (openingRe tag ++ pieces)).Fails ('<' :: (before ++ ('/' :: rest))) := by
  have hfails : (cat (dsmlLead ++ (word tag ++ (oneOrMore isSpace ++ (word "name=\"".toList ++
      ([group 1 (cat (oneOrMore (· != '"')))] ++ (word ['"'] ++ pieces))))))).Fails
      ('/' :: rest) := fails_cons (by decide) _ _
  apply fails_of_eq _ hfails
  rw [openingRe]
  simp only [List.append_assoc]
  rw [matchAt, run_char, run_spaces before (refuses_space_lead _)
    (leads_slash rest).not_space]
  rfl

/-- No closing tag is an opening one. -/
theorem closing_fails_opening (tag : Text) (before : Blank) (lead : Lead) (rest : Text) :
    (cat (closingRe tag)).Fails ('<' :: (before ++ (lead.text ++ rest))) := by
  have hfails : (cat (word ['/'] ++ (spaces ++ (dsmlLead ++ (word tag ++ (spaces ++
      word ['>'])))))).Fails (lead.text ++ rest) := by
    obtain ⟨b, bar, hbar⟩ := List.exists_cons_of_ne_nil lead.first.2.1
    have hb : isBar b = true := lead.first.2.2 b (by rw [hbar]; exact List.mem_cons_self)
    rw [Lead.text, hbar]
    apply fails_cons
    rcases isBar_iff.mp hb with rfl | rfl <;> rfl
  apply fails_of_eq _ hfails
  rw [closingRe]
  simp only [List.append_assoc]
  rw [matchAt, run_char, run_spaces before ((leads_slash []).refuses_space _)
    (lead_not_space _ _)]
  rfl

/-- No closing tag of one word is one of another. -/
theorem closing_fails_word {tag w : Text} (htag : Leads tag) (closing : Closing) {rest : Text}
    (hw : Leads w) (hne : ¬ tag <+: w ++ (closing.behind ++ '>' :: rest)) :
    (cat (closingRe tag)).Fails (closing.text w ++ rest) := by
  have hfails : (cat (word tag ++ (spaces ++ word ['>']))).Fails
      (w ++ (closing.behind ++ '>' :: rest)) := fails_word hne _
  apply fails_of_eq _ hfails
  rw [closingRe, Closing.text, Closing.open]
  simp only [List.append_assoc, List.cons_append, List.nil_append]
  rw [matchAt, run_closing_word closing htag (hw.append _)]
  rfl

end Fails

/-! ### Brackets -/

/-- Brackets are no whitespace, no bars and no letters. -/
structure Sharp (c : Char) : Prop where
  space : isSpace c = false
  bar : isBar c = false
  dsml : c ∉ "DSML".toList

theorem sharp_left : Sharp '<' := ⟨by decide, by decide, by decide⟩

theorem sharp_right : Sharp '>' := ⟨by decide, by decide, by decide⟩

section Sharp

variable {c : Char} (h : Sharp c)

include h

theorem Sharp.blank (x : Blank) : c ∉ x.1 := by
  intro hc
  have hspace := x.2 c hc
  rw [h.space] at hspace
  cases hspace

theorem Sharp.gap (x : Gap) : c ∉ x.1 := by
  intro hc
  have hspace := x.2.2 c hc
  rw [h.space] at hspace
  cases hspace

theorem Sharp.bars (x : Bars) : c ∉ x.1 := by
  intro hc
  have hbar := x.2.2 c hc
  rw [h.bar] at hbar
  cases hbar

theorem Sharp.lead (lead : Lead) : c ∉ lead.text := by
  simp only [Lead.text, List.mem_append, not_or]
  exact ⟨h.bars _, h.blank _, h.dsml, h.blank _, h.bars _, h.blank _⟩

end Sharp

/-- An opening tag has no second bracket before its last one. -/
theorem Opening.text_eq (opening : Opening) {tag : Text} (htag : '<' ∉ tag) :
    ∃ u, opening.text tag = '<' :: u ∧ '<' ∉ u := by
  refine ⟨_, rfl, ?_⟩
  simp only [List.mem_append, not_or]
  refine ⟨sharp_left.blank _, sharp_left.lead _, htag, sharp_left.gap _, by decide, ?_, by decide⟩
  exact fun hc => (opening.name_clean '<' hc).2 rfl

/-- A closing tag has one bracket on either side. -/
theorem Closing.open_eq (closing : Closing) {tag : Text} (htag : '<' ∉ tag) :
    ∃ u, closing.open tag = '<' :: u ∧ '<' ∉ u := by
  refine ⟨_, rfl, ?_⟩
  simp only [List.mem_append, List.mem_cons, not_or]
  exact ⟨sharp_left.blank _, by decide, sharp_left.blank _, sharp_left.lead _, htag,
    sharp_left.blank _⟩

theorem Closing.open_sharp (closing : Closing) {tag : Text} (htag : '>' ∉ tag) :
    '>' ∉ closing.open tag := by
  simp only [Closing.open, List.mem_append, List.mem_cons, not_or]
  exact ⟨by decide, sharp_right.blank _, by decide, sharp_right.blank _, sharp_right.lead _, htag,
    sharp_right.blank _⟩

theorem Value.attributeText_sharp (v : Value) : '<' ∉ v.attributeText := by
  cases v with
  | plain => exact List.not_mem_nil
  | string gap =>
    simp only [Value.attributeText, List.mem_append, not_or]
    exact ⟨sharp_left.gap _, by decide, by decide, by decide⟩
  | json gap =>
    simp only [Value.attributeText, List.mem_append, not_or]
    exact ⟨sharp_left.gap _, by decide, by decide, by decide⟩

theorem Value.Good.raw_sharp {py : Python} {v : Value} (h : v.Good py) : '<' ∉ v.raw := by
  cases v with
  | plain front back s =>
    simp only [Value.raw, List.mem_append, not_or]
    exact ⟨sharp_left.blank _, h.2, sharp_left.blank _⟩
  | string gap front back s =>
    simp only [Value.raw, List.mem_append, not_or]
    exact ⟨sharp_left.blank _, h.2, sharp_left.blank _⟩
  | json gap text v => exact h.1

theorem Parameter.head_eq (p : Parameter) (hraw : '<' ∉ p.value.raw) :
    ∃ u, p.head = '<' :: u ∧ '<' ∉ u := by
  obtain ⟨u, hu, hsharp⟩ := p.opening.text_eq (show '<' ∉ "parameter".toList by decide)
  refine ⟨u ++ (p.value.attributeText ++ (p.behind ++ ('>' :: p.value.raw))), ?_, ?_⟩
  · rw [Parameter.head, hu, List.cons_append]
  simp only [List.mem_append, List.mem_cons, not_or]
  exact ⟨hsharp, p.value.attributeText_sharp, sharp_left.blank _, by decide, hraw⟩

section Quiet

variable {pieces : List (Pattern Char)} {u rest : Text}

/-- Text without a bracket. -/
theorem quiet_plain (hu : '<' ∉ u) : (cat (word ['<'] ++ pieces)).Quiet u rest := by
  apply quiet_of_first
  intro c hc
  exact beq_eq_false_iff_ne.mpr fun heq => hu (heq ▸ hc)

theorem quiet_closing {tag : Text} (hu : '<' ∉ u) : (cat (closingRe tag)).Quiet u rest := by
  rw [closingRe]
  simp only [List.append_assoc]
  exact quiet_plain hu

theorem quiet_closing_tag {tag : Text} (hfails : (cat (closingRe tag)).Fails ('<' :: (u ++ rest)))
    (hu : '<' ∉ u) : (cat (closingRe tag)).Quiet ('<' :: u) rest :=
  Quiet.cons hfails (quiet_closing hu)

theorem quiet_opening {tag : Text} (hu : '<' ∉ u) :
    (cat (openingRe tag ++ pieces)).Quiet u rest := by
  rw [openingRe]
  simp only [List.append_assoc]
  exact quiet_plain hu

theorem quiet_opening_tag {tag : Text}
    (hfails : (cat (openingRe tag ++ pieces)).Fails ('<' :: (u ++ rest))) (hu : '<' ∉ u) :
    (cat (openingRe tag ++ pieces)).Quiet ('<' :: u) rest :=
  Quiet.cons hfails (quiet_opening hu)

end Quiet

/-! ### A parameter -/

section Parameter

variable {β : Type} {g : Groups Char} {k : Groups Char → Text → Option β}
variable {pieces : List (Pattern Char)}

/-- The group that the attribute of a value captures. -/
def Value.groups (v : Value) : Groups Char :=
  match v.isString with
  | none => []
  | some s => [(2, s)]

/-- `(true|false)"`. -/
theorem run_choice {w : Text} (hw : w = "true".toList ∨ w = "false".toList) (rest : Text) {b : β}
    (h : k ((2, w) :: g) rest = some b) :
    (cat ([group 2 (alt (cat (word "true".toList)) (cat (word "false".toList)))] ++
      word ['"'])).run g (w ++ '"' :: rest) k = some b := by
  have hread : (cat (group 2 (cat (word w)) :: word ['"'])).run g (w ++ '"' :: rest) k =
      some b := by
    rw [cat_group_word]
    exact (run_word ['"'] rest).trans h
  rw [List.singleton_append, cat_group_alt]
  rcases hw with rfl | rfl
  · exact Option.or_eq_some_iff.mpr (Or.inl hread)
  · have hfails : (cat (word "true".toList ++ [])).Fails ("false".toList ++ '"' :: rest) :=
      fails_word (by rintro ⟨t, ht⟩; cases ht) []
    rw [List.append_nil] at hfails
    exact Option.or_eq_some_iff.mpr (Or.inr ⟨(fails_group hfails).run g k, hread⟩)

theorem run_attribute (v : Value) (behind : Blank) (tail : Text) {b : β}
    (h : (cat (spaces ++ (word ['>'] ++ pieces))).run (v.groups ++ g) (behind ++ '>' :: tail) k =
      some b) :
    (cat (attributeRe :: (spaces ++ (word ['>'] ++ pieces)))).run g
      (v.attributeText ++ (behind ++ '>' :: tail)) k = some b := by
  have hleads : Leads "string=\"".toList :=
    ⟨'s', "tring=\"".toList, rfl, by decide, by decide⟩
  -- with an attribute the first choice reads it and goes on to the end
  have hread : ∀ (gap : Gap) (w : Text), (w = "true".toList ∨ w = "false".toList) →
      (cat (spaces ++ (word ['>'] ++ pieces))).run ((2, w) :: g) (behind ++ '>' :: tail) k =
        some b →
      (cat (attributeRe :: (spaces ++ (word ['>'] ++ pieces)))).run g
        (gap ++ ("string=\"".toList ++ (w ++ '"' :: (behind ++ '>' :: tail)))) k = some b := by
    intro gap w hw hb
    rw [attributeRe]
    simp only [List.append_assoc]
    apply Option.or_eq_some_iff.mpr
    left
    rw [cat_oneOrMore (hleads.refuses_space _) gap.2.1 gap.2.2 (hleads.append _).not_space,
      cat_word]
    exact run_choice hw _ hb
  cases v with
  | plain front back s =>
    have hfails : (cat (oneOrMore isSpace ++ (word "string=\"".toList ++
        ([group 2 (alt (cat (word "true".toList)) (cat (word "false".toList)))] ++
          word ['"'])))).Fails (behind.1 ++ '>' :: tail) := by
      apply fails_oneOrMore (hleads.refuses_space _) behind.2 (leads_bracket tail).not_space
      exact fails_word (by rintro ⟨t, ht⟩; cases ht) _
    rw [attributeRe]
    simp only [List.append_assoc]
    apply Option.or_eq_some_iff.mpr
    right
    exact ⟨hfails.run g _, h⟩
  | string gap front back s =>
    have hb := hread gap _ (Or.inl rfl) h
    simpa only [Value.attributeText, List.append_assoc, List.singleton_append] using hb
  | json gap text v =>
    have hb := hread gap _ (Or.inr rfl) h
    simpa only [Value.attributeText, List.append_assoc, List.singleton_append] using hb

/-- The groups of a parameter. -/
def Parameter.groups (p : Parameter) : Groups Char :=
  (3, p.value.raw) :: (p.value.groups ++ [(1, p.opening.name)])

theorem leads_parameter : Leads "parameter".toList :=
  ⟨'p', "arameter".toList, rfl, by decide, by decide⟩

theorem leads_invoke : Leads "invoke".toList := ⟨'i', "nvoke".toList, rfl, by decide, by decide⟩

/-- A parameter is read in one way. -/
theorem matchAt_parameter (p : Parameter) (hname : p.opening.name ≠ [])
    (hraw : '<' ∉ p.value.raw) (rest : Text) :
    paramRe.matchAt (p.text ++ rest) = some (p.groups, rest) := by
  rw [matchAt, paramRe, Parameter.text, Parameter.head]
  simp only [List.append_assoc, List.cons_append]
  rw [run_opening p.opening hname leads_parameter]
  apply run_attribute
  rw [run_spaces p.behind ((leads_bracket []).refuses_space _) (leads_bracket _).not_space,
    run_char]
  apply cat_group_few (quiet_closing hraw) fun c hc => rfl
  rw [← List.append_nil (closingRe _), run_closing p.closing leads_parameter]
  rfl

end Parameter

end Dsml

end GreenGarden
