/-
GreenGarden/Dsml.lean

Reading tool calls out of leaked markup (`parse_dsml_tool_calls` in
`features/chat/dsml.py`): the three patterns as the engine reads them, and the
JSON the arguments are read from and written to.

Every match of a call begins with a marker (`invokeRe_fails`,
`legacyCallRe_fails`), so text without one has no calls, and text before the
first one changes nothing (`parse_append`).

The parser catches `JSONDecodeError` alone; `raises_dsmlParser` says on which
texts it raises.
-/
import GreenGarden.Markup
import GreenGarden.Chat
import GreenGarden.Pattern
import GreenGarden.Json

namespace GreenGarden

open Pattern

/-- What Python brings along: `\w`, how a float is printed, and how deep JSON may be nested before
reading or writing it gives up. -/
structure Python where
  isWord : Char → Bool
  floatRepr : Text → Text
  decodeLimit : ℕ
  encodeLimit : ℕ

/-! ### The patterns -/

/-- `\s*`. -/
def spaces : List (Pattern Char) := [many isSpace]

/-- `{_BAR}+\s*`. -/
def bars : List (Pattern Char) := oneOrMore isBar ++ spaces

/-- `{_BAR}+\s*DSML\s*{_BAR}+\s*`. -/
def dsmlLead : List (Pattern Char) := bars ++ word "DSML".toList ++ spaces ++ bars

/-- An opening tag, to the quote behind its name. -/
def openingRe (tag : Text) : List (Pattern Char) :=
  word ['<'] ++ spaces ++ dsmlLead ++ word tag ++ oneOrMore isSpace ++ word "name=\"".toList ++
    [group 1 (cat (oneOrMore (· != '"')))] ++ word ['"']

/-- A closing tag. -/
def closingRe (tag : Text) : List (Pattern Char) :=
  word ['<'] ++ spaces ++ word ['/'] ++ spaces ++ dsmlLead ++ word tag ++ spaces ++ word ['>']

/-- `.*?`. -/
def lazily : Pattern Char := few fun _ => true

/-- `_INVOKE_RE`. -/
def invokeRe : Pattern Char :=
  cat (openingRe "invoke".toList ++ spaces ++ word ['>'] ++ [group 2 lazily] ++
    [alt (cat (closingRe "invoke".toList)) stop])

/-- `(?:\s+string="(true|false)")?`. -/
def attributeRe : Pattern Char :=
  opt (cat (oneOrMore isSpace ++ word "string=\"".toList ++
    [group 2 (alt (cat (word "true".toList)) (cat (word "false".toList)))] ++ word ['"']))

/-- `_PARAM_RE`. -/
def paramRe : Pattern Char :=
  cat (openingRe "parameter".toList ++ [attributeRe] ++ spaces ++ word ['>'] ++
    [group 3 lazily] ++ closingRe "parameter".toList)

/-- `_LEGACY_CALL_RE`. -/
def legacyCallRe (isWord : Char → Bool) : Pattern Char :=
  cat (word ['<'] ++ spaces ++ bars ++ word "tool▁call▁begin".toList ++ spaces ++ bars ++
    word ['>'] ++ spaces ++ [opt (cat (word "function".toList))] ++ spaces ++
    word ['<'] ++ spaces ++ bars ++ word "tool▁sep".toList ++ spaces ++ bars ++ word ['>'] ++
    spaces ++ [group 1 (cat (oneOrMore fun c => isWord c || c == '.' || c == '-'))] ++ spaces ++
    [opt (cat (word "```".toList ++ [opt (cat (word "json".toList))]))] ++ spaces ++
    [group 2 (cat (word ['\x7b'] ++ [lazily] ++ word ['\x7d']))] ++ spaces ++
    [opt (cat (word "```".toList))] ++ spaces ++
    word ['<'] ++ spaces ++ bars ++ word "tool▁call▁end".toList)

/-! ### The parser -/

/-- `match.group(n)` of a group that takes part in every match. -/
def group! (g : Groups Char) (n : ℕ) : Text := (g.lookup n).getD []

/-- The value of a parameter; `string="false"` asks for JSON. -/
def parameterValue (py : Python) (raw : Text) (isString : Option Text) :
    Except JsonError Json :=
  if isString = some "false".toList then
    match Json.loads py.decodeLimit raw with
    | .error .decode => .ok (.string (strip raw))
    | result => result
  else .ok (.string (strip raw))

/-- A key and its value in the dict of the arguments. -/
def argument (py : Python) (param : Groups Char) : Except JsonError (Text × Json) := do
  .ok (strip (group! param 1), ← parameterValue py (group! param 3) (param.lookup 2))

/-- The name and the arguments of a call, but for a blank name. -/
def invokeCall (py : Python) (invoke : Groups Char) : Except JsonError (Option (Text × Text)) :=
  let name := strip (group! invoke 1)
  if name = [] then .ok none
  else do
    let pairs ← (finditer paramRe (group! invoke 2)).mapM (argument py)
    .ok (some (name, ← Json.dumps py.floatRepr py.encodeLimit (.object (Json.dictOf pairs))))

/-- A call in the older form: a name and a JSON object. -/
def legacyCall (py : Python) (legacy : Groups Char) : Except JsonError (Option (Text × Text)) :=
  match Json.loads py.decodeLimit (group! legacy 2) with
  | .error .decode => .ok none
  | .error e => .error e
  | .ok (.object args) => do
    .ok (some (group! legacy 1, ← Json.dumps py.floatRepr py.encodeLimit (.object args)))
  | .ok _ => .ok none

/-- The calls of the matches that are some. -/
def callsOf (call : Groups Char → Except JsonError (Option (Text × Text)))
    (found : List (Groups Char)) : Except JsonError (List (Text × Text)) := do
  .ok ((← found.mapM call).filterMap id)

/-- Every call with a new id. -/
def withIds (newId : ℕ → Text) (calls : List (Text × Text)) : List ParsedToolCall :=
  calls.zipIdx.map fun (call, i) => ⟨newId i, call.1, call.2⟩

/-- Extract tool calls from DSML (or legacy DeepSeek) markup text; `newId` makes up the ids. -/
def parseDsmlToolCalls (py : Python) (newId : ℕ → Text) :
    Option Text → Except JsonError (List ParsedToolCall)
  | none => .ok []
  | some text => do
    let calls ← callsOf (invokeCall py) (finditer invokeRe text)
    if calls ≠ [] then .ok (withIds newId calls)
    else
      let legacy ← callsOf (legacyCall py) (finditer (legacyCallRe py.isWord) text)
      .ok (withIds newId legacy)

/-- The parser of a chat, which ends with whatever is raised here. -/
def dsmlParser (py : Python) : MarkupParser := fun newId text =>
  (parseDsmlToolCalls py newId (some text)).mapError fun _ => .raised

/-! ### Every call begins with a marker -/

theorem isBar_iff {c : Char} : isBar c = true ↔ c = '|' ∨ c = '｜' := by simp [isBar]

theorem isSpace_of_isBar {c : Char} (h : isBar c = true) : isSpace c = false := by
  rcases isBar_iff.mp h with rfl | rfl <;> decide

theorem isBar_of_isSpace {c : Char} (h : isSpace c = true) : isBar c = false := by
  by_contra hbar
  rw [isSpace_of_isBar ((Bool.not_eq_false _).mp hbar)] at h
  cases h

theorem dropWhile_stretch {p : Char → Bool} {x rest : Text} (hx : ∀ c ∈ x, p c = true)
    (hrest : ∀ c ∈ rest.head?, p c = false) : (x ++ rest).dropWhile p = rest := by
  rw [List.dropWhile_append_of_pos hx]
  cases rest with
  | nil => rfl
  | cons c rest => exact List.dropWhile_cons_of_neg (by rw [hrest c rfl]; exact Bool.false_ne_true)

theorem head_stretch {p : Char → Bool} {x rest : Text} (hx : ∀ c ∈ x, p c = false)
    (hrest : ∀ c ∈ rest.head?, p c = false) : ∀ c ∈ (x ++ rest).head?, p c = false := by
  cases x with
  | nil => exact hrest
  | cons d x =>
    intro c hc
    cases hc
    exact hx d List.mem_cons_self

theorem markerAt_of_word {letters : CaseFold} {before bar behind word tail : Text}
    (hbefore : ∀ c ∈ before, isSpace c = true) (hne : bar ≠ [])
    (hbar : ∀ c ∈ bar, isBar c = true) (hbehind : ∀ c ∈ behind, isSpace c = true)
    (hword : wordAt letters (word ++ tail) = true)
    (hfirst : ∀ c ∈ (word ++ tail).head?, isBar c = false ∧ isSpace c = false) :
    markerAt letters ('<' :: (before ++ (bar ++ (behind ++ (word ++ tail))))) = true := by
  rcases bar with - | ⟨b, bar⟩
  · exact absurd rfl hne
  have hb := hbar b List.mem_cons_self
  have hspace : ∀ rest : Text, (b :: rest).dropWhile isSpace = b :: rest := fun rest =>
    List.dropWhile_cons_of_neg (by rw [isSpace_of_isBar hb]; exact Bool.false_ne_true)
  have hslash : ∀ rest : Text, afterSlash (b :: rest) = b :: rest := by
    intro rest
    rcases isBar_iff.mp hb with rfl | rfl <;> rfl
  have hopening : afterOpening (before ++ (b :: bar ++ (behind ++ (word ++ tail)))) =
      b :: (bar ++ (behind ++ (word ++ tail))) := by
    rw [afterOpening, List.cons_append, dropWhile_stretch hbefore, hslash, hspace]
    intro c hc
    cases hc
    exact isSpace_of_isBar hb
  rw [markerAt, hopening]
  show ('<' == '<' && (isBar b &&
    wordAt letters (((bar ++ (behind ++ (word ++ tail))).dropWhile isBar).dropWhile isSpace))) =
    true
  rw [dropWhile_stretch (fun c hc => hbar c (List.mem_cons_of_mem b hc))
    (head_stretch (fun c hc => isBar_of_isSpace (hbehind c hc)) fun c hc => (hfirst c hc).1),
    dropWhile_stretch hbehind fun c hc => (hfirst c hc).2, hb, hword]
  rfl

/-- A pattern that begins with a bracket, bars and the first word of a marker fails elsewhere. -/
theorem fails_of_not_markerAt {first text : Text} (more : List (Pattern Char))
    (hword : ∀ tail, wordAt ignoreAsciiCase (first ++ tail) = true)
    (hfirst : ∀ tail : Text, ∀ c ∈ (first ++ tail).head?, isBar c = false ∧ isSpace c = false)
    (h : markerAt ignoreAsciiCase text = false) :
    (cat (word ['<'] ++ (spaces ++ (bars ++ (word first ++ more))))).Fails text := by
  rintro x rest rfl hx
  obtain ⟨opening, x₁, rfl, hopening, h₁⟩ := exists_of_matches_append hx
  obtain ⟨before, x₂, rfl, hbefore, h₂⟩ := exists_of_matches_append h₁
  obtain ⟨barred, x₃, rfl, hbarred, h₃⟩ := exists_of_matches_append h₂
  obtain ⟨bar, behind, rfl, hbar, hbehind⟩ := exists_of_matches_append hbarred
  obtain ⟨letters, tail, rfl, hletters, -⟩ := exists_of_matches_append h₃
  obtain ⟨hne, hbar⟩ := exists_of_matches_oneOrMore hbar
  have hmarker := markerAt_of_word (exists_of_matches_many hbefore) hne hbar
    (exists_of_matches_many hbehind) (hword (tail ++ rest)) (hfirst (tail ++ rest))
  rw [eq_of_matches_word hopening, eq_of_matches_word hletters] at h
  simp only [List.append_assoc, List.cons_append, List.nil_append] at h
  rw [h] at hmarker
  cases hmarker

theorem invokeRe_fails {text : Text} (h : markerAt ignoreAsciiCase text = false) :
    invokeRe.Fails text := by
  rw [invokeRe, openingRe, dsmlLead]
  simp only [List.append_assoc]
  apply fails_of_not_markerAt _ (fun tail => rfl) _ h
  intro tail c hc
  cases hc
  decide

theorem legacyCallRe_fails (isWord : Char → Bool) {text : Text}
    (h : markerAt ignoreAsciiCase text = false) : (legacyCallRe isWord).Fails text := by
  rw [legacyCallRe]
  simp only [List.append_assoc]
  apply fails_of_not_markerAt _ (fun tail => rfl) _ h
  intro tail c hc
  cases hc
  decide

/-- Text in front of the first marker holds no call. -/
theorem parse_append (py : Python) (newId : ℕ → Text) {before rest : Text}
    (h : ∀ x y, before = x ++ y → y ≠ [] → markerAt ignoreAsciiCase (y ++ rest) = false) :
    parseDsmlToolCalls py newId (some (before ++ rest)) =
      parseDsmlToolCalls py newId (some rest) := by
  have hinvoke : invokeRe.Quiet before rest := fun x y hxy hy => invokeRe_fails (h x y hxy hy)
  have hlegacy : (legacyCallRe py.isWord).Quiet before rest :=
    fun x y hxy hy => legacyCallRe_fails py.isWord (h x y hxy hy)
  rw [parseDsmlToolCalls, parseDsmlToolCalls, finditer_append hinvoke, finditer_append hlegacy]

/-! ### What the parser raises on -/

/-- `json.loads` raises something else than `JSONDecodeError`. -/
def Undecodable (limit : ℕ) (text : Text) : Prop :=
  ∃ e, Json.loads limit text = .error e ∧ e ≠ .decode

/-- A call whose name is not blank has a parameter that is no string and is not read, or its
arguments stand too deep inside each other to be written. -/
def InvokeRaises (py : Python) (invoke : Groups Char) : Prop :=
  strip (group! invoke 1) ≠ [] ∧
    ((∃ param ∈ finditer paramRe (group! invoke 2), param.lookup 2 = some "false".toList ∧
      Undecodable py.decodeLimit (group! param 3)) ∨
    ∃ pairs, (finditer paramRe (group! invoke 2)).mapM (argument py) = .ok pairs ∧
      py.encodeLimit < (Json.object (Json.dictOf pairs)).depth)

/-- The same of a call in the old format. -/
def LegacyRaises (py : Python) (legacy : Groups Char) : Prop :=
  Undecodable py.decodeLimit (group! legacy 2) ∨
    ∃ args, Json.loads py.decodeLimit (group! legacy 2) = .ok (.object args) ∧
      py.encodeLimit < (Json.object args).depth

/-- Markup that the parser raises on; the old format is tried on texts without a call of the
new one. -/
def UnreadableMarkup (py : Python) (text : Text) : Prop :=
  (∃ invoke ∈ finditer invokeRe text, InvokeRaises py invoke) ∨
    callsOf (invokeCall py) (finditer invokeRe text) = .ok [] ∧
      ∃ legacy ∈ finditer (legacyCallRe py.isWord) text, LegacyRaises py legacy

section Raising

variable {α β ε : Type}

/-- A computation that ends in an error. -/
def Raises (x : Except ε α) : Prop := ∃ e, x = .error e

@[simp] theorem raises_error (e : ε) : Raises (Except.error e : Except ε α) := ⟨e, rfl⟩

@[simp] theorem not_raises_ok (a : α) : ¬ Raises (Except.ok a : Except ε α) := by
  rintro ⟨e, h⟩
  cases h

theorem raises_bind {x : Except ε α} {f : α → Except ε β} :
    Raises (x >>= f) ↔ Raises x ∨ ∃ a, x = .ok a ∧ Raises (f a) := by
  rcases x with e | a
  · exact iff_of_true ⟨e, rfl⟩ (.inl ⟨e, rfl⟩)
  · show Raises (f a) ↔ _
    simp

theorem raises_mapM {f : α → Except ε β} {l : List α} :
    Raises (l.mapM f) ↔ ∃ a ∈ l, Raises (f a) := by
  induction l with
  | nil => simp [pure, Except.pure]
  | cons a l ih =>
    rw [List.mapM_cons, raises_bind, List.exists_mem_cons_iff, ← ih]
    rcases f a with e | b
    · simp
    · simp [raises_bind, pure, Except.pure]

end Raising

theorem raises_callsOf {call : Groups Char → Except JsonError (Option (Text × Text))}
    {found : List (Groups Char)} :
    Raises (callsOf call found) ↔ ∃ groups ∈ found, Raises (call groups) := by
  rw [callsOf, raises_bind, raises_mapM]
  simp

theorem raises_dumps {floatRepr : Text → Text} {limit : ℕ} {v : Json} :
    Raises (Json.dumps floatRepr limit v) ↔ limit < v.depth := by
  rw [Json.dumps, ← not_le]
  split
  · rename_i hdepth
    simp [hdepth]
  · rename_i hdepth
    simp [hdepth]

theorem raises_argument {py : Python} {param : Groups Char} :
    Raises (argument py param) ↔ param.lookup 2 = some "false".toList ∧
      Undecodable py.decodeLimit (group! param 3) := by
  rw [argument, raises_bind, parameterValue, Undecodable]
  split
  · rename_i hfalse
    rcases Json.loads py.decodeLimit (group! param 3) with e | v
    · cases e <;> simp [hfalse]
    · simp
  · rename_i hfalse
    exact iff_of_false (by simp) fun h => hfalse h.1

theorem raises_invokeCall {py : Python} {invoke : Groups Char} :
    Raises (invokeCall py invoke) ↔ InvokeRaises py invoke := by
  rw [invokeCall, InvokeRaises]
  by_cases hname : strip (group! invoke 1) = []
  · simp [hname]
  · rw [if_neg hname]
    simp only [raises_bind, raises_mapM, raises_argument, raises_dumps, not_raises_ok, and_false,
      exists_false, or_false, ne_eq, hname, not_false_eq_true, true_and]

theorem raises_legacyCall {py : Python} {legacy : Groups Char} :
    Raises (legacyCall py legacy) ↔ LegacyRaises py legacy := by
  rw [legacyCall, LegacyRaises, Undecodable]
  rcases Json.loads py.decodeLimit (group! legacy 2) with e | v
  · cases e <;> simp
  · cases v <;> simp [raises_bind, raises_dumps]

/-- When the parser raises. -/
theorem raises_dsmlParser {py : Python} (newId : ℕ → Text) {text : Text} :
    Raises (dsmlParser py newId text) ↔ UnreadableMarkup py text := by
  rw [dsmlParser, UnreadableMarkup, parseDsmlToolCalls]
  simp only [← raises_invokeCall, ← raises_legacyCall, ← raises_callsOf]
  rcases callsOf (invokeCall py) (finditer invokeRe text) with e | calls
  · exact iff_of_true ⟨_, rfl⟩ (.inl ⟨e, rfl⟩)
  · by_cases hcalls : calls = []
    · subst hcalls
      rcases callsOf (legacyCall py) (finditer (legacyCallRe py.isWord) text) with e | legacy
      · exact iff_of_true ⟨_, rfl⟩ (.inr ⟨rfl, e, rfl⟩)
      · simp [Except.mapError, bind, Except.bind]
    · simp [Except.mapError, bind, Except.bind, hcalls]

theorem dsmlParser_error {py : Python} {newId : ℕ → Text} {text : Text} {e : ChatError}
    (h : dsmlParser py newId text = .error e) : e = .raised := by
  rw [dsmlParser] at h
  rcases hparsed : parseDsmlToolCalls py newId (some text) with e' | calls
  · rw [hparsed] at h
    exact (Except.error.inj h).symm
  · rw [hparsed] at h
    cases h

end GreenGarden
