/-
GreenGarden/Markup.lean

Tool-call markup that the model leaks into its text (`features/chat/dsml.py`):
the marker pattern, the pattern of an end that may still grow into a marker,
and the guard a streamed reply goes through.  The two patterns treat letters
differently: the marker's words are matched with `re.IGNORECASE`, to which
`ſ` (U+017F) is an `s`, the partial one's letters are `[A-Za-z]`.

The patterns leave no choice, their pieces being made of different
characters, so each is one pass over the text.  `marker` is the same pass as a
`Recogniser`; the whole-text functions and the guard are its `find`, `before`
and `feed`.
-/
import GreenGarden.Text
import GreenGarden.Recogniser

namespace GreenGarden

/-! ### The patterns -/

/-- The letter of the marker words that a character is taken for. -/
structure CaseFold where
  fold : Char → Char
  fold_of_ne : ∀ c, c ≠ 'ſ' → fold c = c.toLower

/-- `re.IGNORECASE`. -/
def ignoreCase : CaseFold where
  fold c := if c = 'ſ' then 's' else c.toLower
  fold_of_ne _ h := if_neg h

/-- `re.IGNORECASE | re.ASCII`. -/
def ignoreAsciiCase : CaseFold := ⟨Char.toLower, fun _ _ => rfl⟩

/-- `_BAR`. -/
def isBar (c : Char) : Bool := ['|', '｜'].contains c

/-- `_MARKER_WORDS`. -/
def markerWords : List Text := ["dsml".toList, "tool".toList]

/-- `/?`. -/
def afterSlash : Text → Text
  | '/' :: text => text
  | text => text

/-- `\s*/?\s*`. -/
def afterOpening (text : Text) : Text := (afterSlash (text.dropWhile isSpace)).dropWhile isSpace

/-- `(?:DSML|tool)`. -/
def wordAt (letters : CaseFold) (text : Text) : Bool :=
  markerWords.any fun word => (text.take word.length).map letters.fold == word

/-- `_MARKER_RE` matches at the beginning of the text. -/
def markerAt (letters : CaseFold) : Text → Bool
  | [] => false
  | c :: text =>
    c == '<' &&
      match afterOpening text with
      | [] => false
      | bar :: text => isBar bar && wordAt letters ((text.dropWhile isBar).dropWhile isSpace)

/-- `_MARKER_RE.search`: the text before the match and the text from it on. -/
def searchMarker (letters : CaseFold) : Text → Option (Text × Text)
  | [] => none
  | c :: text =>
    if markerAt letters (c :: text) then some ([], c :: text)
    else (searchMarker letters text).map fun found => (c :: found.1, found.2)

/-- Whether a text holds a marker. -/
def containsToolMarkup (letters : CaseFold) : Option Text → Bool
  | none => false
  | some text => !text.isEmpty && (searchMarker letters text).isSome

/-- Drop everything from the first tool-call marker onward. -/
def stripToolMarkup (letters : CaseFold) : Option Text → Text
  | none => []
  | some text =>
    match searchMarker letters text with
    | none => text
    | some found => found.1

/-- `[A-Za-z]`. -/
def isAsciiLetter (c : Char) : Bool := c.isAlpha

/-- `_PARTIAL_MARKER_RE.fullmatch` on the text after `<`, and the test of its two groups. -/
def partialMarkerAt (text : Text) : Bool :=
  let bars := (afterOpening text).takeWhile isBar
  let word := ((afterOpening text).dropWhile isBar).dropWhile isSpace
  word.length ≤ 4 && word.all isAsciiLetter &&
    (word.isEmpty ||
      !bars.isEmpty && markerWords.any fun w => (word.map Char.toLower).isPrefixOf w)

/-- `text.rfind("<")`: the text before it and the text after it. -/
def rfindOpening : Text → Option (Text × Text)
  | [] => none
  | c :: text =>
    match rfindOpening text with
    | some found => some (c :: found.1, found.2)
    | none => if c = '<' then some ([], text) else none

/-- The text split where `_partial_marker_start` says. -/
def partialMarkerStart (text : Text) : Option (Text × Text) :=
  match rfindOpening text with
  | none => none
  | some (safe, after) => if partialMarkerAt after then some (safe, '<' :: after) else none

/-! ### The guard -/

/-- Pass streamed text through, swallowing any tool-call markup. -/
structure DsmlStreamGuard where
  pending : Text
  captured : List Text
  capturing : Bool
deriving DecidableEq

namespace DsmlStreamGuard

/-- Nothing has been read. -/
def init : DsmlStreamGuard := ⟨[], [], false⟩

/-- The property `captured`. -/
def capturedText (guard : DsmlStreamGuard) : Text := guard.captured.flatten

/-- One chunk: what may be shown of it, and the guard behind it. -/
def feed (letters : CaseFold) (guard : DsmlStreamGuard) (chunk : Text) :
    Text × DsmlStreamGuard :=
  if guard.capturing then
    ([], { guard with captured := guard.captured ++ [chunk] })
  else
    let text := guard.pending ++ chunk
    match searchMarker letters text with
    | some (safe, markup) => (safe, ⟨[], guard.captured ++ [markup], true⟩)
    | none =>
      match partialMarkerStart text with
      | some (safe, held) => (safe, { guard with pending := held })
      | none => (text, { guard with pending := [] })

/-- The end of the stream: what was held back is shown, unless markup has begun. -/
def finish (guard : DsmlStreamGuard) : Text × DsmlStreamGuard :=
  (if guard.capturing then [] else guard.pending, { guard with pending := [] })

end DsmlStreamGuard

/-! ### The marker as an automaton -/

/-- How far a marker has been read. -/
inductive MarkerState where
  | opened
  | slashed
  | barred
  | spaced
  | word (rest : Text)
deriving DecidableEq

namespace MarkerState

/-- The first letter of a marker word. -/
def letter (letters : CaseFold) (c : Char) : Option MarkerState :=
  if letters.fold c = 'd' then some (word "sml".toList)
  else if letters.fold c = 't' then some (word "ool".toList)
  else none

/-- The next character. -/
def step (letters : CaseFold) : MarkerState → Char → Option MarkerState
  | opened, c =>
    if isSpace c then some opened
    else if c = '/' then some slashed
    else if isBar c then some barred
    else none
  | slashed, c =>
    if isSpace c then some slashed
    else if isBar c then some barred
    else none
  | barred, c =>
    if isBar c then some barred
    else if isSpace c then some spaced
    else letter letters c
  | spaced, c => if isSpace c then some spaced else letter letters c
  | word [], _ => none
  | word (w :: rest), c => if letters.fold c = w ∧ c ≠ '<' then some (word rest) else none

end MarkerState

/-- `_MARKER_RE`, read character by character. -/
def marker (letters : CaseFold) : Recogniser Char MarkerState where
  opens := '<'
  start := .opened
  step := MarkerState.step letters
  final state := state == .word []
  step_opens state := by
    have hfold : letters.fold '<' = '<' := letters.fold_of_ne '<' (by decide)
    have hletter : MarkerState.letter letters '<' = none := by
      rw [MarkerState.letter, hfold]
      rfl
    cases state with
    | opened => rfl
    | slashed => rfl
    | barred => exact hletter
    | spaced => exact hletter
    | word rest =>
      cases rest with
      | nil => rfl
      | cons w rest => exact if_neg fun h => h.2 rfl
  step_final state c h := by
    rw [beq_iff_eq] at h
    rw [h]
    rfl

section Scan

variable (letters : CaseFold)

theorem head_of_dropWhile {p : Char → Bool} {text rest : Text} {c : Char}
    (h : text.dropWhile p = c :: rest) : p c = false := by
  have hne : text.dropWhile p ≠ [] := by simp [h]
  have hnot := List.head_dropWhile_not (p := p) hne
  simpa only [h, List.head_cons] using hnot

/-- After `\s*/?\s*` only bars go on. -/
theorem scan_opened (text : Text) :
    ∃ state, (state = .opened ∨ state = .slashed) ∧
      (marker letters).scan .opened text = (marker letters).scan state (afterOpening text) ∧
      ∀ c rest, afterOpening text = c :: rest →
        MarkerState.step letters state c = if isBar c then some .barred else none := by
  have hopened : (marker letters).scan .opened (text.dropWhile isSpace) =
      (marker letters).scan .opened text :=
    Recogniser.scan_dropWhile (fun c hc => if_pos hc) text
  by_cases hslash : ∃ rest, text.dropWhile isSpace = '/' :: rest
  · obtain ⟨rest, hrest⟩ := hslash
    have hafter : afterOpening text = rest.dropWhile isSpace := by
      rw [afterOpening, hrest, afterSlash]
    refine ⟨.slashed, Or.inr rfl, ?_, ?_⟩
    · rw [← hopened, hrest, hafter, Recogniser.scan_dropWhile fun c hc => if_pos hc]
      rfl
    · intro c rest' h
      rw [hafter] at h
      simp [MarkerState.step, head_of_dropWhile h]
  · have hafter : afterOpening text = text.dropWhile isSpace := by
      have hsame : afterSlash (text.dropWhile isSpace) = text.dropWhile isSpace := by
        rw [afterSlash]
        exact fun rest hrest => hslash ⟨rest, hrest⟩
      rw [afterOpening, hsame, List.dropWhile_idempotent]
    refine ⟨.opened, Or.inl rfl, by rw [hafter, hopened], ?_⟩
    intro c rest h
    have hc : c ≠ '/' := fun hc => hslash ⟨rest, by rw [← hafter, h, hc]⟩
    rw [hafter] at h
    simp [MarkerState.step, head_of_dropWhile h, hc]

/-- After the bars and the spaces behind them only a letter goes on. -/
theorem scan_barred (text : Text) :
    ∃ state, (state = .barred ∨ state = .spaced) ∧
      (marker letters).scan .barred text =
        (marker letters).scan state ((text.dropWhile isBar).dropWhile isSpace) ∧
      ∀ c rest, (text.dropWhile isBar).dropWhile isSpace = c :: rest →
        MarkerState.step letters state c = MarkerState.letter letters c := by
  have hbarred : (marker letters).scan .barred (text.dropWhile isBar) =
      (marker letters).scan .barred text :=
    Recogniser.scan_dropWhile (fun c hc => if_pos hc) text
  cases hbars : text.dropWhile isBar with
  | nil => exact ⟨.barred, Or.inl rfl, by rw [← hbarred, hbars]; rfl, by simp⟩
  | cons c rest =>
    have hbar : isBar c = false := head_of_dropWhile hbars
    cases hspace : isSpace c with
    | false =>
      rw [List.dropWhile_cons_of_neg (by simp [hspace])]
      refine ⟨.barred, Or.inl rfl, by rw [← hbarred, hbars], ?_⟩
      intro c' rest' h
      cases h
      simp [MarkerState.step, hbar, hspace]
    | true =>
      have hstep : MarkerState.step letters .barred c = some .spaced := by
        simp [MarkerState.step, hbar, hspace]
      rw [List.dropWhile_cons_of_pos hspace]
      refine ⟨.spaced, Or.inr rfl, ?_, ?_⟩
      · rw [← hbarred, hbars, Recogniser.scan_cons_some _ hstep,
          Recogniser.scan_dropWhile fun c hc => if_pos hc]
      · intro c' rest' h
        simp [MarkerState.step, head_of_dropWhile h]

/-- A word goes on with its next letter, which is no opening bracket. -/
theorem step_word {w : Char} (hw : w ≠ '<') (word : Text) (c : Char) :
    (marker letters).step (.word (w :: word)) c
      = if letters.fold c = w then some (.word word) else none := by
  by_cases hc : letters.fold c = w
  · have hopen : c ≠ '<' := by
      rintro rfl
      rw [letters.fold_of_ne '<' (by decide)] at hc
      exact hw hc.symm
    rw [if_pos hc]
    exact if_pos ⟨hc, hopen⟩
  · rw [if_neg hc]
    exact if_neg fun h => hc h.1

/-- A word is read to its end where the text spells it. -/
theorem scan_word {word : Text} (hword : '<' ∉ word) (text : Text) :
    ((marker letters).scan (.word word) text).1 = .word [] ↔
      (text.take word.length).map letters.fold = word := by
  induction word generalizing text with
  | nil =>
    rw [Recogniser.scan_final (R := marker letters) rfl]
    simp
  | cons w word ih =>
    cases text with
    | nil => simp
    | cons c text =>
      rw [List.mem_cons, not_or] at hword
      have hstep := step_word letters (Ne.symm hword.1) word c
      by_cases hc : letters.fold c = w
      · rw [Recogniser.scan_cons_some _ (hstep.trans (if_pos hc)), ih hword.2]
        simp [hc]
      · rw [Recogniser.scan_cons_none _ (hstep.trans (if_neg hc))]
        simp [hc]

/-- A word goes on where the text spells a beginning of it. -/
theorem scan_word_left {word : Text} (hword : '<' ∉ word) (text : Text) :
    ((marker letters).scan (.word word) text).2 = [] ↔ text.map letters.fold <+: word := by
  induction word generalizing text with
  | nil =>
    rw [Recogniser.scan_final (R := marker letters) rfl]
    simp
  | cons w word ih =>
    cases text with
    | nil => simp
    | cons c text =>
      rw [List.mem_cons, not_or] at hword
      rw [List.map_cons, List.cons_prefix_cons]
      have hstep := step_word letters (Ne.symm hword.1) word c
      by_cases hc : letters.fold c = w
      · rw [Recogniser.scan_cons_some _ (hstep.trans (if_pos hc)), ih hword.2]
        simp [hc]
      · rw [Recogniser.scan_cons_none _ (hstep.trans (if_neg hc))]
        simp [hc]

theorem markerWords_eq : markerWords = [['d', 's', 'm', 'l'], ['t', 'o', 'o', 'l']] := rfl

/-- A letter begins one of the two words, or none. -/
theorem letter_cases (c : Char) :
    (letters.fold c = 'd' ∧ MarkerState.letter letters c = some (.word "sml".toList)) ∨
    (letters.fold c = 't' ∧ MarkerState.letter letters c = some (.word "ool".toList)) ∨
    (letters.fold c ≠ 'd' ∧ letters.fold c ≠ 't' ∧ MarkerState.letter letters c = none) := by
  by_cases hd : letters.fold c = 'd'
  · exact .inl ⟨hd, if_pos hd⟩
  · by_cases ht : letters.fold c = 't'
    · exact .inr (.inl ⟨ht, by rw [MarkerState.letter, if_neg hd, if_pos ht]⟩)
    · exact .inr (.inr ⟨hd, ht, by rw [MarkerState.letter, if_neg hd, if_neg ht]⟩)

theorem wordAt_iff {state : MarkerState} {text : Text} (hstate : state ≠ .word [])
    (hstep : ∀ c rest, text = c :: rest →
      MarkerState.step letters state c = MarkerState.letter letters c) :
    wordAt letters text = true ↔ ((marker letters).scan state text).1 = .word [] := by
  cases text with
  | nil => simp [wordAt, markerWords_eq, hstate]
  | cons c rest =>
    have hstep : (marker letters).step state c = MarkerState.letter letters c := hstep c rest rfl
    rcases letter_cases letters c with ⟨hd, hletter⟩ | ⟨ht, hletter⟩ | ⟨hd, ht, hletter⟩
    · rw [Recogniser.scan_cons_some _ (hstep.trans hletter), scan_word letters (by decide)]
      simp [wordAt, markerWords_eq, hd]
    · rw [Recogniser.scan_cons_some _ (hstep.trans hletter), scan_word letters (by decide)]
      simp [wordAt, markerWords_eq, ht]
    · rw [Recogniser.scan_cons_none _ (hstep.trans hletter)]
      simp [wordAt, markerWords_eq, hd, ht, hstate]

theorem markerAt_eq (text : Text) : markerAt letters text = (marker letters).begins text := by
  cases text with
  | nil => rfl
  | cons c text =>
    rw [markerAt, Recogniser.begins_cons]
    congr 1
    obtain ⟨state, hstate, hscan, hstep⟩ := scan_opened letters text
    show _ = (((marker letters).scan .opened text).1 == .word [])
    rw [hscan]
    cases hafter : afterOpening text with
    | nil => rcases hstate with rfl | rfl <;> rfl
    | cons bar rest =>
      show (isBar bar && wordAt letters ((rest.dropWhile isBar).dropWhile isSpace)) = _
      have hbar : (marker letters).step state bar = if isBar bar then some .barred else none :=
        hstep bar rest hafter
      cases h : isBar bar with
      | false =>
        rw [Recogniser.scan_cons_none _ (by rw [hbar, h]; rfl)]
        rcases hstate with rfl | rfl <;> rfl
      | true =>
        have hbarred : (marker letters).step state bar = some .barred := by
          rw [hbar, h]
          rfl
        rw [Recogniser.scan_cons_some _ hbarred]
        obtain ⟨behind, hbehind, hscan', hstep'⟩ := scan_barred letters rest
        have hne : behind ≠ .word [] := by rcases hbehind with rfl | rfl <;> simp
        rw [hscan', Bool.true_and, Bool.eq_iff_iff, beq_iff_eq]
        exact wordAt_iff letters hne hstep'

theorem searchMarker_eq (text : Text) : searchMarker letters text = (marker letters).find text := by
  induction text with
  | nil => rfl
  | cons c text ih => rw [searchMarker, Recogniser.find, markerAt_eq, ih]

theorem stripToolMarkup_some (text : Text) :
    stripToolMarkup letters (some text) = (marker letters).before text := by
  rw [stripToolMarkup, searchMarker_eq, Recogniser.before]
  cases (marker letters).find text <;> rfl

theorem containsToolMarkup_iff (text : Text) :
    containsToolMarkup letters (some text) = true ↔ (marker letters).HasMark text := by
  rw [containsToolMarkup, searchMarker_eq, ← not_iff_not, ← Recogniser.find_none_iff]
  cases text with
  | nil => exact iff_of_true (by simp) rfl
  | cons c text => simp

/-- What `strip_tool_markup` leaves has no marker. -/
theorem not_hasMark_strip (text : Option Text) :
    ¬ (marker letters).HasMark (stripToolMarkup letters text) := by
  cases text with
  | none => exact Recogniser.not_hasMark_of_opens (by simp [stripToolMarkup])
  | some text =>
    rw [stripToolMarkup_some]
    exact Recogniser.not_hasMark_before text

/-! ### The partial marker -/

/-- All the partial pattern knows: `re.IGNORECASE` has one letter more. -/
def isPlain (c : Char) : Bool := c != 'ſ'

theorem isPlain_iff {c : Char} : isPlain c = true ↔ c ≠ 'ſ' := by simp [isPlain]

theorem fold_of_plain {text : Text} (h : 'ſ' ∉ text) :
    text.map letters.fold = text.map Char.toLower :=
  List.map_congr_left fun c hc => letters.fold_of_ne c fun heq => h (heq ▸ hc)

omit letters in
theorem mem_dropWhile {p : Char → Bool} {c : Char} (hc : p c = false) (text : Text) :
    c ∈ text.dropWhile p ↔ c ∈ text := by
  induction text with
  | nil => rfl
  | cons d text ih =>
    cases hd : p d with
    | false => rw [List.dropWhile_cons_of_neg (by simp [hd])]
    | true =>
      have hne : c ≠ d := by
        rintro rfl
        rw [hc] at hd
        cases hd
      rw [List.dropWhile_cons_of_pos hd, ih]
      simp [hne]

omit letters in
theorem mem_afterOpening (text : Text) : 'ſ' ∈ afterOpening text ↔ 'ſ' ∈ text := by
  have hslash : ∀ text, 'ſ' ∈ afterSlash text ↔ 'ſ' ∈ text := by
    intro text
    unfold afterSlash
    split
    · simp
    · rfl
  rw [afterOpening, mem_dropWhile (by decide), hslash, mem_dropWhile (by decide)]

/-- The letters after the bars are read to their end where they begin a marker word. -/
theorem scan_letters {state : MarkerState} {text : Text}
    (hstep : ∀ c rest, text = c :: rest →
      MarkerState.step letters state c = MarkerState.letter letters c) :
    ((marker letters).scan state text).2 = [] ↔
      ∃ word ∈ markerWords, text.map letters.fold <+: word := by
  cases text with
  | nil => simp [markerWords_eq]
  | cons c rest =>
    have hstep : (marker letters).step state c = MarkerState.letter letters c := hstep c rest rfl
    rcases letter_cases letters c with ⟨hd, hletter⟩ | ⟨ht, hletter⟩ | ⟨hd, ht, hletter⟩
    · rw [Recogniser.scan_cons_some _ (hstep.trans hletter), scan_word_left letters (by decide)]
      simp [markerWords_eq, hd]
    · rw [Recogniser.scan_cons_some _ (hstep.trans hletter), scan_word_left letters (by decide)]
      simp [markerWords_eq, ht]
    · rw [Recogniser.scan_cons_none _ (hstep.trans hletter)]
      simp [markerWords_eq, hd, ht]

/-- The test on the word of a partial marker: it begins a marker word, in plain letters. -/
theorem partialWord_iff (word : Text) :
    word.length ≤ 4 ∧ word.all isAsciiLetter = true ∧
        (word = [] ∨ ∃ w ∈ markerWords, word.map Char.toLower <+: w) ↔
      (∃ w ∈ markerWords, word.map letters.fold <+: w) ∧ 'ſ' ∉ word := by
  constructor
  · rintro ⟨-, hall, hword⟩
    have hplain : 'ſ' ∉ word := fun hmem => by
      cases List.all_eq_true.mp hall _ hmem
    rw [fold_of_plain letters hplain]
    refine ⟨?_, hplain⟩
    rcases hword with rfl | hword
    · simp [markerWords_eq]
    · exact hword
  · rintro ⟨hword, hplain⟩
    rw [fold_of_plain letters hplain] at hword
    refine ⟨?_, ?_, Or.inr hword⟩
    · obtain ⟨w, hw, hprefix⟩ := hword
      have hfour : ∀ w ∈ markerWords, w.length = 4 := by decide
      have hle := hprefix.length_le
      rwa [List.length_map, hfour w hw] at hle
    · obtain ⟨w, hw, hprefix⟩ := hword
      have hlower : ∀ w ∈ markerWords, ∀ c ∈ w, c.isLower = true := by
        simp [markerWords_eq]
      rw [List.all_eq_true]
      intro c hc
      have hmem : c.toLower ∈ w := hprefix.subset (List.mem_map_of_mem hc)
      rw [isAsciiLetter, ← Char.isLower_toLower_eq_isAlpha]
      exact hlower w hw _ hmem

theorem partialMarkerAt_iff (text : Text) :
    partialMarkerAt text = true ↔
      ((marker letters).scan .opened text).2 = [] ∧ 'ſ' ∉ text := by
  obtain ⟨state, -, hscan, hstep⟩ := scan_opened letters text
  rw [hscan, ← mem_afterOpening, partialMarkerAt]
  cases hafter : afterOpening text with
  | nil => simp
  | cons bar rest =>
    have hbar : (marker letters).step state bar = if isBar bar then some .barred else none :=
      hstep bar rest hafter
    cases h : isBar bar with
    | false =>
      have hspace : isSpace bar = false := head_of_dropWhile hafter
      rw [Recogniser.scan_cons_none _ (by rw [hbar, h]; rfl)]
      simp [h, hspace]
    | true =>
      have hne : 'ſ' ≠ bar := by
        rintro rfl
        cases h
      obtain ⟨behind, -, hscan', hstep'⟩ := scan_barred letters rest
      have hbarred : (marker letters).step state bar = some .barred := by
        rw [hbar, h]
        rfl
      rw [Recogniser.scan_cons_some _ hbarred, hscan', scan_letters letters hstep',
        List.mem_cons, not_or,
        ← mem_dropWhile (p := isBar) (c := 'ſ') (by decide),
        ← mem_dropWhile (p := isSpace) (c := 'ſ') (by decide)]
      simpa [h, hne, and_assoc] using
        partialWord_iff letters ((rest.dropWhile isBar).dropWhile isSpace)

theorem rfindOpening_eq (text : Text) : rfindOpening text = (marker letters).splitLast text := by
  induction text with
  | nil => rfl
  | cons c text ih =>
    rw [rfindOpening, Recogniser.splitLast, ih]
    cases (marker letters).splitLast text <;> rfl

/-- What the guard lets through and what it holds back. -/
theorem partialMarkerStart_eq (text : Text) :
    (partialMarkerStart text).getD (text, []) = (marker letters).hold isPlain text := by
  rw [partialMarkerStart, Recogniser.hold, rfindOpening_eq letters]
  cases (marker letters).splitLast text with
  | none => rfl
  | some found =>
    have hplain : ('<' :: found.2).all isPlain = true ↔ 'ſ' ∉ found.2 := by
      rw [List.all_cons, Bool.and_eq_true, and_iff_right (show isPlain '<' = true by decide),
        List.all_eq_true]
      exact ⟨fun h hmem => isPlain_iff.mp (h _ hmem) rfl,
        fun h c hc => isPlain_iff.mpr fun heq => h (heq ▸ hc)⟩
    have hiff : partialMarkerAt found.2 = true ↔
        ((marker letters).scan (marker letters).start found.2).2 = [] ∧
          ((marker letters).opens :: found.2).all isPlain = true := by
      rw [partialMarkerAt_iff letters, ← hplain]
      rfl
    show (if partialMarkerAt found.2 then _ else none : Option (Text × Text)).getD _ =
      if _ ∧ _ then (found.1, '<' :: found.2) else (text, [])
    by_cases hpartial : partialMarkerAt found.2 = true
    · rw [if_pos hpartial, if_pos (hiff.mp hpartial)]
      rfl
    · rw [if_neg hpartial, if_neg fun h => hpartial (hiff.mpr h)]
      rfl

end Scan

/-! ### The guard as a filter -/

/-- Where the guard stands as a filter. -/
def DsmlStreamGuard.Stands (guard : DsmlStreamGuard) : Recogniser.Passage Char → Prop
  | .letting pending => guard = ⟨pending, [], false⟩
  | .keeping kept => guard.pending = [] ∧ guard.capturing = true ∧ guard.capturedText = kept

namespace DsmlStreamGuard

variable {guard : DsmlStreamGuard} {p : Recogniser.Passage Char}

theorem stands_init : DsmlStreamGuard.init.Stands (.letting []) := rfl

/-- `feed` is the filter of the marker, which knows plain letters only. -/
theorem Stands.feed (h : guard.Stands p) (letters : CaseFold) (chunk : Text) :
    (guard.feed letters chunk).1 = ((marker letters).feed isPlain p chunk).1 ∧
      (guard.feed letters chunk).2.Stands ((marker letters).feed isPlain p chunk).2 := by
  cases p with
  | keeping kept =>
    obtain ⟨hpending, hcapturing, hkept⟩ := h
    rw [DsmlStreamGuard.feed, if_pos hcapturing]
    exact ⟨rfl, hpending, hcapturing, by simp [capturedText, ← hkept]⟩
  | letting pending =>
    cases h
    rw [DsmlStreamGuard.feed, if_neg (by simp)]
    simp only [searchMarker_eq, Recogniser.feed]
    cases hfind : (marker letters).find (pending ++ chunk) with
    | some found => exact ⟨rfl, rfl, rfl, by simp [capturedText]⟩
    | none =>
      rw [← partialMarkerStart_eq]
      cases partialMarkerStart (pending ++ chunk) with
      | none => exact ⟨rfl, rfl⟩
      | some found => exact ⟨rfl, rfl⟩

theorem Stands.finish (h : guard.Stands p) : guard.finish.1 = p.rest := by
  cases p with
  | keeping kept => exact if_pos h.2.1
  | letting pending =>
    cases h
    rfl

theorem Stands.captured (h : guard.Stands p) : guard.capturedText = p.kept := by
  cases p with
  | keeping kept => exact h.2.2
  | letting pending =>
    cases h
    rfl

end DsmlStreamGuard

end GreenGarden
