/-
GreenGarden/StreamGuard.lean

The stream guard against the functions on the whole text.  Letters are taken
over ASCII, so every letter of a marker is one the partial pattern knows, and no
chunk can cut a marker where the guard has lost sight of it.  What the guard
emits and captures therefore does not depend on the chunks: it is what
`strip_tool_markup` leaves and the text behind it, and the calls in the
captured text are the calls in the text.

Main result: `guard_eq_whole_text`.
-/
import GreenGarden.Dsml

namespace GreenGarden

open Pattern

/-! ### The whole text -/

/-- The text in front of the first marker, and the text from it on. -/
theorem searchMarker_split (letters : CaseFold) (text : Text) :
    text = ((searchMarker letters text).getD (text, [])).1 ++
      ((searchMarker letters text).getD (text, [])).2 ∧
    ∀ x y, ((searchMarker letters text).getD (text, [])).1 = x ++ y → y ≠ [] →
      markerAt letters (y ++ ((searchMarker letters text).getD (text, [])).2) = false := by
  induction text with
  | nil =>
    refine ⟨rfl, fun x y hxy hy => ?_⟩
    exact absurd (List.append_eq_nil_iff.mp hxy.symm).2 hy
  | cons c text ih =>
    obtain ⟨htext, hquiet⟩ := ih
    rw [searchMarker]
    cases hmarker : markerAt letters (c :: text) with
    | true =>
      refine ⟨rfl, fun x y hxy hy => ?_⟩
      exact absurd (List.append_eq_nil_iff.mp hxy.symm).2 hy
    | false =>
      have hpush : ∀ found : Option (Text × Text),
          ((found.map fun found => (c :: found.1, found.2)).getD (c :: text, [])) =
            (c :: (found.getD (text, [])).1, (found.getD (text, [])).2) := by
        intro found
        cases found <;> rfl
      rw [if_neg Bool.false_ne_true, hpush]
      refine ⟨by rw [List.cons_append, ← htext], fun x y hxy hy => ?_⟩
      cases x with
      | nil =>
        rw [List.nil_append] at hxy
        rw [← hxy, List.cons_append, ← htext, hmarker]
      | cons d x => exact hquiet x y (List.cons.inj hxy).2 hy

/-- The calls behind the first marker are the calls of the text. -/
theorem parse_eq_parse_rest (py : Python) (newId : ℕ → Text) {text rest : Text}
    (h : text = stripToolMarkup ignoreAsciiCase (some text) ++ rest) :
    parseDsmlToolCalls py newId (some rest) = parseDsmlToolCalls py newId (some text) := by
  obtain ⟨htext, hquiet⟩ := searchMarker_split ignoreAsciiCase text
  have hstrip : stripToolMarkup ignoreAsciiCase (some text) =
      ((searchMarker ignoreAsciiCase text).getD (text, [])).1 := by
    rw [stripToolMarkup]
    cases searchMarker ignoreAsciiCase text <;> rfl
  rw [hstrip] at h
  have hrest : ((searchMarker ignoreAsciiCase text).getD (text, [])).2 = rest :=
    List.append_cancel_left (htext.symm.trans h)
  rw [hrest] at hquiet
  have hparse := parse_append py newId hquiet
  rwa [← h, eq_comm] at hparse

/-! ### The chunks -/

namespace DsmlStreamGuard

/-- Feed the chunks one after the other. -/
def feedAll (letters : CaseFold) (guard : DsmlStreamGuard) : List Text → Text × DsmlStreamGuard
  | [] => ([], guard)
  | chunk :: chunks =>
    let fed := guard.feed letters chunk
    let later := fed.2.feedAll letters chunks
    (fed.1 ++ later.1, later.2)

/-- Feed the chunks to a fresh guard and finish. -/
def runGuard (letters : CaseFold) (chunks : List Text) : Text × DsmlStreamGuard :=
  let fed := init.feedAll letters chunks
  let finished := fed.2.finish
  (fed.1 ++ finished.1, finished.2)

theorem Stands.feedAll {letters : CaseFold} {guard : DsmlStreamGuard} {shown : Text}
    {p : Recogniser.Passage Char} {pieces : List Text} (h : guard.Stands p)
    (htracks : (marker letters).Tracks isPlain pieces shown p) (chunks : List Text) :
    ∃ p', (guard.feedAll letters chunks).2.Stands p' ∧
      (marker letters).Tracks isPlain (pieces ++ chunks)
        (shown ++ (guard.feedAll letters chunks).1) p' := by
  induction chunks generalizing guard shown p pieces with
  | nil =>
    rw [List.append_nil]
    exact ⟨p, h, (List.append_nil shown).symm ▸ htracks⟩
  | cons chunk chunks ih =>
    obtain ⟨hfed, hstands⟩ := h.feed letters chunk
    obtain ⟨p', hstands', htracks'⟩ := ih hstands (htracks.feed chunk)
    refine ⟨p', hstands', ?_⟩
    rw [← hfed, List.append_assoc, List.append_assoc] at htracks'
    exact htracks'

end DsmlStreamGuard

/-- A state that has only letters of a marker word before it. -/
def MarkerState.Spells : MarkerState → Prop
  | .word rest => ∀ c ∈ rest, c ∈ markerWords.flatten
  | _ => True

theorem MarkerState.Spells.step {letters : CaseFold} {state state' : MarkerState} {c : Char}
    (h : state.Spells) (hstep : MarkerState.step letters state c = some state') :
    state'.Spells := by
  have hletter : MarkerState.letter letters c = some state' → state'.Spells := by
    intro hletter
    rw [MarkerState.letter] at hletter
    by_cases hd : letters.fold c = 'd'
    · rw [if_pos hd, Option.some.injEq] at hletter
      rw [← hletter]
      simp [Spells, markerWords_eq]
    rw [if_neg hd] at hletter
    by_cases ht : letters.fold c = 't'
    · rw [if_pos ht, Option.some.injEq] at hletter
      rw [← hletter]
      simp [Spells, markerWords_eq]
    · rw [if_neg ht] at hletter
      cases hletter
  unfold MarkerState.step at hstep
  split at hstep
  · split_ifs at hstep <;> cases hstep <;> trivial
  · split_ifs at hstep <;> cases hstep <;> trivial
  · split_ifs at hstep
    · cases hstep
      trivial
    · cases hstep
      trivial
    · exact hletter hstep
  · split_ifs at hstep
    · cases hstep
      trivial
    · exact hletter hstep
  · cases hstep
  · split_ifs at hstep
    cases hstep
    exact fun c hc => h c (List.mem_cons_of_mem _ hc)

/-- Over ASCII letters no marker has a letter that the partial pattern does not know. -/
theorem not_cut_ascii (chunks : List Text) :
    ¬ (marker ignoreAsciiCase).Cut isPlain chunks := by
  apply Recogniser.not_cut_of_step (R := marker ignoreAsciiCase) (I := MarkerState.Spells)
  · trivial
  · exact fun state c state' h hstep => h.step hstep
  intro c hc
  have hlong : c = 'ſ' := by simpa [isPlain] using hc
  subst hlong
  refine ⟨by decide, fun state hstate => ?_⟩
  cases state with
  | opened => rfl
  | slashed => rfl
  | barred => rfl
  | spaced => rfl
  | word rest =>
    cases rest with
    | nil => rfl
    | cons w rest =>
      apply if_neg
      rintro ⟨rfl, -⟩
      have hmem := hstate _ List.mem_cons_self
      have hnot : ignoreAsciiCase.fold 'ſ' ∉ markerWords.flatten := by decide
      exact hnot hmem

/-- The calls of a parse, without the ids that were made up for them. -/
def withoutIds (calls : List ParsedToolCall) : List (Text × Text) :=
  calls.map fun call => (call.name, call.arguments)

theorem withoutIds_withIds (newId : ℕ → Text) (calls : List (Text × Text)) :
    withoutIds (withIds newId calls) = calls := by
  rw [withoutIds, withIds, List.map_map]
  exact List.zipIdx_map_fst 0 calls

/-- Made-up ids are all that two parses of a text differ in. -/
theorem parse_withoutIds (py : Python) (newId newId' : ℕ → Text) (text : Option Text) :
    (parseDsmlToolCalls py newId text).map withoutIds =
      (parseDsmlToolCalls py newId' text).map withoutIds := by
  cases text with
  | none => rfl
  | some text =>
    simp only [parseDsmlToolCalls]
    cases callsOf (invokeCall py) (finditer invokeRe text) with
    | error e => rfl
    | ok calls =>
      show (if calls ≠ [] then Except.ok (withIds newId calls) else _ : Except JsonError _).map _ =
        (if calls ≠ [] then Except.ok (withIds newId' calls) else _ : Except JsonError _).map _
      by_cases hcalls : calls ≠ []
      · rw [if_pos hcalls, if_pos hcalls]
        show Except.ok (withoutIds _) = Except.ok (withoutIds _)
        rw [withoutIds_withIds, withoutIds_withIds]
      · rw [if_neg hcalls, if_neg hcalls]
        cases callsOf (legacyCall py) (finditer (legacyCallRe py.isWord) text) with
        | error e => rfl
        | ok legacy =>
          show Except.ok (withoutIds _) = Except.ok (withoutIds _)
          rw [withoutIds_withIds, withoutIds_withIds]

/-- Whatever the chunks are, the guard emits what `strip_tool_markup` leaves of the whole text and
captures the rest, in which the same calls are. -/
theorem guard_eq_whole_text (py : Python) (chunks : List Text) :
    let text := chunks.flatten
    let emitted := (DsmlStreamGuard.runGuard ignoreAsciiCase chunks).1
    let captured := (DsmlStreamGuard.runGuard ignoreAsciiCase chunks).2.capturedText
    emitted = stripToolMarkup ignoreAsciiCase (some text) ∧
      containsToolMarkup ignoreAsciiCase (some emitted) = false ∧
      captured = text.drop emitted.length ∧
      emitted ++ captured = text ∧
      ∀ newId newId', (parseDsmlToolCalls py newId (some captured)).map withoutIds =
        (parseDsmlToolCalls py newId' (some text)).map withoutIds := by
  intro text emitted captured
  obtain ⟨p, hstands, htracks⟩ := DsmlStreamGuard.stands_init.feedAll
    (Recogniser.tracks_nil (R := marker ignoreAsciiCase) isPlain) chunks
  rw [List.nil_append, List.nil_append] at htracks
  have hcut := not_cut_ascii chunks
  have hemitted : emitted =
      (DsmlStreamGuard.init.feedAll ignoreAsciiCase chunks).1 ++ p.rest :=
    congrArg _ hstands.finish
  have hcaptured : captured = p.kept := hstands.captured
  have hstrip : emitted = stripToolMarkup ignoreAsciiCase (some text) := by
    rw [hemitted, (htracks.shown hcut).1, stripToolMarkup_some]
  have htext : emitted ++ captured = text := by
    rw [hemitted, hcaptured, htracks.kept hcut]
  refine ⟨hstrip, ?_, ?_, htext, fun newId newId' => ?_⟩
  · rw [← Bool.not_eq_true, containsToolMarkup_iff, hstrip]
    exact not_hasMark_strip ignoreAsciiCase (some text)
  · rw [← htext, List.drop_left]
  · rw [parse_withoutIds py newId newId', parse_eq_parse_rest py newId']
    rw [← hstrip, htext]

end GreenGarden
