/-
GreenGarden/Answer.lean

Replies that are suppressed.  When the last streaming round ends in markup
nobody can read, or still asks for tools, the user gets the fallback text, but
only if nothing at all was yielded: white space before the markup counts as an
answer.  `suppressed_answered_iff` says when that leaves the user with nothing
to read.
-/
import GreenGarden.Leak

namespace GreenGarden

open Recogniser

section Suppressed

variable (parse : MarkupParser) (b : Behaviour) (message : Text) (conversation : List HistoryItem)

/-- The call ends without an exception and its last streaming round was suppressed. -/
def Suppressed : Prop :=
  ∃ messages emitted, b.configured = true ∧
    (runToolRounds parse b (List.range maxToolRounds)
      (buildMessages message conversation)).result = .ok messages ∧
    (streamRounds parse b (List.range (maxStreamToolRounds + 1)) messages false).result =
      .ok (emitted, true)

/-- No round yields an empty text. -/
theorem streamRounds_no_empty (rounds : List ℕ) (messages : List Message) (emitted : Bool) :
    [] ∉ (streamRounds parse b rounds messages emitted).yielded := by
  induction rounds generalizing messages emitted with
  | nil => exact List.not_mem_nil
  | cons round rounds ih =>
    have hround := (streamCompletion_text (b.newToolCallId (streamTurn round))
      (b.streaming round)).1
    rcases streamRounds_cons parse b round rounds messages emitted with
      ⟨-, outcome, heq, -⟩ | ⟨-, result, calls, messages', -, -, -, heq⟩
    · rw [heq]
      exact hround
    · rw [heq]
      show [] ∉ _ ++ _
      rw [List.mem_append, not_or]
      exact ⟨hround, ih messages' _⟩

/-- A text with a marker in it can be read. -/
theorem exists_readable_of_hasMark {text : Text} (h : (marker ignoreCase).HasMark text) :
    ∃ c ∈ text, isSpace c = false := by
  obtain ⟨u, m, v, ⟨t, s, rfl, -, -⟩, rfl⟩ := h
  exact ⟨'<', by simp [marker], by decide⟩

variable {parse b message conversation}

/-- A suppressed call yields the fallback if its rounds yielded nothing, else what they yielded. -/
theorem Suppressed.yielded (h : Suppressed parse b message conversation) :
    ∃ messages, heard parse b message conversation =
        received parse b (List.range (maxStreamToolRounds + 1)) ∧
      (streamRounds parse b (List.range (maxStreamToolRounds + 1)) messages false).result.isOk =
        true ∧
      (streamChat parse b message conversation).yielded =
        if (streamRounds parse b (List.range (maxStreamToolRounds + 1)) messages false).yielded = []
        then [fallbackReply]
        else (streamRounds parse b (List.range (maxStreamToolRounds + 1)) messages
          false).yielded := by
  obtain ⟨messages, emitted, hconfigured, hrouted, hstreamed⟩ := h
  have hemitted := streamRounds_emitted parse b _ messages false hstreamed
  refine ⟨messages, ?_, by rw [hstreamed]; rfl, ?_⟩
  · rw [heard, hconfigured, hrouted]
    rfl
  · rw [streamChat, if_pos hconfigured]
    dsimp only
    rw [hrouted]
    dsimp only
    rw [hstreamed]
    dsimp only at hemitted ⊢
    rw [hemitted]
    cases (streamRounds parse b (List.range (maxStreamToolRounds + 1)) messages false).yielded with
    | nil => rfl
    | cons text texts => simp

/-- A suppressed reply leaves the user something to read exactly when its rounds show nothing at
all, so that the fallback is sent, or show something other than white space. -/
theorem suppressed_answered_iff (h : Suppressed parse b message conversation) :
    (∃ c ∈ (streamChat parse b message conversation).yielded.flatten, isSpace c = false) ↔
      (∃ reply ∈ heard parse b message conversation,
        (marker ignoreCase).Cut isPlain reply.pieces) ∨
      ((heard parse b message conversation).map StreamReply.visible).flatten = [] ∨
      ∃ c ∈ ((heard parse b message conversation).map StreamReply.visible).flatten,
        isSpace c = false := by
  obtain ⟨messages, hheard, hok, hyielded⟩ := h.yielded
  by_cases hcut : ∃ reply ∈ heard parse b message conversation,
    (marker ignoreCase).Cut isPlain reply.pieces
  · have hmark := (hasMark_streamChat_iff parse b message conversation).mpr (Or.inl hcut)
    exact iff_of_true (exists_readable_of_hasMark hmark) (Or.inl hcut)
  rw [or_iff_right hcut, hyielded, hheard]
  rw [hheard] at hcut
  obtain ⟨held, hshown, -, -, hheld⟩ := streamRounds_visible parse b
    (List.range (maxStreamToolRounds + 1)) messages false
    fun reply hmem hc => hcut ⟨reply, hmem, hc⟩
  rw [hheld hok, List.append_nil] at hshown
  rw [← hshown]
  by_cases hnone : (streamRounds parse b (List.range (maxStreamToolRounds + 1)) messages
    false).yielded = []
  · rw [if_pos hnone, hnone]
    have hfallback : ∃ c ∈ fallbackReply, isSpace c = false :=
      ⟨'X', by decide +kernel, by decide⟩
    exact iff_of_true (by simpa using hfallback) (Or.inl rfl)
  · rw [if_neg hnone]
    have hsome : (streamRounds parse b (List.range (maxStreamToolRounds + 1)) messages
        false).yielded.flatten ≠ [] := by
      intro hflat
      rw [List.flatten_eq_nil_iff] at hflat
      obtain ⟨text, htext⟩ := List.exists_mem_of_ne_nil _ hnone
      exact streamRounds_no_empty parse b _ messages false (hflat text htext ▸ htext)
    rw [or_iff_right hsome]

end Suppressed

/-! ### Markup after some text -/

/-- A behaviour that calls no tools and streams the given text, which ends in markup nobody can
read. -/
def leaks (text : String) : Behaviour where
  configured := true
  routing _ := .ok ⟨none, []⟩
  streaming _ := onePiece text []
  execute _ _ _ := .ok "{}".toList
  newToolCallId _ _ := "call_0".toList

theorem suppressed_leaks {text : String}
    (h : (streamRounds (fun _ _ => .ok []) (leaks text) (List.range (maxStreamToolRounds + 1))
      (buildMessages "hi".toList []) false).result = .ok (true, true)) :
    Suppressed (fun _ _ => .ok []) (leaks text) "hi".toList [] :=
  ⟨_, true, rfl, rfl, h⟩

theorem suppressed_answered_hello :
    ∃ c ∈ (streamChat (fun _ _ => .ok []) (leaks "Hello <｜DSML｜") "hi".toList []).yielded.flatten,
      isSpace c = false :=
  (suppressed_answered_iff (suppressed_leaks (by rfl))).mpr
    (Or.inr (Or.inr ⟨'H', by decide +kernel, by decide⟩))

/-- White space before the markup counts as an answer. -/
theorem suppressed_blank :
    ¬ ∀ (parse : MarkupParser) (b : Behaviour) (message : Text)
      (conversation : List HistoryItem), Suppressed parse b message conversation →
        ∃ c ∈ (streamChat parse b message conversation).yielded.flatten, isSpace c = false := by
  intro h
  obtain ⟨c, hc, hreadable⟩ := h (fun _ _ => .ok []) (leaks " <｜DSML｜") "hi".toList []
    (suppressed_leaks (by rfl))
  have hblank : (streamChat (fun _ _ => .ok []) (leaks " <｜DSML｜") "hi".toList
      []).yielded.flatten.all isSpace = true := by
    decide +kernel
  rw [List.all_eq_true.mp hblank c hc] at hreadable
  cases hreadable

end GreenGarden
