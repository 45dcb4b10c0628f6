/-
GreenGarden/Leak.lean

What the user sees of a `stream_chat` call.  Every streaming round has a guard
of its own, so a round shows its text up to the first marker (`visible`), and
the user reads one round's text after the other.  Tool-call markup gets through
in exactly two ways: a chunk ends inside the round's first marker behind a `ſ`,
which the guard's partial pattern does not know, or a marker begins in what one
round shows and ends in what a later round shows (`markup_hidden_iff`).
-/
import GreenGarden.Conversation

namespace GreenGarden

open Recogniser

/-! ### One round -/

/-- The text of a delta, where it has some. -/
def Delta.piece (delta : Delta) : Option Text :=
  match orDefault delta.content [] with
  | [] => none
  | chunk => some chunk

/-- The pieces of text that a reply arrives in. -/
def StreamReply.pieces (reply : StreamReply) : List Text :=
  reply.chunks.filterMap fun chunk => chunk.bind Delta.piece

/-- The text of a reply before its first marker. -/
def StreamReply.visible (reply : StreamReply) : Text :=
  stripToolMarkup ignoreCase (some reply.pieces.flatten)

/-- The locals of `_stream_completion` after the pieces so far: the guard stands where the filter
does, and the text collected is the text yielded. -/
structure Streaming.Follows (s : Streaming) (pieces : List Text) (p : Passage Char) : Prop where
  stands : s.guard.Stands p
  tracks : (marker ignoreCase).Tracks isPlain pieces s.yielded.flatten p
  text : s.text = s.yielded.flatten
  no_empty : [] ∉ s.yielded

namespace Streaming

variable {s : Streaming} {pieces : List Text} {p : Passage Char}

theorem follows_init : Streaming.init.Follows [] (.letting []) where
  stands := DsmlStreamGuard.stands_init
  tracks := tracks_nil isPlain
  text := rfl
  no_empty := List.not_mem_nil

theorem Follows.setPartialCalls (h : s.Follows pieces p) (calls : PartialCalls) :
    { s with partialCalls := calls }.Follows pieces p :=
  ⟨h.stands, h.tracks, h.text, h.no_empty⟩

theorem Follows.feedContent (h : s.Follows pieces p) (delta : Delta) :
    ∃ p', (s.feedContent delta.content).Follows (pieces ++ delta.piece.toList) p' := by
  rw [Streaming.feedContent, Delta.piece]
  cases orDefault delta.content [] with
  | nil => exact ⟨p, by simpa using h⟩
  | cons c rest =>
    obtain ⟨hsafe, hstands⟩ := h.stands.feed ignoreCase (c :: rest)
    have htracks := h.tracks.feed (c :: rest)
    rw [← hsafe] at htracks
    refine ⟨((marker ignoreCase).feed isPlain p (c :: rest)).2, ?_⟩
    dsimp only
    split
    · rename_i guard hfeed
      rw [hfeed] at hstands htracks
      exact ⟨hstands, by simpa using htracks, h.text, h.no_empty⟩
    · rename_i safe guard hne hfeed
      rw [hfeed] at hstands htracks
      refine ⟨hstands, by simpa using htracks, by simp [h.text], ?_⟩
      have hsafe : [] ≠ safe := fun heq => hne heq.symm
      simp [h.no_empty, hsafe]

theorem Follows.onChunk (h : s.Follows pieces p) (chunk : Option Delta) :
    ∃ p', (s.onChunk chunk).Follows (pieces ++ (chunk.bind Delta.piece).toList) p' := by
  cases chunk with
  | none => exact ⟨p, by simpa [Streaming.onChunk] using h⟩
  | some delta => exact (h.setPartialCalls _).feedContent delta

theorem Follows.foldl (h : s.Follows pieces p) (chunks : List (Option Delta)) :
    ∃ p', (chunks.foldl Streaming.onChunk s).Follows
      (pieces ++ chunks.filterMap fun chunk => chunk.bind Delta.piece) p' := by
  induction chunks generalizing s pieces p with
  | nil => exact ⟨p, by simpa using h⟩
  | cons chunk chunks ih =>
    obtain ⟨p', hchunk⟩ := h.onChunk chunk
    obtain ⟨last, hlast⟩ := ih hchunk
    refine ⟨last, ?_⟩
    rw [List.foldl_cons]
    convert hlast using 1
    rw [List.filterMap_cons, List.append_assoc]
    cases chunk.bind Delta.piece <;> rfl

end Streaming

/-- The round yields no empty text, and its result has the text it yielded. -/
theorem streamCompletion_text (newId : ℕ → Text) (reply : StreamReply) :
    [] ∉ (streamCompletion newId reply).1 ∧
      ∀ result, (streamCompletion newId reply).2 = .ok result →
        result.text = (streamCompletion newId reply).1.flatten := by
  obtain ⟨p, hfollows⟩ := Streaming.follows_init.foldl reply.chunks
  rw [streamCompletion]
  cases reply.failure with
  | some e => exact ⟨hfollows.no_empty, fun result h => by cases h⟩
  | none =>
    dsimp only
    split
    · refine ⟨hfollows.no_empty, fun result h => ?_⟩
      cases h
      exact hfollows.text
    · rename_i tail guard hne hfinish
      have htail : [] ≠ tail := fun heq => hne heq.symm
      refine ⟨by simp [hfollows.no_empty, htail], fun result h => ?_⟩
      cases h
      simp [hfollows.text]

/-- What one round shows: with the end it may still hold back when the stream breaks off, the text
before the first marker, unless a piece cuts that marker. -/
theorem streamCompletion_shows (newId : ℕ → Text) (reply : StreamReply) :
    ((marker ignoreCase).Cut isPlain reply.pieces →
      (marker ignoreCase).HasMark (streamCompletion newId reply).1.flatten) ∧
    (¬ (marker ignoreCase).Cut isPlain reply.pieces →
      ∃ held, (streamCompletion newId reply).1.flatten ++ held = reply.visible ∧
        (held = [] ∨ held.head? = some '<') ∧
        ((streamCompletion newId reply).2.isOk = true → held = [])) := by
  obtain ⟨p, hfollows⟩ := Streaming.follows_init.foldl reply.chunks
  rw [List.nil_append] at hfollows
  have hmark := hfollows.tracks.hasMark_iff
  rw [streamCompletion, StreamReply.visible, stripToolMarkup_some]
  cases reply.failure with
  | some e =>
    refine ⟨hmark.mpr, fun hcut => ?_⟩
    obtain ⟨hshown, hheld⟩ := hfollows.tracks.shown hcut
    exact ⟨p.rest, hshown, hheld, fun h => by cases h⟩
  | none =>
    have hfinish := hfollows.stands.finish
    have hall : ∀ tail, tail = p.rest →
        ((marker ignoreCase).Cut isPlain reply.pieces → (marker ignoreCase).HasMark
          ((reply.chunks.foldl Streaming.onChunk Streaming.init).yielded.flatten ++ tail)) ∧
        (¬ (marker ignoreCase).Cut isPlain reply.pieces →
          (reply.chunks.foldl Streaming.onChunk Streaming.init).yielded.flatten ++ tail =
            (marker ignoreCase).before reply.pieces.flatten) := by
      rintro tail rfl
      exact ⟨fun hcut => (hmark.mpr hcut).append_right _,
        fun hcut => (hfollows.tracks.shown hcut).1⟩
    dsimp only
    split
    · rename_i guard hnil
      rw [hnil] at hfinish
      obtain ⟨hcut, hshown⟩ := hall [] hfinish
      rw [List.append_nil] at hcut hshown
      exact ⟨hcut, fun h => ⟨[], by rw [List.append_nil, hshown h], Or.inl rfl, fun _ => rfl⟩⟩
    · rename_i tail guard _ htail
      rw [htail] at hfinish
      obtain ⟨hcut, hshown⟩ := hall tail hfinish
      rw [List.flatten_append, List.flatten_singleton]
      exact ⟨hcut, fun h => ⟨[], by rw [List.append_nil, hshown h], Or.inl rfl, fun _ => rfl⟩⟩

/-! ### All rounds -/

section Rounds

variable (parse : MarkupParser) (b : Behaviour)

/-- The replies of the streaming rounds that take place. -/
def received : List ℕ → List StreamReply
  | [] => []
  | round :: rounds => b.streaming round :: if goesOn parse b round then received rounds else []

/-- The streamed replies of the call. -/
def heard (message : Text) (conversation : List HistoryItem) : List StreamReply :=
  if b.configured && (runToolRounds parse b (List.range maxToolRounds)
      (buildMessages message conversation)).result.isOk then
    received parse b (List.range (maxStreamToolRounds + 1))
  else []

theorem goesOn_isOk {round : ℕ} (h : goesOn parse b round = true) :
    (streamedReply b round).2.isOk = true := by
  rw [goesOn] at h
  cases hreply : (streamedReply b round).2 with
  | error e => simp [hreply] at h
  | ok result => rfl

/-- A round whose first marker is cut shows a marker. -/
theorem streamRounds_cut (rounds : List ℕ) (messages : List Message) (emitted : Bool)
    (h : ∃ reply ∈ received parse b rounds, (marker ignoreCase).Cut isPlain reply.pieces) :
    (marker ignoreCase).HasMark
      (streamRounds parse b rounds messages emitted).yielded.flatten := by
  induction rounds generalizing messages emitted with
  | nil =>
    obtain ⟨reply, hmem, -⟩ := h
    cases hmem
  | cons round rounds ih =>
    have hfirst := (streamCompletion_shows (b.newToolCallId (streamTurn round))
      (b.streaming round)).1
    obtain ⟨reply, hmem, hcut⟩ := h
    rw [received, List.mem_cons] at hmem
    rcases streamRounds_cons parse b round rounds messages emitted with
      ⟨hstop, outcome, heq, -⟩ | ⟨hgo, result, calls, messages', -, -, -, heq⟩
    · rw [hstop] at hmem
      rw [heq]
      rcases hmem with rfl | hmem
      · exact hfirst hcut
      · cases hmem
    · rw [hgo] at hmem
      rw [heq]
      show (marker ignoreCase).HasMark (List.flatten (_ ++ _))
      rw [List.flatten_append]
      rcases hmem with rfl | hmem
      · exact (hfirst hcut).append_right _
      · exact (ih messages' _ ⟨reply, hmem, hcut⟩).append_left _

/-- Where no marker is cut the rounds show their visible texts one after the other, but for an end
that the last one still holds back when it breaks off. -/
theorem streamRounds_visible (rounds : List ℕ) (messages : List Message) (emitted : Bool)
    (h : ∀ reply ∈ received parse b rounds, ¬ (marker ignoreCase).Cut isPlain reply.pieces) :
    ∃ held, (streamRounds parse b rounds messages emitted).yielded.flatten ++ held =
        ((received parse b rounds).map StreamReply.visible).flatten ∧
      (held = [] ∨ held.head? = some '<') ∧ ¬ (marker ignoreCase).HasMark held ∧
      ((streamRounds parse b rounds messages emitted).result.isOk = true → held = []) := by
  induction rounds generalizing messages emitted with
  | nil => exact ⟨[], rfl, Or.inl rfl, not_hasMark_of_opens (by simp), fun _ => rfl⟩
  | cons round rounds ih =>
    obtain ⟨held, hshown, hhead, hend⟩ := (streamCompletion_shows
      (b.newToolCallId (streamTurn round)) (b.streaming round)).2 (h _ (by simp [received]))
    rw [received]
    rcases streamRounds_cons parse b round rounds messages emitted with
      ⟨hstop, outcome, heq, hflags⟩ | ⟨hgo, result, calls, messages', -, -, -, heq⟩
    · rw [hstop, heq]
      refine ⟨held, by simpa using hshown, hhead, fun hmark => ?_, fun hok => ?_⟩
      · have hall := hmark.append_left (streamedReply b round).1.flatten
        rw [hshown] at hall
        exact not_hasMark_strip ignoreCase _ hall
      · cases outcome with
        | error e => cases hok
        | ok flags => exact hend (hflags flags rfl).1
    · rw [received, hgo] at h
      obtain ⟨held', hshown', hhead', hclean, hend'⟩ := ih messages'
        (emitted || !(streamedReply b round).1.isEmpty) fun reply hreply =>
          h reply (List.mem_cons_of_mem _ hreply)
      rw [hend (goesOn_isOk parse b hgo), List.append_nil] at hshown
      rw [hgo, heq]
      refine ⟨held', ?_, hhead', hclean, hend'⟩
      show List.flatten (_ ++ _) ++ held' = _
      rw [List.flatten_append, List.append_assoc, hshown', if_pos rfl, List.map_cons,
        List.flatten_cons, ← hshown]

theorem hasMark_streamRounds_iff (rounds : List ℕ) (messages : List Message) (emitted : Bool) :
    (marker ignoreCase).HasMark
        (streamRounds parse b rounds messages emitted).yielded.flatten ↔
      (∃ reply ∈ received parse b rounds, (marker ignoreCase).Cut isPlain reply.pieces) ∨
        (marker ignoreCase).Straddles ((received parse b rounds).map StreamReply.visible) := by
  by_cases hcut : ∃ reply ∈ received parse b rounds,
    (marker ignoreCase).Cut isPlain reply.pieces
  · exact iff_of_true (streamRounds_cut parse b rounds messages emitted hcut) (Or.inl hcut)
  · have hnone : ∀ reply ∈ received parse b rounds,
        ¬ (marker ignoreCase).Cut isPlain reply.pieces :=
      fun reply hmem h => hcut ⟨reply, hmem, h⟩
    obtain ⟨held, hshown, hhead, hclean, -⟩ :=
      streamRounds_visible parse b rounds messages emitted hnone
    have hvisible : ¬ ∃ text ∈ (received parse b rounds).map StreamReply.visible,
        (marker ignoreCase).HasMark text := by
      rintro ⟨text, hmem, hmark⟩
      obtain ⟨reply, -, rfl⟩ := List.mem_map.mp hmem
      exact not_hasMark_strip ignoreCase _ hmark
    rw [← hasMark_append_opens hhead hclean, hshown, hasMark_flatten_iff, or_iff_right hvisible,
      or_iff_right hcut]

/-- The flag `emitted` says whether anything was yielded. -/
theorem streamRounds_emitted (rounds : List ℕ) (messages : List Message) (emitted : Bool)
    {flags : Bool × Bool} (h : (streamRounds parse b rounds messages emitted).result = .ok flags) :
    flags.1 = (emitted || !(streamRounds parse b rounds messages emitted).yielded.isEmpty) := by
  induction rounds generalizing messages emitted with
  | nil =>
    cases h
    simp [streamRounds]
  | cons round rounds ih =>
    rcases streamRounds_cons parse b round rounds messages emitted with
      ⟨-, outcome, heq, hflags⟩ | ⟨-, result, calls, messages', -, -, -, heq⟩
    · rw [heq] at h ⊢
      exact (hflags flags h).2
    · rw [heq] at h ⊢
      rw [ih messages' _ h]
      show _ = (emitted || !List.isEmpty (_ ++ _))
      cases (streamedReply b round).1 <;> simp

/-! ### The call -/

variable (message : Text) (conversation : List HistoryItem)

/-- A call yields nothing, or what its streaming rounds yield; the fallback stands for all of it,
never behind it. -/
theorem streamChat_yielded :
    (heard parse b message conversation = [] ∧
      (streamChat parse b message conversation).yielded = []) ∨
    ∃ messages tail, heard parse b message conversation =
        received parse b (List.range (maxStreamToolRounds + 1)) ∧
      (streamChat parse b message conversation).yielded =
        (streamRounds parse b (List.range (maxStreamToolRounds + 1)) messages false).yielded ++
          tail ∧
      (tail = [] ∨ tail = [fallbackReply] ∧
        (streamRounds parse b (List.range (maxStreamToolRounds + 1)) messages false).yielded =
          []) := by
  rw [heard, streamChat]
  cases b.configured with
  | false => exact Or.inl ⟨rfl, rfl⟩
  | true =>
    rw [if_pos rfl]
    dsimp only
    cases (runToolRounds parse b (List.range maxToolRounds)
      (buildMessages message conversation)).result with
    | error e => exact Or.inl ⟨rfl, rfl⟩
    | ok messages =>
      refine Or.inr ⟨messages, ?_⟩
      rw [if_pos (show (true && (Except.ok messages : Except ChatError _).isOk) = true from rfl)]
      dsimp only
      split
      · exact ⟨[], rfl, (List.append_nil _).symm, Or.inl rfl⟩
      · rename_i emitted suppressed hresult
        have hemitted := streamRounds_emitted parse b _ messages false hresult
        refine ⟨_, rfl, rfl, ?_⟩
        split
        · rename_i hfallback
          rw [Bool.and_eq_true, Bool.not_eq_true'] at hfallback
          rw [hfallback.2, Bool.false_or, eq_comm, Bool.not_eq_false', List.isEmpty_iff] at hemitted
          exact Or.inr ⟨rfl, hemitted⟩
        · exact Or.inl rfl

theorem hasMark_streamChat_iff :
    (marker ignoreCase).HasMark (streamChat parse b message conversation).yielded.flatten ↔
      (∃ reply ∈ heard parse b message conversation,
        (marker ignoreCase).Cut isPlain reply.pieces) ∨
      (marker ignoreCase).Straddles
        ((heard parse b message conversation).map StreamReply.visible) := by
  rcases streamChat_yielded parse b message conversation with
    ⟨hheard, hnone⟩ | ⟨messages, tail, hheard, hyielded, htail⟩
  · rw [hheard, hnone, hasMark_flatten_iff]
    simp
  · rw [hheard, hyielded, ← hasMark_streamRounds_iff parse b _ messages false]
    rcases htail with rfl | ⟨rfl, hempty⟩
    · rw [List.append_nil]
    · rw [hempty]
      have hfallback : '<' ∉ fallbackReply := by decide +kernel
      refine iff_of_false (not_hasMark_of_opens ?_) (not_hasMark_of_opens (by simp))
      rw [List.nil_append, List.flatten_singleton]
      exact hfallback

/-- No tool-call markup reaches the user exactly when no piece of a streamed reply cuts the
reply's first marker behind a `ſ`, and no marker begins in what one round shows and ends in what
a later one shows. -/
theorem markup_hidden_iff :
    containsToolMarkup ignoreCase
        (some (streamChat parse b message conversation).yielded.flatten) = false ↔
      (∀ reply ∈ heard parse b message conversation,
        ¬ (marker ignoreCase).Cut isPlain reply.pieces) ∧
      ¬ (marker ignoreCase).Straddles
        ((heard parse b message conversation).map StreamReply.visible) := by
  rw [Bool.eq_false_iff, Ne, containsToolMarkup_iff, hasMark_streamChat_iff, not_or]
  simp only [not_exists, not_and]

end Rounds

/-! ### Markup across two rounds -/

/-- A reply with one piece of text and the given tool calls. -/
def onePiece (text : String) (toolCalls : List RawToolCall) : StreamReply :=
  ⟨[some ⟨toolCalls, some text.toList⟩], none⟩

/-- The first round shows `<｜` and calls a tool, the second shows `DSML`. -/
def twoHalves : Behaviour where
  configured := true
  routing _ := .ok ⟨none, []⟩
  streaming round :=
    if round = 0 then
      onePiece "<｜" [⟨some 0, some "call_1".toList, some ⟨some "check_stock".toList, none⟩⟩]
    else onePiece "DSML" []
  execute _ _ _ := .ok "{}".toList
  newToolCallId _ _ := "call_0".toList

theorem markup_shown :
    ¬ ∀ (parse : MarkupParser) (b : Behaviour) (message : Text)
      (conversation : List HistoryItem), containsToolMarkup ignoreCase
        (some (streamChat parse b message conversation).yielded.flatten) = false := by
  intro h
  have hhidden := h (fun _ _ => .ok []) twoHalves "hi".toList []
  have hshown : containsToolMarkup ignoreCase
      (some (streamChat (fun _ _ => .ok []) twoHalves "hi".toList []).yielded.flatten) = true := by
    decide +kernel
  rw [hshown] at hhidden
  cases hhidden

end GreenGarden
