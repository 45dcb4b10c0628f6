/-
GreenGarden/ChatStream.lean

The chat reply on the wire (`core/sse.py`, `features/chat/router.py`): every
text that `stream_chat` yields becomes one server-sent event with a JSON
object, and the stream ends with a `done` or an `error` event.

The session is closed inside the same `try`, after `done` has been sent, so an
exception there adds an `error` behind it; `SessionClose` says how the closing
went.

`events_read` is the round trip: whatever the pieces in which the bytes
arrive, the client reads the events that were sent, in their order.
`cut_stream_read` is what a client has seen of a stream that broke off.
-/
import GreenGarden.Chat
import GreenGarden.EventStream
import GreenGarden.Json
import Mathlib.Data.List.SplitLengths

namespace GreenGarden

open EventStream

/-! ### Events -/

/-- Encode one SSE `data:` frame with a JSON object body. -/
def sseJson (floatRepr : Text → Text) (payload : List (Text × Json)) : Text :=
  "data: ".toList ++ (Json.object payload).render floatRepr ++ "\n\n".toList

/-- A text delta from the model, a client-visible error, or the end. -/
inductive StreamEvent where
  | chunk (content : Text)
  | error (message : Text)
  | done
deriving DecidableEq

/-- The object of an event. -/
def StreamEvent.payload : StreamEvent → List (Text × Json)
  | .chunk content =>
      [("type".toList, .string "chunk".toList), ("content".toList, .string content)]
  | .error message =>
      [("type".toList, .string "error".toList), ("message".toList, .string message)]
  | .done => [("type".toList, .string "done".toList)]

/-- One event on the wire. -/
def sseEvent (floatRepr : Text → Text) (event : StreamEvent) : Text :=
  sseJson floatRepr event.payload

/-- How leaving the database session went. -/
inductive SessionClose where
  | closed
  | timedOut
  | raised
deriving DecidableEq

/-- What the `except` clauses see: an exception while the session is closed
takes the place of the one before. -/
def streamFailure (failure : Option ChatError) : SessionClose → Option ChatError
  | .closed => failure
  | .timedOut => some (.timeout [])
  | .raised => some .raised

/-- The message of the `except` clause that is taken. -/
def streamErrorMessage : ChatError → Text
  | .notConfigured _ => "Chat service is not configured".toList
  | .timeout _ => "Chat request timed out".toList
  | .runtime _ | .raised => "Chat request failed".toList

/-- `_stream_chat_events`, given what `stream_chat` did. -/
def streamChatEvents (outcome : Outcome) (closing : SessionClose) : List StreamEvent :=
  outcome.yielded.map .chunk ++
    (if outcome.failure = none then [.done] else []) ++
    (match streamFailure outcome.failure closing with
    | none => []
    | some e => [.error (streamErrorMessage e)])

/-- A `503`, or the texts of the response body, one for each event. -/
inductive ChatResponse where
  | unavailable (message : Text)
  | stream (body : List Text)

/-- `POST /chat/stream`. -/
def streamChatRoute (floatRepr : Text → Text) (parse : MarkupParser) (b : Behaviour)
    (closing : SessionClose) (message : Text) (conversation : List HistoryItem) : ChatResponse :=
  if b.configured then
    .stream ((streamChatEvents (streamChat parse b message conversation) closing).map
      (sseEvent floatRepr))
  else .unavailable "Chat service is not configured".toList

/-- The bytes of a response body. -/
def wire (body : List Text) : Bytes := utf8 body.flatten

/-! ### The client -/

/-- The event of a payload. -/
def StreamEvent.ofPayload : Json → Option StreamEvent
  | .object members =>
    match members.lookup "type".toList, members.lookup "content".toList,
        members.lookup "message".toList with
    | some (.string type), some (.string content), _ =>
        if type = "chunk".toList then some (.chunk content) else none
    | some (.string type), none, some (.string message) =>
        if type = "error".toList then some (.error message) else none
    | some (.string type), none, none => if type = "done".toList then some .done else none
    | _, _, _ => none
  | _ => none

/-- The event in the data of a server-sent event. -/
def readEvent (limit : ℕ) (data : Bytes) : Option StreamEvent := do
  let text ← decode data
  let payload ← (Json.loads limit text).toOption
  StreamEvent.ofPayload payload

/-- The events a client has read, after these pieces have arrived. -/
def clientReads (limit : ℕ) (pieces : List Bytes) : List StreamEvent :=
  (pieces.foldl Reader.feed Reader.init).events.filterMap (readEvent limit)

/-- The reply as the client shows it. -/
def shownText (events : List StreamEvent) : Text :=
  events.flatMap fun event =>
    match event with
    | .chunk content => content
    | .error _ | .done => []

/-! ### Frames -/

variable {floatRepr : Text → Text} {parse : MarkupParser} {b : Behaviour} {closing : SessionClose}
variable {message : Text} {conversation : List HistoryItem} {limit : ℕ}

/-- The data line of an event. -/
def eventData (floatRepr : Text → Text) (event : StreamEvent) : Bytes :=
  utf8 ((Json.object event.payload).render floatRepr)

theorem utf8_append (text text' : Text) : utf8 (text ++ text') = utf8 text ++ utf8 text' :=
  List.flatMap_append

theorem utf8_sseEvent (event : StreamEvent) :
    utf8 (sseEvent floatRepr event) = frame (eventData floatRepr event) := by
  rw [sseEvent, sseJson, utf8_append, utf8_append]
  rfl

theorem wire_events (events : List StreamEvent) :
    wire (events.map (sseEvent floatRepr)) = frames (events.map (eventData floatRepr)) := by
  induction events with
  | nil => rfl
  | cons event events ih =>
    rw [List.map_cons, wire, List.flatten_cons, utf8_append, utf8_sseEvent]
    show _ ++ wire (events.map (sseEvent floatRepr)) = _
    rw [ih]
    rfl

theorem part_payload {event : StreamEvent} {v : Json} (h : Json.Part v (.object event.payload)) :
    v = .object event.payload ∨ ∃ text, v = .string text := by
  have hstrings : ∀ m ∈ event.payload, ∃ text, m.2 = .string text := by
    cases event <;> simp [StreamEvent.payload]
  cases h with
  | self => exact .inl rfl
  | member hm hpart =>
    obtain ⟨text, htext⟩ := hstrings _ hm
    right
    obtain rfl : _ = Json.string text := htext
    cases hpart
    exact ⟨text, rfl⟩

theorem payload_floatFree (event : StreamEvent) : (Json.object event.payload).FloatFree := by
  intro numeral h
  rcases part_payload h with heq | ⟨text, heq⟩ <;> cases heq

theorem payload_allHeld (event : StreamEvent) : (Json.object event.payload).AllHeld := by
  intro v h
  rcases part_payload h with rfl | ⟨text, rfl⟩
  · show (event.payload.map Prod.fst).Nodup
    cases event <;> simp [StreamEvent.payload]
  · trivial

theorem payload_depth (event : StreamEvent) : (Json.object event.payload).depth = 1 := by
  cases event <;> rfl

theorem oneLine_eventData (event : StreamEvent) : OneLine (eventData floatRepr event) :=
  oneLine_utf8 (Json.printable_render (payload_floatFree event)).no_line_end

/-- The client reads the event that was sent. -/
theorem readEvent_eventData (hlimit : 1 ≤ limit) (event : StreamEvent) :
    readEvent limit (eventData floatRepr event) = some event := by
  have hloads : Json.loads limit ((Json.object event.payload).render floatRepr)
      = .ok (.object event.payload) :=
    Json.loads_render (by rw [payload_depth]; exact hlimit) (payload_allHeld event)
      (payload_floatFree event)
  rw [readEvent, eventData, decode_utf8]
  show (Json.loads limit _).toOption.bind _ = _
  rw [hloads]
  cases event <;> rfl

theorem filterMap_readEvent (hlimit : 1 ≤ limit) (events : List StreamEvent) :
    (events.map (eventData floatRepr)).filterMap (readEvent limit) = events := by
  rw [List.filterMap_map]
  have hread : readEvent limit ∘ eventData floatRepr = some := by
    funext event
    exact readEvent_eventData hlimit event
  rw [hread, List.filterMap_some]

/-- What has been read after a beginning of the stream. -/
theorem received_prefix (hlimit : 1 ≤ limit) {events : List StreamEvent} {pieces : List Bytes}
    (hpieces : pieces.flatten <+: wire (events.map (sseEvent floatRepr))) :
    ∃ n ≤ events.length, clientReads limit pieces = events.take n ∧
      wire ((events.take n).map (sseEvent floatRepr)) <+: pieces.flatten ∧
      (n < events.length →
        pieces.flatten.length <
          (wire ((events.take (n + 1)).map (sseEvent floatRepr))).length) := by
  have hone : ∀ data ∈ events.map (eventData floatRepr), OneLine data := by
    intro data hdata
    obtain ⟨event, -, rfl⟩ := List.mem_map.mp hdata
    exact oneLine_eventData event
  rw [wire_events] at hpieces
  obtain ⟨n, hn, hread, hwhole, hnext⟩ := read_prefix hone hpieces
  rw [List.length_map] at hn hnext
  refine ⟨n, hn, ?_, ?_, fun hlt => ?_⟩
  · rw [clientReads, feedAll_eq]
    show (read pieces.flatten).filterMap _ = _
    rw [hread, ← List.map_take, filterMap_readEvent hlimit]
  · rwa [wire_events, List.map_take]
  · have := hnext hlt
    rwa [wire_events, List.map_take]

theorem received_wire (hlimit : 1 ≤ limit) {events : List StreamEvent} {pieces : List Bytes}
    (hpieces : pieces.flatten = wire (events.map (sseEvent floatRepr))) :
    clientReads limit pieces = events := by
  have hone : ∀ data ∈ events.map (eventData floatRepr), OneLine data := by
    intro data hdata
    obtain ⟨event, -, rfl⟩ := List.mem_map.mp hdata
    exact oneLine_eventData event
  rw [clientReads, feedAll_eq]
  show (read pieces.flatten).filterMap _ = _
  rw [hpieces, wire_events, read_frames hone, filterMap_readEvent hlimit]

/-! ### What the client shows -/

theorem shown_append (events events' : List StreamEvent) :
    shownText (events ++ events') = shownText events ++ shownText events' :=
  List.flatMap_append

theorem shown_chunks (texts : List Text) : shownText (texts.map .chunk) = texts.flatten := by
  rw [shownText, List.flatMap_map, List.flatMap_def]
  simp

/-- Behind the chunks nothing is shown. -/
theorem shown_streamChatEvents (outcome : Outcome) (closing : SessionClose) :
    shownText (streamChatEvents outcome closing) = outcome.yielded.flatten := by
  rw [streamChatEvents, shown_append, shown_append, shown_chunks]
  split <;> split <;> simp [shownText]

theorem shown_isPrefix {events events' : List StreamEvent} (h : events <+: events') :
    shownText events <+: shownText events' := by
  obtain ⟨rest, rfl⟩ := h
  rw [shown_append]
  exact List.prefix_append _ _

theorem done_mem_streamChatEvents {outcome : Outcome} {closing : SessionClose} :
    .done ∈ streamChatEvents outcome closing ↔ outcome.failure = none := by
  simp only [streamChatEvents, List.mem_append, List.mem_map, reduceCtorEq, and_false,
    exists_false, false_or]
  split <;> split <;> simp_all

theorem error_mem_streamChatEvents {outcome : Outcome} {closing : SessionClose} {text : Text} :
    .error text ∈ streamChatEvents outcome closing ↔
      ∃ e ∈ streamFailure outcome.failure closing, text = streamErrorMessage e := by
  simp only [streamChatEvents, List.mem_append, List.mem_map, reduceCtorEq, and_false,
    exists_false, false_or]
  split <;> split <;> simp_all

/-- Who has read `done` has read every chunk. -/
theorem shown_of_done {outcome : Outcome} {events : List StreamEvent}
    (h : events <+: streamChatEvents outcome closing) (hdone : .done ∈ events) :
    shownText events = outcome.yielded.flatten := by
  obtain ⟨n, rfl⟩ : ∃ n, events = (streamChatEvents outcome closing).take n :=
    ⟨_, List.prefix_iff_eq_take.mp h⟩
  rw [streamChatEvents, List.append_assoc] at hdone ⊢
  have hchunks : outcome.yielded.length < n := by
    by_contra hle
    rw [List.take_append_of_le_length (by simpa using Nat.le_of_not_lt hle)] at hdone
    obtain ⟨text, -, htext⟩ := List.mem_map.mp (List.mem_of_mem_take hdone)
    cases htext
  rw [List.take_append, List.take_of_length_le (by simpa using hchunks.le), shown_append,
    shown_chunks]
  have hrest : ∀ event ∈ (if outcome.failure = none then [StreamEvent.done] else []) ++
      (match streamFailure outcome.failure closing with
      | none => []
      | some e => [.error (streamErrorMessage e)]), shownText [event] = [] := by
    intro event hevent
    rw [List.mem_append] at hevent
    rcases hevent with hevent | hevent <;> split at hevent <;> simp at hevent <;> subst hevent <;>
      rfl
  have hnone : ∀ rest : List StreamEvent, (∀ event ∈ rest, shownText [event] = []) →
      shownText rest = [] := by
    intro rest hall
    rw [shownText, List.flatMap_eq_nil_iff]
    intro event hevent
    simpa [shownText] using hall event hevent
  rw [hnone _ fun event hevent => hrest event (List.mem_of_mem_take hevent), List.append_nil]

/-- The body of a streamed reply. -/
theorem body_of_stream {body : List Text}
    (h : streamChatRoute floatRepr parse b closing message conversation = .stream body) :
    body = (streamChatEvents (streamChat parse b message conversation) closing).map
      (sseEvent floatRepr) := by
  rw [streamChatRoute] at h
  split at h
  · exact (ChatResponse.stream.inj h).symm
  · cases h

/-- **The reply reaches the client**: however the bytes of the response are
cut into pieces, the client reads the events that were sent and shows the text
that was yielded; it reads `done` if and only if the call ended without an
exception, and an error exactly for what the `except` clauses see. -/
theorem events_read (hlimit : 1 ≤ limit) {body : List Text}
    (hroute : streamChatRoute floatRepr parse b closing message conversation = .stream body)
    {pieces : List Bytes} (hpieces : pieces.flatten = wire body) :
    let outcome := streamChat parse b message conversation
    clientReads limit pieces = streamChatEvents outcome closing ∧
      shownText (clientReads limit pieces) = outcome.yielded.flatten ∧
      (.done ∈ clientReads limit pieces ↔ outcome.failure = none) ∧
      ∀ text, .error text ∈ clientReads limit pieces ↔
        ∃ e ∈ streamFailure outcome.failure closing, text = streamErrorMessage e := by
  intro outcome
  have hread : clientReads limit pieces = streamChatEvents outcome closing := by
    rw [body_of_stream hroute] at hpieces
    exact received_wire hlimit hpieces
  rw [hread]
  exact ⟨rfl, shown_streamChatEvents _ _, done_mem_streamChatEvents,
    fun _ => error_mem_streamChatEvents⟩

/-- A behaviour that answers in two chunks, the first of two lines. -/
def greeting : Behaviour where
  configured := true
  routing _ := .ok ⟨none, []⟩
  streaming _ :=
    ⟨[some ⟨[], some "Chào\nbạn".toList⟩, some ⟨[], some " nhé".toList⟩], none⟩
  execute _ _ _ := .ok "{}".toList
  newToolCallId _ _ := "call_0".toList

/-- Two of its letters arrive in halves. -/
theorem events_read_greeting :
    ∃ body, streamChatRoute id (fun _ _ => .ok []) greeting .closed "hi".toList [] = .stream body ∧
      shownText (clientReads 1 ([39, 6, 20, 80].splitLengths (wire body)))
        = "Chào\nbạn nhé".toList ∧
      .done ∈ clientReads 1 ([39, 6, 20, 80].splitLengths (wire body)) := by
  have hroute : streamChatRoute id (fun _ _ => .ok []) greeting .closed "hi".toList []
      = .stream _ := rfl
  obtain ⟨-, hshown, hdone, -⟩ := events_read le_rfl hroute
    (List.flatten_splitLengths _ [39, 6, 20, 80] (by decide +kernel))
  exact ⟨_, hroute, hshown.trans (by decide +kernel), hdone.mpr (by decide +kernel)⟩

/-- **A stream that breaks off**: wherever the response is cut, the client has
read a beginning of the events, with every event whose frame has arrived as a
whole, and shows a beginning of the text; and when it has read `done`, the
text is complete and the call ended without an exception. -/
theorem cut_stream_read (hlimit : 1 ≤ limit) {body : List Text}
    (hroute : streamChatRoute floatRepr parse b closing message conversation = .stream body)
    {pieces : List Bytes} (hpieces : pieces.flatten <+: wire body) :
    let outcome := streamChat parse b message conversation
    clientReads limit pieces <+: streamChatEvents outcome closing ∧
      (∀ events, events <+: streamChatEvents outcome closing →
        wire (events.map (sseEvent floatRepr)) <+: pieces.flatten →
        events <+: clientReads limit pieces) ∧
      shownText (clientReads limit pieces) <+: outcome.yielded.flatten ∧
      (.done ∈ clientReads limit pieces →
        shownText (clientReads limit pieces) = outcome.yielded.flatten ∧
          outcome.failure = none) := by
  intro outcome
  rw [body_of_stream hroute] at hpieces
  obtain ⟨n, hn, hread, -, hnext⟩ := received_prefix hlimit hpieces
  have hstart : clientReads limit pieces <+: streamChatEvents outcome closing := by
    rw [hread]
    exact List.take_prefix _ _
  refine ⟨hstart, fun events hevents harrived => ?_, ?_, fun hdone => ⟨?_, ?_⟩⟩
  · rw [hread]
    rw [List.prefix_iff_eq_take] at hevents
    by_contra hnot
    -- otherwise the next event to read would be among `events`
    have hlt : n < events.length := by
      by_contra hle
      exact hnot (hevents ▸ List.take_prefix_take_left (Nat.le_of_not_lt hle))
    have hlonger : (streamChatEvents outcome closing).take (n + 1) <+: events := by
      rw [hevents]
      exact List.take_prefix_take_left hlt
    have hle : events.length ≤ (streamChatEvents outcome closing).length := by
      rw [hevents]
      exact List.length_take_le' _ _
    have hshort : pieces.flatten.length < (wire (((streamChatEvents outcome closing).take
        (n + 1)).map (sseEvent floatRepr))).length := hnext (lt_of_lt_of_le hlt hle)
    obtain ⟨rest, hrest⟩ := hlonger
    have hwire : wire (events.map (sseEvent floatRepr)) =
        wire (((streamChatEvents outcome closing).take (n + 1)).map (sseEvent floatRepr)) ++
          wire (rest.map (sseEvent floatRepr)) := by
      rw [← hrest, List.map_append, wire, List.flatten_append, utf8_append]
      rfl
    have hlength := harrived.length_le
    rw [hwire, List.length_append] at hlength
    omega
  · rw [← shown_streamChatEvents outcome closing]
    exact shown_isPrefix hstart
  · exact shown_of_done hstart hdone
  · exact done_mem_streamChatEvents.mp (hstart.subset hdone)

/-- The connection is lost in the second frame. -/
theorem cut_stream_read_greeting :
    ∃ body, streamChatRoute id (fun _ _ => .ok []) greeting .raised "hi".toList [] = .stream body ∧
      [.chunk "Chào\nbạn".toList] <+: clientReads 1 ([39, 40].splitLengths ((wire body).take 79)) ∧
      shownText (clientReads 1 ([39, 40].splitLengths ((wire body).take 79))) <+:
        "Chào\nbạn nhé".toList := by
  have hroute : streamChatRoute id (fun _ _ => .ok []) greeting .raised "hi".toList []
      = .stream _ := rfl
  have hpieces := List.flatten_splitLengths ((wire ((streamChatEvents
    (streamChat (fun _ _ => .ok []) greeting "hi".toList []) .raised).map (sseEvent id))).take 79)
    [39, 40] (by decide +kernel)
  obtain ⟨-, harrived, hshown, -⟩ :=
    cut_stream_read le_rfl hroute (hpieces ▸ List.take_prefix _ _)
  refine ⟨_, hroute, harrived _ (by decide +kernel) (hpieces ▸ by decide +kernel),
    hshown.trans (by decide +kernel)⟩

end GreenGarden
