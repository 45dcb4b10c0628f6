/-
GreenGarden/Chat.lean

One `stream_chat` call (`features/chat/deepseek.py`): the messages built from
the client's history, the routing rounds, and the streaming rounds whose text
is yielded as it comes.

All that answers the call from outside is a `Behaviour`: the model's replies
by round, the results of the tools, and the ids made up for calls that carry
none.  `parse_dsml_tool_calls`, which may raise, is a parameter, so what is
proved here holds for every reading of leaked markup.  An outcome keeps every messages list that
was sent and every text that was yielded, also where the call ends in an
exception.
-/
import GreenGarden.Markup

namespace GreenGarden

/-- The text that every conversation starts with. -/
def systemPrompt : Text :=
  ("You are a helpful garden shop assistant.\n\nAnswer briefly and directly.\nPrefer 1–3 " ++
    "short paragraphs or bullet points.\nDo not repeat the user's question.\n\nRouting rules " ++
    "(use tools when needed — do not invent live business data):\n- Current price / cost / " ++
    "\"giá\" → always call get_plant_price.\n- Stock / availability / \"còn hàng\" → always " ++
    "call check_stock.\n- Plant care or descriptive knowledge (light, watering, soil, " ++
    "characteristics, growing tips) → call search_plant_knowledge.\n- Shop and buying " ++
    "questions (where to buy, Cái Mơn seedling quality, ordering, delivery time, shipping " ++
    "cost, shipping to provinces, packing, payment / COD, tracking, returns, damaged plants, " ++
    "first steps after receiving plants, time to fruit) → call search_shop_faq. For general " ++
    "care questions, you may call both search_shop_faq and search_plant_knowledge.\n- Answer " ++
    "shop policy questions only from search_shop_faq results. If nothing relevant is found, " ++
    "say so and suggest messaging the shop on Zalo 0386569374.\n- Greetings and general chat " ++
    "with no catalogue need → answer directly (no tools).\n- If a question needs both " ++
    "business data and knowledge, call multiple tools.\n\nNever mention tools, function " ++
    "calls, databases, Weaviate, RAG, or implementation details.").toList

/-- Roles whose messages are taken over from the history. -/
def allowedRoles : List Text := ["system".toList, "user".toList, "assistant".toList]

/-- Rounds in which the model may call tools before the reply is streamed. -/
def maxToolRounds : ℕ := 3

/-- Rounds in which it may still call tools while the reply is streamed. -/
def maxStreamToolRounds : ℕ := 2

/-- What is shown when markup was held back and nothing else was said. -/
def fallbackReply : Text :=
  ("Xin lỗi, mình chưa tìm được thông tin phù hợp. Bạn vui lòng nhắn Zalo 0386569374 để " ++
    "shop hỗ trợ nhé. / Sorry, I couldn't find that information. Please message the shop on " ++
    "Zalo 0386569374.").toList

/-! ### Messages -/

/-- A tool call, native or read out of leaked markup. -/
structure ParsedToolCall where
  id : Text
  name : Text
  arguments : Text
deriving DecidableEq

/-- A message of the list sent to the model; `called` is an assistant turn with `tool_calls`. -/
inductive Message where
  | system (content : Text)
  | user (content : Text)
  | assistant (content : Text)
  | called (content : Option Text) (toolCalls : List ParsedToolCall)
  | tool (toolCallId content : Text)
deriving DecidableEq

/-- An item of the client's conversation, its two fields through `str`. -/
structure HistoryItem where
  role : Text
  content : Text

/-- `role.strip().lower()`; of the characters that lower to ASCII letters only the ASCII ones
matter for the words it is compared with. -/
def HistoryItem.roleWord (item : HistoryItem) : Text := (strip item.role).map Char.toLower

/-- The message that the history item becomes, if any. -/
def historyMessage (item : HistoryItem) : Option Message :=
  let role := item.roleWord
  let stripped := strip item.content
  -- leaked markup in history primes the model to leak again
  let content :=
    if role = "assistant".toList then strip (stripToolMarkup ignoreCase (some stripped))
    else stripped
  if role ∉ allowedRoles ∨ role = "system".toList ∨ content = [] then none
  else if role = "assistant".toList then some (.assistant content)
  else some (.user content)

/-- The system prompt, what is kept of the history, and the new message. -/
def buildMessages (message : Text) (conversation : List HistoryItem) : List Message :=
  .system systemPrompt :: conversation.filterMap historyMessage ++ [.user (strip message)]

/-! ### What the call is answered with -/

/-- The exceptions of the client library; `other` is any the call does not translate. -/
inductive ProviderError where
  | timeout
  | rateLimit
  | api
  | other
deriving DecidableEq

/-- What `stream_chat` raises. -/
inductive ChatError where
  | notConfigured (message : Text)
  | timeout (message : Text)
  | runtime (message : Text)
  | raised
deriving DecidableEq

/-- The `except` clauses around a completion request. -/
def chatError : ProviderError → ChatError
  | .timeout => .timeout "DeepSeek request timed out".toList
  | .rateLimit => .runtime "DeepSeek rate limit exceeded".toList
  | .api => .runtime "DeepSeek API request failed".toList
  | .other => .raised

/-- The function of a raw tool call, as the provider sends it. -/
structure RawFunction where
  name : Option Text
  arguments : Option Text

/-- A tool call of a reply, or a fragment of one in a stream. -/
structure RawToolCall where
  index : Option ℤ
  id : Option Text
  function : Option RawFunction

/-- A reply of the model that is not streamed. -/
structure RoutingReply where
  content : Option Text
  toolCalls : List RawToolCall

/-- One streamed change. -/
structure Delta where
  toolCalls : List RawToolCall
  content : Option Text

/-- A streamed reply: its chunks, `none` where one has no choices or no delta, and the error it
broke off with. -/
structure StreamReply where
  chunks : List (Option Delta)
  failure : Option ProviderError

/-- All that answers one call: by round, and by the position of a tool call in it. -/
structure Behaviour where
  configured : Bool
  routing : ℕ → Except ProviderError RoutingReply
  streaming : ℕ → StreamReply
  execute : ℕ → ℕ → ParsedToolCall → Except ChatError Text
  newToolCallId : ℕ → ℕ → Text

/-- `parse_dsml_tool_calls`, given the ids it makes up; nothing catches what it raises. -/
abbrev MarkupParser := (ℕ → Text) → Text → Except ChatError (List ParsedToolCall)

/-! ### Tool calls -/

/-- `value or default`. -/
def orDefault (value : Option Text) (default : Text) : Text :=
  match value with
  | none => default
  | some [] => default
  | some text => text

/-- The native calls that have a name, with an id made up where none came. -/
def nativeToolCalls (newId : ℕ → Text) (rawCalls : List RawToolCall) : List ParsedToolCall :=
  rawCalls.zipIdx.filterMap fun (tc, i) =>
    let name := orDefault (tc.function.bind RawFunction.name) []
    if name = [] then none
    else some ⟨orDefault tc.id (newId i), name,
      orDefault (tc.function.bind RawFunction.arguments) "{}".toList⟩

/-- The tool messages of a turn, the tools run in order. -/
def toolResults (execute : ℕ → ParsedToolCall → Except ChatError Text) :
    ℕ → List ParsedToolCall → Except ChatError (List Message)
  | _, [] => .ok []
  | i, call :: calls => do
    let content ← execute i call
    let results ← toolResults execute (i + 1) calls
    return .tool call.id content :: results

/-- `content or None`. -/
def orNone (content : Text) : Option Text := if content = [] then none else some content

/-- The list with the assistant's tool-call turn and each tool result appended. -/
def executeToolCalls (execute : ℕ → ParsedToolCall → Except ChatError Text)
    (messages : List Message) (calls : List ParsedToolCall) (content : Option Text) :
    Except ChatError (List Message) := do
  let results ← toolResults execute 0 calls
  return messages ++ .called (orNone (strip (stripToolMarkup ignoreCase content))) calls :: results

/-! ### The routing rounds -/

/-- The lists that were sent, and the list the rounds leave. -/
structure Routed where
  requests : List (List Message)
  result : Except ChatError (List Message)

/-- The calls a routing reply asks for. -/
def routingCalls (parse : MarkupParser) (newId : ℕ → Text) (msg : RoutingReply) :
    Except ChatError (List ParsedToolCall) :=
  let calls := nativeToolCalls newId msg.toolCalls
  if calls = [] ∧ containsToolMarkup ignoreCase msg.content = true then
    parse newId (msg.content.getD [])
  else .ok calls

/-- The rounds before the reply: tools run until the model asks for none. -/
def runToolRounds (parse : MarkupParser) (b : Behaviour) : List ℕ → List Message → Routed
  | [], messages => ⟨[], .ok messages⟩
  | round :: rounds, messages =>
    match b.routing round with
    | .error e => ⟨[messages], .error (chatError e)⟩
    | .ok msg =>
      match routingCalls parse (b.newToolCallId round) msg with
      | .error e => ⟨[messages], .error e⟩
      | .ok calls =>
        if calls = [] then ⟨[messages], .ok messages⟩
        else
          match executeToolCalls (b.execute round) messages calls msg.content with
          | .error e => ⟨[messages], .error e⟩
          | .ok messages' =>
            let rest := runToolRounds parse b rounds messages'
            ⟨messages :: rest.requests, rest.result⟩

/-! ### One streaming round -/

/-- What is put together of a streamed call. -/
structure PartialCall where
  id : Text
  name : Text
  arguments : Text
deriving DecidableEq

/-- Id and name are replaced, arguments grow. -/
def PartialCall.merge (entry : PartialCall) (tc : RawToolCall) : PartialCall where
  id := orDefault tc.id entry.id
  name := orDefault (tc.function.bind RawFunction.name) entry.name
  arguments := entry.arguments ++ orDefault (tc.function.bind RawFunction.arguments) []

/-- The dictionary `partial_calls`, in insertion order. -/
abbrev PartialCalls := List (ℤ × PartialCall)

/-- `partial_calls.setdefault(index, {"id": "", "name": "", "arguments": ""})`. -/
def PartialCalls.setdefault (calls : PartialCalls) (index : ℤ) : PartialCalls :=
  if calls.any (·.1 == index) then calls else calls ++ [(index, ⟨[], [], []⟩)]

/-- A fragment goes to the call with its index. -/
def PartialCalls.add (calls : PartialCalls) (tc : RawToolCall) : PartialCalls :=
  let index := tc.index.getD calls.length
  (calls.setdefault index).map fun (key, entry) =>
    (key, if key = index then entry.merge tc else entry)

/-- The calls in index order, those without a name dropped. -/
def PartialCalls.toolCalls (newId : ℕ → Text) (calls : PartialCalls) : List ParsedToolCall :=
  (calls.insertionSort (·.1 ≤ ·.1)).zipIdx.filterMap fun ((_, entry), i) =>
    if entry.name = [] then none
    else some ⟨orDefault (some entry.id) (newId i), entry.name,
      orDefault (some entry.arguments) "{}".toList⟩

/-- The locals of `_stream_completion`, and what it has yielded. -/
structure Streaming where
  guard : DsmlStreamGuard
  partialCalls : PartialCalls
  text : Text
  yielded : List Text

namespace Streaming

/-- Nothing has come yet. -/
def init : Streaming := ⟨.init, [], [], []⟩

/-- `if content:`, on to the `yield`. -/
def feedContent (s : Streaming) (content : Option Text) : Streaming :=
  match orDefault content [] with
  | [] => s
  | chunk =>
    match s.guard.feed ignoreCase chunk with
    | ([], guard) => { s with guard := guard }
    | (safe, guard) =>
      { s with guard := guard, text := s.text ++ safe, yielded := s.yielded ++ [safe] }

/-- One chunk: fragments of calls first, then text. -/
def onChunk (s : Streaming) : Option Delta → Streaming
  | none => s
  | some delta =>
    { s with partialCalls := delta.toolCalls.foldl PartialCalls.add s.partialCalls }.feedContent
      delta.content

end Streaming

/-- What one streamed round comes to. -/
structure StreamRoundResult where
  text : Text
  markup : Text
  toolCalls : List ParsedToolCall

/-- What the round yields, and its result. -/
def streamCompletion (newId : ℕ → Text) (reply : StreamReply) :
    List Text × Except ChatError StreamRoundResult :=
  let s := reply.chunks.foldl Streaming.onChunk Streaming.init
  match reply.failure with
  | some e => (s.yielded, .error (chatError e))
  | none =>
    let calls := s.partialCalls.toolCalls newId
    match s.guard.finish with
    | ([], guard) => (s.yielded, .ok ⟨s.text, guard.capturedText, calls⟩)
    | (tail, guard) =>
      (s.yielded ++ [tail], .ok ⟨s.text ++ tail, guard.capturedText, calls⟩)

/-! ### The streaming rounds -/

/-- The lists that were sent, the texts that were yielded, and the two flags the rounds end
with: whether anything was emitted and whether a reply was suppressed. -/
structure Streamed where
  requests : List (List Message)
  yielded : List Text
  result : Except ChatError (Bool × Bool)

/-- `result.tool_calls or parse_dsml_tool_calls(result.markup)`. -/
def streamedCalls (parse : MarkupParser) (newId : ℕ → Text) (result : StreamRoundResult) :
    Except ChatError (List ParsedToolCall) :=
  if result.toolCalls = [] then parse newId result.markup else .ok result.toolCalls

/-- Streaming rounds count on from the routing rounds. -/
def streamTurn (round : ℕ) : ℕ := maxToolRounds + round

/-- The rounds while the reply is streamed. -/
def streamRounds (parse : MarkupParser) (b : Behaviour) :
    List ℕ → List Message → Bool → Streamed
  | [], _, emitted => ⟨[], [], .ok (emitted, false)⟩
  | round :: rounds, messages, emitted =>
    match streamCompletion (b.newToolCallId (streamTurn round)) (b.streaming round) with
    | (yielded, .error e) => ⟨[messages], yielded, .error e⟩
    | (yielded, .ok result) =>
      let emitted := emitted || !yielded.isEmpty
      match streamedCalls parse (b.newToolCallId (streamTurn round)) result with
      | .error e => ⟨[messages], yielded, .error e⟩
      | .ok calls =>
        if calls = [] then ⟨[messages], yielded, .ok (emitted, !result.markup.isEmpty)⟩
        else if round = maxStreamToolRounds then ⟨[messages], yielded, .ok (emitted, true)⟩
        else
          match executeToolCalls (b.execute (streamTurn round)) messages calls
              (some result.text) with
          | .error e => ⟨[messages], yielded, .error e⟩
          | .ok messages' =>
            let rest := streamRounds parse b rounds messages' emitted
            ⟨messages :: rest.requests, yielded ++ rest.yielded, rest.result⟩

/-! ### The call -/

/-- Every messages list that was sent, every text that was yielded, and the exception. -/
structure Outcome where
  requests : List (List Message)
  yielded : List Text
  failure : Option ChatError

/-- The reply to a message, as it is yielded. -/
def streamChat (parse : MarkupParser) (b : Behaviour) (message : Text)
    (conversation : List HistoryItem) : Outcome :=
  if b.configured then
    let routed := runToolRounds parse b (List.range maxToolRounds)
      (buildMessages message conversation)
    match routed.result with
    | .error e => ⟨routed.requests, [], some e⟩
    | .ok messages =>
      let streamed := streamRounds parse b (List.range (maxStreamToolRounds + 1)) messages false
      match streamed.result with
      | .error e => ⟨routed.requests ++ streamed.requests, streamed.yielded, some e⟩
      | .ok (emitted, suppressed) =>
        ⟨routed.requests ++ streamed.requests,
          streamed.yielded ++ (if suppressed && !emitted then [fallbackReply] else []), none⟩
  else
    ⟨[], [], some (.notConfigured "DeepSeek is not configured (set DEEPSEEK_API_KEY)".toList)⟩

end GreenGarden
