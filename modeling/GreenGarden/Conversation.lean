/-
GreenGarden/Conversation.lean

The messages lists of one `stream_chat` call.  Routing and streaming do the
same two things to the one list they share: they send it, or they append an
assistant turn with the results of its calls.  `Talk` is that, as a relation
between the list before, the lists sent and the list after; both loops are
talks whatever the model, the tools and the markup parser answer, and what a
turn preserves (`WellFormed`) therefore holds of every list that is sent.
-/
import GreenGarden.Chat

namespace GreenGarden

/-! ### Well-formed lists -/

/-- The id that a tool message answers. -/
def Message.answers : Message → Option Text
  | .tool toolCallId _ => some toolCallId
  | _ => none

/-- The content of an assistant message. -/
def Message.assistantContent : Message → Option Text
  | .assistant content => some content
  | .called content _ => content
  | _ => none

/-- Neither a tool-call turn nor a tool message. -/
def Message.isPlain : Message → Bool
  | .called _ _ => false
  | .tool _ _ => false
  | _ => true

/-- Every tool-call turn is followed by one tool message for each of its calls, in order, and
there is no other tool message. -/
inductive ToolTurns : List Message → Prop where
  | nil : ToolTurns []
  | plain {m : Message} {messages : List Message} : m.isPlain = true → ToolTurns messages →
      ToolTurns (m :: messages)
  | turn {content : Option Text} {calls : List ParsedToolCall} {results messages : List Message} :
      results.map Message.answers = calls.map (fun call => some call.id) → ToolTurns messages →
      ToolTurns (.called content calls :: results ++ messages)

/-- A messages list as the completion API takes it. -/
structure WellFormed (messages : List Message) : Prop where
  prompt : messages.head? = some (.system systemPrompt)
  one_system : ∀ m ∈ messages.tail, ∀ content, m ≠ .system content
  clean : ∀ m ∈ messages, ∀ content, m.assistantContent = some content →
    containsToolMarkup ignoreCase (some content) = false
  turns : ToolTurns messages

theorem ToolTurns.append {before after : List Message} (hbefore : ToolTurns before)
    (hafter : ToolTurns after) : ToolTurns (before ++ after) := by
  induction hbefore with
  | nil => exact hafter
  | plain hplain _ ih => exact .plain hplain ih
  | turn hresults _ ih =>
    rw [List.append_assoc]
    exact .turn hresults ih

theorem ToolTurns.of_plain {messages : List Message} (h : ∀ m ∈ messages, m.isPlain = true) :
    ToolTurns messages := by
  induction messages with
  | nil => exact .nil
  | cons m messages ih =>
    exact .plain (h m (by simp)) (ih fun m' hm' => h m' (by simp [hm']))

/-! ### Clean contents -/

theorem strip_infix (text : Text) : strip text <:+: text :=
  (List.rdropWhile_prefix _ _).isInfix.trans (List.dropWhile_suffix _).isInfix

/-- Stripping a text without markup brings up none. -/
theorem containsToolMarkup_strip_eq (letters : CaseFold) (text : Option Text) :
    containsToolMarkup letters (some (strip (stripToolMarkup letters text))) = false := by
  rw [Bool.eq_false_iff, Ne, containsToolMarkup_iff]
  intro hmark
  obtain ⟨before, after, hwithin⟩ := strip_infix (stripToolMarkup letters text)
  have hall := (hmark.append_left before).append_right after
  rw [hwithin] at hall
  exact not_hasMark_strip letters text hall

theorem orNone_some {content text : Text} (h : orNone content = some text) : content = text := by
  unfold orNone at h
  split at h
  · cases h
  · exact Option.some.inj h

/-! ### What a turn appends -/

/-- The first call has been answered, then the others. -/
theorem toolResults_cons_ok {execute : ℕ → ParsedToolCall → Except ChatError Text} {i : ℕ}
    {call : ParsedToolCall} {calls : List ParsedToolCall} {results : List Message}
    (h : toolResults execute i (call :: calls) = .ok results) :
    ∃ content rest, execute i call = .ok content ∧ toolResults execute (i + 1) calls = .ok rest ∧
      results = .tool call.id content :: rest := by
  rw [toolResults] at h
  cases hcall : execute i call with
  | error e =>
    rw [hcall] at h
    cases h
  | ok content =>
    cases hrest : toolResults execute (i + 1) calls with
    | error e =>
      rw [hcall, hrest] at h
      cases h
    | ok rest =>
      rw [hcall, hrest] at h
      cases h
      exact ⟨content, rest, rfl, rfl, rfl⟩

/-- Either the first call raised or a later one. -/
theorem toolResults_cons_error {execute : ℕ → ParsedToolCall → Except ChatError Text} {i : ℕ}
    {call : ParsedToolCall} {calls : List ParsedToolCall} {e : ChatError}
    (h : toolResults execute i (call :: calls) = .error e) :
    execute i call = .error e ∨ toolResults execute (i + 1) calls = .error e := by
  rw [toolResults] at h
  cases hcall : execute i call with
  | error e' =>
    rw [hcall] at h
    cases h
    exact .inl rfl
  | ok content =>
    cases hrest : toolResults execute (i + 1) calls with
    | error e' =>
      rw [hcall, hrest] at h
      cases h
      exact .inr rfl
    | ok rest =>
      rw [hcall, hrest] at h
      cases h

theorem toolResults_answers {execute : ℕ → ParsedToolCall → Except ChatError Text} {i : ℕ}
    {calls : List ParsedToolCall} {results : List Message}
    (h : toolResults execute i calls = .ok results) :
    results.map Message.answers = calls.map fun call => some call.id := by
  induction calls generalizing i results with
  | nil =>
    cases h
    rfl
  | cons call calls ih =>
    obtain ⟨content, rest, -, hrest, rfl⟩ := toolResults_cons_ok h
    rw [List.map_cons, List.map_cons, ih hrest]
    rfl

theorem executeToolCalls_results {execute : ℕ → ParsedToolCall → Except ChatError Text}
    {messages messages' : List Message} {calls : List ParsedToolCall} {content : Option Text}
    (h : executeToolCalls execute messages calls content = .ok messages') :
    ∃ results, toolResults execute 0 calls = .ok results ∧
      messages' = messages ++
        .called (orNone (strip (stripToolMarkup ignoreCase content))) calls :: results := by
  rw [executeToolCalls] at h
  cases hresults : toolResults execute 0 calls with
  | error e =>
    rw [hresults] at h
    cases h
  | ok results =>
    rw [hresults] at h
    cases h
    exact ⟨results, rfl, rfl⟩

theorem executeToolCalls_ok {execute : ℕ → ParsedToolCall → Except ChatError Text}
    {messages messages' : List Message} {calls : List ParsedToolCall} {content : Option Text}
    (h : executeToolCalls execute messages calls content = .ok messages') :
    ∃ results, results.map Message.answers = calls.map (fun call => some call.id) ∧
      messages' = messages ++
        .called (orNone (strip (stripToolMarkup ignoreCase content))) calls :: results := by
  obtain ⟨results, hresults, heq⟩ := executeToolCalls_results h
  exact ⟨results, toolResults_answers hresults, heq⟩

theorem answers_of_mem {results : List Message} {calls : List ParsedToolCall}
    (h : results.map Message.answers = calls.map fun call => some call.id) {m : Message}
    (hm : m ∈ results) : ∃ id content, m = .tool id content := by
  have hanswers : m.answers ∈ calls.map fun call => some call.id := by
    rw [← h]
    exact List.mem_map_of_mem hm
  obtain ⟨call, -, hcall⟩ := List.mem_map.mp hanswers
  cases m with
  | tool id content => exact ⟨id, content, rfl⟩
  | _ => cases hcall

/-- A tool-call turn keeps the list well formed. -/
theorem WellFormed.execute {execute : ℕ → ParsedToolCall → Except ChatError Text}
    {messages messages' : List Message} {calls : List ParsedToolCall} {content : Option Text}
    (hwf : WellFormed messages)
    (h : executeToolCalls execute messages calls content = .ok messages') :
    WellFormed messages' := by
  obtain ⟨results, hresults, rfl⟩ := executeToolCalls_ok h
  have hne : messages ≠ [] := by
    rintro rfl
    cases hwf.prompt
  constructor
  case prompt => rw [List.head?_append_of_ne_nil _ hne, hwf.prompt]
  case one_system =>
    intro m hm text
    rw [List.tail_append_of_ne_nil hne, List.mem_append, List.mem_cons] at hm
    rcases hm with hm | rfl | hm
    · exact hwf.one_system m hm text
    · simp
    · obtain ⟨id, result, rfl⟩ := answers_of_mem hresults hm
      simp
  case clean =>
    intro m hm text htext
    rw [List.mem_append, List.mem_cons] at hm
    rcases hm with hm | rfl | hm
    · exact hwf.clean m hm text htext
    · rw [← orNone_some htext]
      exact containsToolMarkup_strip_eq ignoreCase content
    · obtain ⟨id, result, rfl⟩ := answers_of_mem hresults hm
      cases htext
  case turns =>
    apply hwf.turns.append
    have hturn : ToolTurns (.called (orNone (strip (stripToolMarkup ignoreCase content))) calls ::
        results ++ []) := .turn hresults .nil
    rwa [List.append_nil] at hturn

theorem executeToolCalls_extends {execute : ℕ → ParsedToolCall → Except ChatError Text}
    {messages messages' : List Message} {calls : List ParsedToolCall} {content : Option Text}
    (h : executeToolCalls execute messages calls content = .ok messages') :
    messages <+: messages' := by
  obtain ⟨results, -, rfl⟩ := executeToolCalls_ok h
  exact List.prefix_append messages _

/-! ### The first list -/

theorem historyMessage_some {item : HistoryItem} {m : Message} (h : historyMessage item = some m) :
    (∃ content, m = .user content) ∨
      m = .assistant (strip (stripToolMarkup ignoreCase (some (strip item.content)))) := by
  unfold historyMessage at h
  by_cases hrole : item.roleWord = "assistant".toList
  · simp only [hrole, if_true] at h
    split at h
    · cases h
    · exact Or.inr (Option.some.inj h).symm
  · simp only [hrole, if_false] at h
    split at h
    · cases h
    · exact Or.inl ⟨_, (Option.some.inj h).symm⟩

theorem mem_buildMessages {message : Text} {conversation : List HistoryItem} {m : Message}
    (h : m ∈ (buildMessages message conversation).tail) :
    (∃ content, m = .user content) ∨
      ∃ text, m = .assistant (strip (stripToolMarkup ignoreCase text)) := by
  rw [buildMessages, List.cons_append, List.tail_cons, List.mem_append, List.mem_filterMap,
    List.mem_singleton] at h
  rcases h with ⟨item, -, hitem⟩ | rfl
  · exact (historyMessage_some hitem).imp_right fun h => ⟨_, h⟩
  · exact Or.inl ⟨_, rfl⟩

theorem wellFormed_buildMessages (message : Text) (conversation : List HistoryItem) :
    WellFormed (buildMessages message conversation) := by
  have hcons : buildMessages message conversation =
      .system systemPrompt :: (buildMessages message conversation).tail := rfl
  constructor
  case prompt => rfl
  case one_system =>
    intro m hm content
    rcases mem_buildMessages hm with ⟨text, rfl⟩ | ⟨text, rfl⟩ <;> simp
  case clean =>
    intro m hm content hcontent
    rw [hcons, List.mem_cons] at hm
    rcases hm with rfl | hm
    · cases hcontent
    · rcases mem_buildMessages hm with ⟨text, rfl⟩ | ⟨text, rfl⟩
      · cases hcontent
      · cases hcontent
        exact containsToolMarkup_strip_eq ignoreCase text
  case turns =>
    rw [hcons]
    apply ToolTurns.plain rfl
    apply ToolTurns.of_plain
    intro m hm
    rcases mem_buildMessages hm with ⟨text, rfl⟩ | ⟨text, rfl⟩ <;> rfl

/-! ### Talks -/

/-- The lists sent while a list grows by tool-call turns. -/
inductive Talk : List Message → List (List Message) → List Message → Prop where
  | stop (messages : List Message) : Talk messages [] messages
  | ask {messages last : List Message} {requests : List (List Message)} :
      Talk messages requests last → Talk messages (messages :: requests) last
  | call {execute : ℕ → ParsedToolCall → Except ChatError Text}
      {messages messages' last : List Message} {calls : List ParsedToolCall}
      {content : Option Text} {requests : List (List Message)} :
      executeToolCalls execute messages calls content = .ok messages' →
      Talk messages' requests last → Talk messages requests last

namespace Talk

variable {messages middle last : List Message} {requests later : List (List Message)}

theorem trans (h : Talk messages requests middle) (hlater : Talk middle later last) :
    Talk messages (requests ++ later) last := by
  induction h with
  | stop => exact hlater
  | ask _ ih => exact .ask (ih hlater)
  | call hexecute _ ih => exact .call hexecute (ih hlater)

theorem once (messages : List Message) : Talk messages [messages] messages :=
  .ask (.stop messages)

theorem wellFormed (h : Talk messages requests last) (hwf : WellFormed messages) :
    ∀ sent ∈ requests, WellFormed sent := by
  induction h with
  | stop => simp
  | ask _ ih => exact List.forall_mem_cons.mpr ⟨hwf, ih hwf⟩
  | call hexecute _ ih => exact ih (hwf.execute hexecute)

/-- Each list that is sent extends the one before. -/
theorem isChain (h : Talk messages requests last) :
    (messages :: requests).IsChain (· <+: ·) := by
  induction h with
  | stop => exact List.isChain_singleton _
  | ask _ ih => exact List.isChain_cons_cons.mpr ⟨List.prefix_refl _, ih⟩
  | @call _ _ _ _ _ _ requests hexecute _ ih =>
    cases requests with
    | nil => exact List.isChain_singleton _
    | cons sent requests =>
      rw [List.isChain_cons_cons] at ih ⊢
      exact ⟨(executeToolCalls_extends hexecute).trans ih.1, ih.2⟩

end Talk

/-! ### The loops are talks -/

section Loops

variable (parse : MarkupParser) (b : Behaviour)

/-- A routing round sends the list; the rounds end with it, or a turn is appended and they go
on. -/
theorem runToolRounds_cons (round : ℕ) (rounds : List ℕ) (messages : List Message) :
    (∃ e, runToolRounds parse b (round :: rounds) messages = ⟨[messages], .error e⟩) ∨
      runToolRounds parse b (round :: rounds) messages = ⟨[messages], .ok messages⟩ ∨
      ∃ msg calls messages', b.routing round = .ok msg ∧
        routingCalls parse (b.newToolCallId round) msg = .ok calls ∧
        executeToolCalls (b.execute round) messages calls msg.content = .ok messages' ∧
        runToolRounds parse b (round :: rounds) messages =
          ⟨messages :: (runToolRounds parse b rounds messages').requests,
            (runToolRounds parse b rounds messages').result⟩ := by
  rw [runToolRounds]
  cases hreply : b.routing round with
  | error e => exact Or.inl ⟨_, rfl⟩
  | ok msg =>
    dsimp only
    cases hread : routingCalls parse (b.newToolCallId round) msg with
    | error e => exact Or.inl ⟨e, rfl⟩
    | ok calls =>
      dsimp only
      by_cases hcalls : calls = []
      · rw [if_pos hcalls]
        exact Or.inr (Or.inl rfl)
      · rw [if_neg hcalls]
        cases hexecute : executeToolCalls (b.execute round) messages calls msg.content with
        | error e => exact Or.inl ⟨e, rfl⟩
        | ok messages' => exact Or.inr (Or.inr ⟨msg, calls, messages', rfl, hread, hexecute, rfl⟩)

/-- The reply of a streaming round, as the round deals with it. -/
abbrev streamedReply (round : ℕ) : List Text × Except ChatError StreamRoundResult :=
  streamCompletion (b.newToolCallId (streamTurn round)) (b.streaming round)

/-- Another streaming round follows: the reply came to its end and asks for tools, which run. -/
def goesOn (round : ℕ) : Bool :=
  match (streamedReply b round).2 with
  | .error _ => false
  | .ok result =>
    match streamedCalls parse (b.newToolCallId (streamTurn round)) result with
    | .error _ => false
    | .ok calls =>
      !calls.isEmpty && round != maxStreamToolRounds &&
        (toolResults (b.execute (streamTurn round)) 0 calls).isOk

/-- A streaming round sends the list and yields what it lets through; the rounds end with it, or
the calls of its reply are executed and they go on. -/
theorem streamRounds_cons (round : ℕ) (rounds : List ℕ) (messages : List Message)
    (emitted : Bool) :
    (goesOn parse b round = false ∧
      ∃ outcome, streamRounds parse b (round :: rounds) messages emitted =
        ⟨[messages], (streamedReply b round).1, outcome⟩ ∧
        ∀ flags, outcome = .ok flags →
          (streamedReply b round).2.isOk = true ∧
            flags.1 = (emitted || !(streamedReply b round).1.isEmpty)) ∨
    goesOn parse b round = true ∧
      ∃ result calls messages', (streamedReply b round).2 = .ok result ∧
        streamedCalls parse (b.newToolCallId (streamTurn round)) result = .ok calls ∧
        executeToolCalls (b.execute (streamTurn round)) messages calls (some result.text) =
          .ok messages' ∧
        streamRounds parse b (round :: rounds) messages emitted =
          ⟨messages :: (streamRounds parse b rounds messages'
              (emitted || !(streamedReply b round).1.isEmpty)).requests,
            (streamedReply b round).1 ++ (streamRounds parse b rounds messages'
              (emitted || !(streamedReply b round).1.isEmpty)).yielded,
            (streamRounds parse b rounds messages'
              (emitted || !(streamedReply b round).1.isEmpty)).result⟩ := by
  rw [streamRounds]
  unfold goesOn streamedReply
  rcases streamCompletion (b.newToolCallId (streamTurn round)) (b.streaming round) with
    ⟨yielded, e | result⟩
  · exact Or.inl ⟨rfl, .error e, rfl, fun flags h => by cases h⟩
  · dsimp only
    cases hread : streamedCalls parse (b.newToolCallId (streamTurn round)) result with
    | error e => exact Or.inl ⟨rfl, .error e, rfl, fun flags h => by cases h⟩
    | ok calls =>
      dsimp only
      by_cases hcalls : calls = []
      · rw [if_pos hcalls, hcalls]
        exact Or.inl ⟨rfl, .ok _, rfl, fun flags h => by cases h; exact ⟨rfl, rfl⟩⟩
      rw [if_neg hcalls]
      by_cases hround : round = maxStreamToolRounds
      · rw [if_pos hround]
        exact Or.inl ⟨by simp [hround], .ok _, rfl, fun flags h => by cases h; exact ⟨rfl, rfl⟩⟩
      rw [if_neg hround, executeToolCalls]
      cases hresults : toolResults (b.execute (streamTurn round)) 0 calls with
      | error e => exact Or.inl ⟨by simp [Except.isOk, Except.toBool], .error e, rfl,
          fun flags h => by cases h⟩
      | ok results =>
        refine Or.inr ⟨by simp [hcalls, hround, Except.isOk, Except.toBool], result, calls, _,
          rfl, hread, ?_, rfl⟩
        rw [executeToolCalls, hresults]
        rfl

theorem talk_runToolRounds (rounds : List ℕ) (messages : List Message) :
    ∃ last, Talk messages (runToolRounds parse b rounds messages).requests last ∧
      ∀ left, (runToolRounds parse b rounds messages).result = .ok left → left = last := by
  induction rounds generalizing messages with
  | nil => exact ⟨messages, .stop messages, fun left h => (Except.ok.inj h).symm⟩
  | cons round rounds ih =>
    rcases runToolRounds_cons parse b round rounds messages with
      ⟨e, h⟩ | h | ⟨msg, calls, messages', -, -, hexecute, h⟩
    · rw [h]
      exact ⟨messages, .once messages, fun left h => by cases h⟩
    · rw [h]
      exact ⟨messages, .once messages, fun left h => (Except.ok.inj h).symm⟩
    · obtain ⟨last, htalk, hleft⟩ := ih messages'
      rw [h]
      exact ⟨last, .ask (.call hexecute htalk), hleft⟩

theorem length_runToolRounds (rounds : List ℕ) (messages : List Message) :
    (runToolRounds parse b rounds messages).requests.length ≤ rounds.length := by
  induction rounds generalizing messages with
  | nil => exact le_rfl
  | cons round rounds ih =>
    rcases runToolRounds_cons parse b round rounds messages with
      ⟨e, h⟩ | h | ⟨msg, calls, messages', -, -, -, h⟩
    · simp [h]
    · simp [h]
    · rw [h]
      exact Nat.succ_le_succ (ih messages')

theorem talk_streamRounds (rounds : List ℕ) (messages : List Message) (emitted : Bool) :
    ∃ last, Talk messages (streamRounds parse b rounds messages emitted).requests last := by
  induction rounds generalizing messages emitted with
  | nil => exact ⟨messages, .stop messages⟩
  | cons round rounds ih =>
    rcases streamRounds_cons parse b round rounds messages emitted with
      ⟨-, outcome, h, -⟩ | ⟨-, result, calls, messages', -, -, hexecute, h⟩
    · rw [h]
      exact ⟨messages, .once messages⟩
    · obtain ⟨last, htalk⟩ := ih messages' (emitted || !(streamedReply b round).1.isEmpty)
      rw [h]
      exact ⟨last, .ask (.call hexecute htalk)⟩

theorem length_streamRounds (rounds : List ℕ) (messages : List Message) (emitted : Bool) :
    (streamRounds parse b rounds messages emitted).requests.length ≤ rounds.length := by
  induction rounds generalizing messages emitted with
  | nil => exact le_rfl
  | cons round rounds ih =>
    rcases streamRounds_cons parse b round rounds messages emitted with
      ⟨-, outcome, h, -⟩ | ⟨-, result, calls, messages', -, -, -, h⟩
    · simp [h]
    · rw [h]
      exact Nat.succ_le_succ (ih messages' _)

/-- A call sends what its routing rounds send, then, unless they fail, what its streaming rounds
send. -/
theorem talk_streamChat (message : Text) (conversation : List HistoryItem) :
    ∃ last, Talk (buildMessages message conversation)
      (streamChat parse b message conversation).requests last := by
  rw [streamChat]
  split
  · obtain ⟨last, htalk, hleft⟩ :=
      talk_runToolRounds parse b (List.range maxToolRounds) (buildMessages message conversation)
    dsimp only
    split
    · exact ⟨last, htalk⟩
    · rename_i messages hmessages
      rw [hleft messages hmessages]
      obtain ⟨last', htalk'⟩ :=
        talk_streamRounds parse b (List.range (maxStreamToolRounds + 1)) last false
      split <;> exact ⟨last', htalk.trans htalk'⟩
  · exact ⟨_, .stop _⟩

theorem length_streamChat (message : Text) (conversation : List HistoryItem) :
    (streamChat parse b message conversation).requests.length ≤ 6 := by
  have hrouting := length_runToolRounds parse b (List.range maxToolRounds)
    (buildMessages message conversation)
  rw [List.length_range] at hrouting
  rw [streamChat]
  split
  · dsimp only
    split
    · exact hrouting.trans (by decide)
    · rename_i messages _
      have hstreaming := length_streamRounds parse b (List.range (maxStreamToolRounds + 1))
        messages false
      rw [List.length_range] at hstreaming
      split <;>
      · rw [List.length_append]
        exact add_le_add hrouting hstreaming
  · exact Nat.zero_le 6

/-- Whatever the client's history holds and whatever the model, the tools and the markup parser
answer, every list that is sent is well formed and extends the one before, and there are at most
six. -/
theorem requests_wellFormed (message : Text) (conversation : List HistoryItem) :
    (∀ messages ∈ (streamChat parse b message conversation).requests, WellFormed messages) ∧
      (streamChat parse b message conversation).requests.IsChain (· <+: ·) ∧
      (streamChat parse b message conversation).requests.length ≤ 6 := by
  obtain ⟨last, htalk⟩ := talk_streamChat parse b message conversation
  exact ⟨htalk.wellFormed (wellFormed_buildMessages message conversation), htalk.isChain.tail,
    length_streamChat parse b message conversation⟩

end Loops

end GreenGarden
