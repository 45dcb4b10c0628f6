/-
GreenGarden/Reassembly.lean

Tool calls that arrive in fragments.  `partial_calls` is read here as what it
says of one index at a time (`lookup_foldl_add`): the fragments of that index
merged in order, whatever lies between them.  Sorted by index, the entries are
then the calls that were split (`toolCalls_reassembled`), and the text of a
round does not depend on where the fragments stood.
-/
import GreenGarden.Leak

namespace GreenGarden

/-! ### The dictionary, one index at a time -/

namespace PartialCalls

variable (calls : PartialCalls)

/-- The entry that `setdefault` finds or makes. -/
def entry (key : ℤ) : PartialCall := (calls.lookup key).getD ⟨[], [], []⟩

theorem any_key_iff (index : ℤ) :
    (calls.any fun pair => pair.1 == index) = (calls.lookup index).isSome := by
  rw [Bool.eq_iff_iff, List.any_eq_true, List.lookup_isSome_iff]
  exact exists_congr fun pair => and_congr_right fun _ => by rw [Bool.beq_comm]

theorem lookup_setdefault (index key : ℤ) :
    (calls.setdefault index).lookup key =
      if key = index then some (calls.entry key) else calls.lookup key := by
  rw [setdefault, any_key_iff, entry]
  by_cases hkey : key = index
  · subst hkey
    rw [if_pos rfl]
    cases hlookup : calls.lookup key with
    | some found => simp [hlookup]
    | none => simp [List.lookup_append, hlookup]
  · rw [if_neg hkey]
    split
    · rfl
    · have hne : (key == index) = false := by simpa using hkey
      rw [List.lookup_append, List.lookup_cons, hne, List.lookup_nil, Option.or_none]

theorem lookup_mapValues (f : ℤ → PartialCall → PartialCall) (key : ℤ) :
    (calls.map fun (k, e) => (k, f k e)).lookup key = (calls.lookup key).map (f key) := by
  induction calls with
  | nil => rfl
  | cons pair calls ih =>
    obtain ⟨k, e⟩ := pair
    rw [List.map_cons, List.lookup_cons, List.lookup_cons, ih]
    cases hkey : key == k with
    | true => rw [beq_iff_eq.mp hkey, Option.map_some]
    | false => rfl

theorem lookup_add {tc : RawToolCall} {index : ℤ} (h : tc.index = some index) (key : ℤ) :
    (calls.add tc).lookup key =
      if key = index then some ((calls.entry key).merge tc) else calls.lookup key := by
  have hmap := (calls.setdefault index).lookup_mapValues
    (fun k e => if k = index then e.merge tc else e) key
  rw [add, h]
  show ((calls.setdefault index).map fun (k, e) =>
    (k, if k = index then e.merge tc else e)).lookup key = _
  rw [hmap, lookup_setdefault]
  by_cases hkey : key = index
  · simp [hkey]
  · simp only [if_neg hkey, Option.map_id']

/-- Of an index the dictionary has the index's own fragments, merged in order. -/
theorem lookup_foldl_add {fragments : List RawToolCall}
    (h : ∀ tc ∈ fragments, ∃ index, tc.index = some index) (key : ℤ) :
    (fragments.foldl add calls).lookup key =
      (fragments.filter fun tc => tc.index = some key).foldl
        (fun found tc => some ((found.getD ⟨[], [], []⟩).merge tc)) (calls.lookup key) := by
  induction fragments generalizing calls with
  | nil => rfl
  | cons tc fragments ih =>
    obtain ⟨index, hindex⟩ := h tc (by simp)
    rw [List.foldl_cons, ih _ fun tc' htc' => h tc' (List.mem_cons_of_mem _ htc'),
      calls.lookup_add hindex]
    by_cases hkey : key = index
    · subst hkey
      rw [List.filter_cons_of_pos (by simp [hindex]), if_pos rfl]
      rfl
    · rw [List.filter_cons_of_neg (by simp [hindex, Ne.symm hkey]), if_neg hkey]

theorem keys_add {tc : RawToolCall} (h : (calls.map Prod.fst).Nodup) :
    ((calls.add tc).map Prod.fst).Nodup := by
  have hkeys : ∀ index : ℤ, ((calls.setdefault index).map Prod.fst).Nodup := by
    intro index
    rw [setdefault]
    split
    · exact h
    · rename_i habsent
      rw [Bool.not_eq_true, List.any_eq_false] at habsent
      rw [List.map_append, List.nodup_append]
      refine ⟨h, by simp, ?_⟩
      intro k hk k' hk'
      obtain ⟨pair, hpair, rfl⟩ := List.mem_map.mp hk
      rw [List.map_singleton, List.mem_singleton] at hk'
      rw [hk']
      simpa using habsent pair hpair
  have hsame : (calls.add tc).map Prod.fst =
      (calls.setdefault (tc.index.getD calls.length)).map Prod.fst := by
    rw [add, List.map_map]
    rfl
  rw [hsame]
  exact hkeys _

theorem keys_foldl_add (fragments : List RawToolCall) (h : (calls.map Prod.fst).Nodup) :
    ((fragments.foldl add calls).map Prod.fst).Nodup := by
  induction fragments generalizing calls with
  | nil => exact h
  | cons tc fragments ih => exact ih _ (calls.keys_add h)

variable {calls}

theorem mem_iff_lookup (h : (calls.map Prod.fst).Nodup) {key : ℤ} {e : PartialCall} :
    (key, e) ∈ calls ↔ calls.lookup key = some e := by
  induction calls with
  | nil => simp
  | cons pair calls ih =>
    obtain ⟨k, e'⟩ := pair
    rw [List.map_cons, List.nodup_cons] at h
    rw [List.mem_cons, List.lookup_cons, Prod.mk.injEq]
    cases hkey : key == k with
    | true =>
      rw [beq_iff_eq.mp hkey]
      have habsent : (k, e) ∉ calls := fun hmem => h.1 (List.mem_map.mpr ⟨(k, e), hmem, rfl⟩)
      simp [habsent, eq_comm]
    | false =>
      have hne : key ≠ k := by simpa using hkey
      rw [← ih h.2]
      simp [hne]

/-- A dictionary whose keys are the first numbers, in order. -/
theorem insertionSort_eq (h : (calls.map Prod.fst).Nodup) {n : ℕ} {entries : ℕ → PartialCall}
    (hlookup : ∀ key e, calls.lookup key = some e ↔ ∃ i : ℕ, i < n ∧ key = i ∧ e = entries i) :
    calls.insertionSort (·.1 ≤ ·.1) = (List.range n).map fun i : ℕ => ((i : ℤ), entries i) := by
  have hmem : ∀ pair : ℤ × PartialCall,
      pair ∈ calls ↔ pair ∈ (List.range n).map fun i : ℕ => ((i : ℤ), entries i) := by
    intro pair
    rw [mem_iff_lookup h, hlookup, List.mem_map]
    constructor
    · rintro ⟨i, hi, hkey, he⟩
      exact ⟨i, List.mem_range.mpr hi, Prod.ext hkey.symm he.symm⟩
    · rintro ⟨i, hi, rfl⟩
      exact ⟨i, List.mem_range.mp hi, rfl, rfl⟩
  have hrange : ((List.range n).map fun i : ℕ => ((i : ℤ), entries i)).Nodup := by
    refine List.Nodup.map (fun i j hij => ?_) List.nodup_range
    exact Int.ofNat_inj.mp (congrArg Prod.fst hij)
  have hperm : List.Perm (calls.insertionSort (·.1 ≤ ·.1))
      ((List.range n).map fun i : ℕ => ((i : ℤ), entries i)) :=
    (List.perm_insertionSort _ _).trans ((List.perm_ext_iff_of_nodup h.of_map hrange).mpr hmem)
  refine hperm.eq_of_pairwise ?_ (List.pairwise_insertionSort _ _) ?_
  · intro a b ha hb hab hba
    rw [List.mem_insertionSort, hmem, List.mem_map] at ha
    obtain ⟨i, -, rfl⟩ := ha
    obtain ⟨j, -, rfl⟩ := List.mem_map.mp hb
    have hij : i = j := Int.ofNat_inj.mp (le_antisymm hab hba)
    rw [hij]
  · rw [List.pairwise_map]
    exact List.pairwise_le_range.imp fun hij => Int.ofNat_le.mpr hij

end PartialCalls

/-! ### Calls and their fragments -/

/-- The piece of the arguments that a fragment brings. -/
def RawToolCall.argumentsPiece (tc : RawToolCall) : Text :=
  orDefault (tc.function.bind RawFunction.arguments) []

/-- The fragments of one call: the first carries its id and name, later ones no other, and the
arguments are split among them in order. -/
structure Splits (call : ParsedToolCall) (fragments : List RawToolCall) : Prop where
  parts : ∃ first later, fragments = first :: later ∧ first.id = some call.id ∧
    first.function.bind RawFunction.name = some call.name ∧
    ∀ tc ∈ later, orDefault tc.id call.id = call.id ∧
      orDefault (tc.function.bind RawFunction.name) call.name = call.name
  arguments : (fragments.map RawToolCall.argumentsPiece).flatten = call.arguments

/-- Each fragment belongs to one of the calls, under the call's index, and each call is split
among the fragments of its index. -/
structure Carries (calls : List ParsedToolCall) (fragments : List RawToolCall) : Prop where
  indexed : ∀ tc ∈ fragments, ∃ i : ℕ, i < calls.length ∧ tc.index = some (i : ℤ)
  split : ∀ (i : ℕ) (h : i < calls.length),
    Splits calls[i] (fragments.filter fun tc => tc.index = some (i : ℤ))

/-- A call with empty arguments replaced by `{}`. -/
def ParsedToolCall.complete (call : ParsedToolCall) : ParsedToolCall :=
  { call with arguments := orDefault (some call.arguments) "{}".toList }

theorem orDefault_some {text : Text} (h : text ≠ []) (default : Text) :
    orDefault (some text) default = text := by
  cases text with
  | nil => exact absurd rfl h
  | cons c text => rfl

theorem merge_later {call : ParsedToolCall} {later : List RawToolCall}
    (h : ∀ tc ∈ later, orDefault tc.id call.id = call.id ∧
      orDefault (tc.function.bind RawFunction.name) call.name = call.name) (arguments : Text) :
    later.foldl (fun found tc => some ((found.getD ⟨[], [], []⟩).merge tc))
        (some (⟨call.id, call.name, arguments⟩ : PartialCall)) =
      some ⟨call.id, call.name,
        arguments ++ (later.map RawToolCall.argumentsPiece).flatten⟩ := by
  induction later generalizing arguments with
  | nil => simp
  | cons tc later ih =>
    obtain ⟨hid, hname⟩ := h tc (by simp)
    have hmerge : (⟨call.id, call.name, arguments⟩ : PartialCall).merge tc =
        ⟨call.id, call.name, arguments ++ tc.argumentsPiece⟩ := by
      rw [PartialCall.merge, hid, hname]
      rfl
    rw [List.foldl_cons, Option.getD_some, hmerge,
      ih (fun tc' htc' => h tc' (List.mem_cons_of_mem _ htc'))]
    simp

/-- The fragments of a call merge to the call. -/
theorem Splits.merge {call : ParsedToolCall} {fragments : List RawToolCall}
    (h : Splits call fragments) (hid : call.id ≠ []) (hname : call.name ≠ []) :
    fragments.foldl (fun found tc => some ((found.getD ⟨[], [], []⟩).merge tc)) none =
      some (⟨call.id, call.name, call.arguments⟩ : PartialCall) := by
  obtain ⟨first, later, rfl, hfirst, hnamed, hlater⟩ := h.parts
  have hmerge : (⟨[], [], []⟩ : PartialCall).merge first =
      ⟨call.id, call.name, first.argumentsPiece⟩ := by
    rw [PartialCall.merge, hfirst, hnamed, orDefault_some hid, orDefault_some hname]
    rfl
  rw [List.foldl_cons, Option.getD_none, hmerge, merge_later hlater, ← h.arguments]
  rfl

section Reassembly

variable {calls : List ParsedToolCall} {fragments : List RawToolCall}

/-- The entry of an index, as the calls have it. -/
def entryOf (calls : List ParsedToolCall) (i : ℕ) : PartialCall :=
  match calls[i]? with
  | some call => ⟨call.id, call.name, call.arguments⟩
  | none => ⟨[], [], []⟩

theorem entryOf_eq {i : ℕ} (h : i < calls.length) :
    entryOf calls i = ⟨calls[i].id, calls[i].name, calls[i].arguments⟩ := by
  rw [entryOf, List.getElem?_eq_getElem h]

/-- The dictionary that the fragments leave. -/
abbrev assembled (fragments : List RawToolCall) : PartialCalls :=
  fragments.foldl PartialCalls.add []

/-- Each index has the entry of its call, and there is no other. -/
theorem Carries.lookup (h : Carries calls fragments)
    (hcalls : ∀ call ∈ calls, call.id ≠ [] ∧ call.name ≠ []) (key : ℤ) (e : PartialCall) :
    (assembled fragments).lookup key = some e ↔
      ∃ i : ℕ, i < calls.length ∧ key = i ∧ e = entryOf calls i := by
  have hindexed : ∀ tc ∈ fragments, ∃ index, tc.index = some index := fun tc htc =>
    let ⟨i, _, hi⟩ := h.indexed tc htc
    ⟨i, hi⟩
  rw [PartialCalls.lookup_foldl_add [] hindexed key, List.lookup_nil]
  by_cases hkey : ∃ i : ℕ, i < calls.length ∧ key = i
  · obtain ⟨i, hi, rfl⟩ := hkey
    obtain ⟨hid, hname⟩ := hcalls _ (List.getElem_mem hi)
    rw [(h.split i hi).merge hid hname, ← entryOf_eq hi, Option.some.injEq]
    constructor
    · rintro rfl
      exact ⟨i, hi, rfl, rfl⟩
    · rintro ⟨j, -, hij, rfl⟩
      rw [Int.ofNat_inj.mp hij]
  · have hnone : (fragments.filter fun tc => tc.index = some key) = [] := by
      rw [List.filter_eq_nil_iff]
      intro tc htc hindex
      obtain ⟨i, hi, htci⟩ := h.indexed tc htc
      rw [decide_eq_true_eq, htci, Option.some.injEq] at hindex
      exact hkey ⟨i, hi, hindex.symm⟩
    rw [hnone, List.foldl_nil]
    refine iff_of_false (by simp) ?_
    rintro ⟨i, hi, hi', -⟩
    exact hkey ⟨i, hi, hi'⟩

/-- Sorted by index and finished, the entries are the calls. -/
theorem Carries.toolCalls (h : Carries calls fragments)
    (hcalls : ∀ call ∈ calls, call.id ≠ [] ∧ call.name ≠ []) (newId : ℕ → Text) :
    (assembled fragments).toolCalls newId = calls.map ParsedToolCall.complete := by
  have hkeys : ((assembled fragments).map Prod.fst).Nodup :=
    PartialCalls.keys_foldl_add [] fragments List.nodup_nil
  rw [PartialCalls.toolCalls, PartialCalls.insertionSort_eq hkeys (h.lookup hcalls)]
  have hentry : ∀ pair ∈ ((List.range calls.length).map
      fun i : ℕ => ((i : ℤ), entryOf calls i)).zipIdx,
      (if pair.1.2.name = [] then none
        else some (⟨orDefault (some pair.1.2.id) (newId pair.2), pair.1.2.name,
          orDefault (some pair.1.2.arguments) "{}".toList⟩ : ParsedToolCall)) =
        some ⟨pair.1.2.id, pair.1.2.name, orDefault (some pair.1.2.arguments) "{}".toList⟩ := by
    intro pair hpair
    have hfst : pair.1 ∈ (List.range calls.length).map fun i : ℕ => ((i : ℤ), entryOf calls i) :=
      List.fst_mem_of_mem_zipIdx hpair
    obtain ⟨i, hi, heq⟩ := List.mem_map.mp hfst
    rw [List.mem_range] at hi
    obtain ⟨hid, hname⟩ := hcalls _ (List.getElem_mem hi)
    rw [← heq, entryOf_eq hi, if_neg hname, orDefault_some hid]
  refine (List.filterMap_congr hentry).trans ?_
  -- no entry is dropped, and its place in the dictionary does not matter
  rw [List.filterMap_eq_map']
  apply List.ext_getElem
  · simp
  · intro i hi _
    have hlt : i < calls.length := by simpa using hi
    simp [entryOf_eq hlt, ParsedToolCall.complete]

end Reassembly

/-! ### The stream -/

/-- The tool-call fragments of a reply, in order. -/
def StreamReply.fragments (reply : StreamReply) : List RawToolCall :=
  reply.chunks.flatMap fun chunk => (chunk.map Delta.toolCalls).getD []

namespace Streaming

theorem partialCalls_feedContent (s : Streaming) (content : Option Text) :
    (s.feedContent content).partialCalls = s.partialCalls := by
  rw [feedContent]
  split
  · rfl
  · split <;> rfl

theorem partialCalls_foldl (s : Streaming) (chunks : List (Option Delta)) :
    (chunks.foldl onChunk s).partialCalls =
      (chunks.flatMap fun chunk => (chunk.map Delta.toolCalls).getD []).foldl PartialCalls.add
        s.partialCalls := by
  induction chunks generalizing s with
  | nil => rfl
  | cons chunk chunks ih =>
    rw [List.foldl_cons, ih, List.flatMap_cons, List.foldl_append]
    cases chunk with
    | none => rfl
    | some delta =>
      rw [onChunk, partialCalls_feedContent]
      rfl

/-- The locals apart from the dictionary. -/
def shown (s : Streaming) : Streaming := { s with partialCalls := [] }

theorem shown_feedContent (s : Streaming) (content : Option Text) :
    (s.feedContent content).shown = s.shown.feedContent content := by
  rw [feedContent, feedContent]
  cases orDefault content [] with
  | nil => rfl
  | cons c rest =>
    simp only [shown]
    rcases s.guard.feed ignoreCase (c :: rest) with ⟨safe, guard⟩
    cases safe <;> rfl

/-- Apart from the dictionary only the pieces of text matter. -/
theorem shown_foldl (s : Streaming) (chunks : List (Option Delta)) :
    (chunks.foldl onChunk s).shown =
      (chunks.filterMap fun chunk => chunk.bind Delta.piece).foldl
        (fun s piece => s.feedContent (some piece)) s.shown := by
  induction chunks generalizing s with
  | nil => rfl
  | cons chunk chunks ih =>
    rw [List.foldl_cons, ih]
    cases chunk with
    | none => rfl
    | some delta =>
      rw [onChunk, shown_feedContent, List.filterMap_cons, Option.bind_some, Delta.piece,
        feedContent]
      cases orDefault delta.content [] with
      | nil => rfl
      | cons c rest => rfl

end Streaming

/-- A stream that comes to its end has a result, with the calls its fragments make up. -/
theorem streamCompletion_ok (newId : ℕ → Text) {reply : StreamReply} (h : reply.failure = none) :
    ∃ result, (streamCompletion newId reply).2 = .ok result ∧
      result.toolCalls = (assembled reply.fragments).toolCalls newId := by
  have hcalls := Streaming.partialCalls_foldl .init reply.chunks
  rw [streamCompletion, h]
  dsimp only
  rw [hcalls]
  split <;> exact ⟨_, rfl, rfl⟩

theorem streamCompletion_text_eq {newId : ℕ → Text} {reply : StreamReply}
    {result : StreamRoundResult} (h : (streamCompletion newId reply).2 = .ok result) :
    result.text = (reply.chunks.foldl Streaming.onChunk .init).text ++
      (reply.chunks.foldl Streaming.onChunk .init).guard.finish.1 := by
  rw [streamCompletion] at h
  cases hfailure : reply.failure with
  | some e =>
    rw [hfailure] at h
    cases h
  | none =>
    rw [hfailure] at h
    rcases hfinish : (reply.chunks.foldl Streaming.onChunk .init).guard.finish with ⟨tail, guard⟩
    dsimp only at h
    rw [hfinish] at h
    cases tail with
    | nil =>
      cases h
      exact (List.append_nil _).symm
    | cons c tail =>
      cases h
      rfl

/-- The text of a stream that comes to its end depends on its pieces alone. -/
theorem streamCompletion_text_congr {newId newId' : ℕ → Text} {reply reply' : StreamReply}
    {result result' : StreamRoundResult} (hpieces : reply.pieces = reply'.pieces)
    (h : (streamCompletion newId reply).2 = .ok result)
    (h' : (streamCompletion newId' reply').2 = .ok result') : result.text = result'.text := by
  have hshown : (reply.chunks.foldl Streaming.onChunk .init).shown =
      (reply'.chunks.foldl Streaming.onChunk .init).shown := by
    rw [Streaming.shown_foldl, Streaming.shown_foldl]
    exact congrArg (List.foldl _ _) hpieces
  have hguard := congrArg Streaming.guard hshown
  have htext := congrArg Streaming.text hshown
  rw [streamCompletion_text_eq h, streamCompletion_text_eq h']
  exact congrArg₂ (· ++ ·) htext (congrArg (fun guard => guard.finish.1) hguard)

/-- Tool calls are reassembled exactly from any stream that carries their fragments, and the text
does not depend on where the fragments stand between the text deltas. -/
theorem toolCalls_reassembled (newId : ℕ → Text) (calls : List ParsedToolCall)
    (hcalls : ∀ call ∈ calls, call.id ≠ [] ∧ call.name ≠ []) (reply : StreamReply)
    (hend : reply.failure = none) (hcarries : Carries calls reply.fragments) :
    ∃ result, (streamCompletion newId reply).2 = .ok result ∧
      result.toolCalls = calls.map ParsedToolCall.complete ∧
      ∀ newId' reply', reply'.failure = none → reply'.pieces = reply.pieces →
        ∃ result', (streamCompletion newId' reply').2 = .ok result' ∧
          result'.text = result.text := by
  obtain ⟨result, hresult, htools⟩ := streamCompletion_ok newId hend
  refine ⟨result, hresult, by rw [htools, hcarries.toolCalls hcalls], ?_⟩
  intro newId' reply' hend' hpieces
  obtain ⟨result', hresult', -⟩ := streamCompletion_ok newId' hend'
  exact ⟨result', hresult', streamCompletion_text_congr hpieces hresult' hresult⟩

/-- A fragment under an index; the first of a call has its id and name. -/
def fragment (index : ℤ) (head : Option (String × String)) (arguments : String) : RawToolCall :=
  ⟨some index, head.map (·.1.toList), some ⟨head.map (·.2.toList), some arguments.toList⟩⟩

/-- Two calls, one of them without arguments. -/
def twoCalls : List ParsedToolCall :=
  [⟨"call_a".toList, "check_stock".toList, "\x7b\"query\": 1\x7d".toList⟩,
    ⟨"call_b".toList, "get_plant_price".toList, []⟩]

/-- The second call arrives, and some text, between the two fragments of the first. -/
def interleaved : StreamReply where
  chunks := [
    some ⟨[fragment 0 (some ("call_a", "check_stock")) "\x7b\"que"], none⟩,
    some ⟨[fragment 1 (some ("call_b", "get_plant_price")) ""], some "One moment".toList⟩,
    none,
    some ⟨[fragment 0 none "ry\": 1\x7d"], none⟩]
  failure := none

theorem carries_interleaved : Carries twoCalls interleaved.fragments where
  indexed := by
    intro tc htc
    have hindices : ∀ tc ∈ interleaved.fragments, tc.index = some 0 ∨ tc.index = some 1 := by
      simp [StreamReply.fragments, interleaved, fragment]
    rcases hindices tc htc with h | h
    · exact ⟨0, by decide, h⟩
    · exact ⟨1, by decide, h⟩
  split := by
    intro i hi
    match i, hi with
    | 0, _ =>
      exact ⟨⟨_, [fragment 0 none "ry\": 1\x7d"], rfl, rfl, rfl,
        List.forall_mem_singleton.mpr ⟨rfl, rfl⟩⟩, rfl⟩
    | 1, _ => exact ⟨⟨_, [], rfl, rfl, rfl, by simp⟩, rfl⟩

theorem toolCalls_reassembled_two :
    ∃ result, (streamCompletion (fun _ => []) interleaved).2 = .ok result ∧
      result.toolCalls = twoCalls.map ParsedToolCall.complete ∧
      ∀ newId' reply', reply'.failure = none → reply'.pieces = interleaved.pieces →
        ∃ result', (streamCompletion newId' reply').2 = .ok result' ∧
          result'.text = result.text :=
  toolCalls_reassembled (fun _ => []) twoCalls (by decide) interleaved rfl carries_interleaved

end GreenGarden
