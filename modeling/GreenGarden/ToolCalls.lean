/-
GreenGarden/ToolCalls.lean

The tools that the chat model may call (`chat/tools.py`: `execute_chat_tool`),
from the arguments it sends to the message it gets back.

The arguments are any text.  Whatever they decode to is read with `str`, so a
tool sees the same query for `5` and for `"5"`; an answer is an object of
texts, numbers and flags, printed with `json.dumps`.  The database answers
through `ToolWorld.lookup`, which is one of the plants `FindActivePlant`
allows, or an exception.
-/
import GreenGarden.ChatStream
import GreenGarden.Conversation
import GreenGarden.Dsml
import GreenGarden.FaqSearch
import GreenGarden.Json
import GreenGarden.Lookup
import GreenGarden.Reindexing

namespace GreenGarden

/-! ### `str` -/

/-- What the interpreter brings besides: JSON nests deeper than any answer
here, some characters are printed as they are, and floats are zero or not. -/
structure Interpreter extends Python where
  decode_ge : 3 ≤ decodeLimit
  encode_ge : 3 ≤ encodeLimit
  printable : Char → Bool
  floatIsZero : Text → Bool

/-- `bool(value)`. -/
def Interpreter.truth (py : Interpreter) : Json → Bool
  | .null => false
  | .bool b => b
  | .int i => i ≠ 0
  | .float numeral => !py.floatIsZero numeral
  | .string s => !s.isEmpty
  | .array items => !items.isEmpty
  | .object members => !members.isEmpty

/-- A code point behind its letter, in so many hexadecimal digits. -/
def hexEscape (letter : Char) (width n : ℕ) : Text :=
  let digits := Nat.toDigits 16 n
  '\\' :: letter :: (List.replicate (width - digits.length) '0' ++ digits)

/-- A character inside the `repr` of a string. -/
def Interpreter.reprChar (py : Interpreter) (quote c : Char) : Text :=
  if c = quote ∨ c = '\\' then ['\\', c]
  else if c = '\t' then ['\\', 't']
  else if c = '\n' then ['\\', 'n']
  else if c = '\r' then ['\\', 'r']
  else if 0x20 ≤ c.toNat ∧ c.toNat < 0x7f then [c]
  else if 0x7f < c.toNat ∧ py.printable c then [c]
  else if c.toNat ≤ 0xff then hexEscape 'x' 2 c.toNat
  else if c.toNat ≤ 0xffff then hexEscape 'u' 4 c.toNat
  else hexEscape 'U' 8 c.toNat

/-- `repr` of a string: in double quotes when it holds only single ones. -/
def Interpreter.reprString (py : Interpreter) (s : Text) : Text :=
  let quote := if '\'' ∈ s ∧ '"' ∉ s then '"' else '\''
  quote :: s.flatMap (py.reprChar quote) ++ [quote]

mutual

/-- `repr(value)`. -/
def Interpreter.repr (py : Interpreter) : Json → Text
  | .null => "None".toList
  | .bool true => "True".toList
  | .bool false => "False".toList
  | .int i => Json.renderInt i
  | .float numeral => py.floatRepr numeral
  | .string s => py.reprString s
  | .array items => '[' :: py.reprItems items ++ [']']
  | .object members => '\x7b' :: py.reprMembers members ++ ['\x7d']

/-- The items of a list, as `repr` prints them. -/
def Interpreter.reprItems (py : Interpreter) : List Json → Text
  | [] => []
  | [v] => py.repr v
  | v :: w :: items => py.repr v ++ ',' :: ' ' :: py.reprItems (w :: items)

/-- The members of a dictionary, as `repr` prints them. -/
def Interpreter.reprMembers (py : Interpreter) : List (Text × Json) → Text
  | [] => []
  | [(key, v)] => py.reprString key ++ ':' :: ' ' :: py.repr v
  | (key, v) :: m :: members =>
      py.reprString key ++ ':' :: ' ' :: py.repr v ++ ',' :: ' ' :: py.reprMembers (m :: members)

end

/-- `str(value)`. -/
def Interpreter.str (py : Interpreter) : Json → Text
  | .string s => s
  | v => py.repr v

/-! ### Answers -/

/-- What a tool returns. -/
inductive ToolAnswer where
  | price (report : PriceReport)
  | stock (report : StockReport)
  | search (result : SearchResult)
  | failed (error : Text)

/-- A text, or null. -/
def jsonOrNull : Option Text → Json
  | none => .null
  | some s => .string s

/-- `_plant_identity`. -/
def PlantIdentity.members (identity : PlantIdentity) : List (Text × Json) :=
  [("plant_id".toList, .string identity.plantId), ("name".toList, .string identity.name),
    ("name_vi".toList, jsonOrNull identity.nameVi), ("slug".toList, .string identity.slug)]

/-- The answer when no plant was found. -/
def missingMembers (plantQuery error : Text) : List (Text × Json) :=
  [("found".toList, .bool false), ("plant_query".toList, .string plantQuery),
    ("error".toList, .string error)]

/-- The members of the answer. -/
def PriceReport.members : PriceReport → List (Text × Json)
  | .missing plantQuery error => missingMembers plantQuery error
  | .found identity price priceVi currency =>
      ("found".toList, .bool true) :: identity.members ++
        [("price".toList, .string price), ("price_vi".toList, jsonOrNull priceVi),
          ("currency".toList, .string currency)]

/-- The members of the answer. -/
def StockReport.members : StockReport → List (Text × Json)
  | .missing plantQuery error => missingMembers plantQuery error
  | .found identity stock inStock isActive =>
      ("found".toList, .bool true) :: identity.members ++
        [("stock".toList, .int stock), ("in_stock".toList, .bool inStock),
          ("is_active".toList, .bool isActive)]

/-- What a tool says of a hit. -/
def SearchChunk.json (chunk : SearchChunk) : Json :=
  .object [("title".toList, .string chunk.title), ("slug".toList, .string chunk.slug),
    ("locale".toList, .string chunk.locale), ("section".toList, .string chunk.sectionLabel),
    ("content".toList, .string chunk.content)]

/-- Either the reason of a failure or the query stands behind the chunks. -/
def SearchResult.members (result : SearchResult) : List (Text × Json) :=
  ("found".toList, .bool result.found) ::
    ("chunks".toList, .array (result.chunks.map SearchChunk.json)) ::
      match result.error with
      | some error => [("error".toList, .string error)]
      | none => [("query".toList, jsonOrNull result.query)]

/-- The members of the answer. -/
def ToolAnswer.members : ToolAnswer → List (Text × Json)
  | .price report => report.members
  | .stock report => report.members
  | .search result => result.members
  | .failed error => [("ok".toList, .bool false), ("error".toList, .string error)]

/-- The answer as JSON. -/
def ToolAnswer.json (answer : ToolAnswer) : Json := .object answer.members

/-! ### The dispatch -/

/-- What a tool call finds: the database and the vector store as they are then. -/
structure ToolWorld where
  locale : DbLocale
  casing : Casing
  db : Db
  store : VectorStore
  rag : RagSettings
  /-- What `_find_active_plant` returns, unless it raises. -/
  lookup : Text → Option (Option (UUID × Plant))
  found : ∀ plantQuery answer, lookup plantQuery = some answer →
    FindActivePlant locale casing db plantQuery answer
  /-- The column is an `INTEGER`. -/
  stock_lt : ∀ row ∈ db.plants.entries, row.2.stock.natAbs < 2 ^ 31

/-- `str(raw_args.get(key) or "")`. -/
def Interpreter.argument (py : Interpreter) (rawArgs : List (Text × Json)) (key : Text) : Text :=
  match rawArgs.lookup key with
  | none => []
  | some value => if py.truth value then py.str value else []

/-- `str(locale) if locale else None`. -/
def Interpreter.localeArgument (py : Interpreter) (rawArgs : List (Text × Json)) : Option Text :=
  match rawArgs.lookup "locale".toList with
  | none => none
  | some value => if py.truth value then some (py.str value) else none

/-- The answer to an exception. -/
def toolFailed (name : Text) : ToolAnswer :=
  .failed ("Tool '".toList ++ name ++ "' failed".toList)

/-- The tool of this name, on arguments that are a dict. -/
def callTool (py : Interpreter) (world : ToolWorld) (name : Text) (rawArgs : List (Text × Json)) :
    ToolAnswer :=
  if name = "get_plant_price".toList then
    let plantQuery := py.argument rawArgs "plant_query".toList
    match world.lookup plantQuery with
    | none => toolFailed name
    | some plant => .price (ChatTools.getPlantPrice plantQuery plant)
  else if name = "check_stock".toList then
    let plantQuery := py.argument rawArgs "plant_query".toList
    match world.lookup plantQuery with
    | none => toolFailed name
    | some plant => .stock (ChatTools.checkStock plantQuery plant)
  else if name = "search_plant_knowledge".toList then
    .search (searchPlantKnowledge world.store world.rag (py.argument rawArgs "query".toList) none
      (py.localeArgument rawArgs))
  else if name = "search_shop_faq".toList then
    .search (searchFaqKnowledge world.store world.rag (py.argument rawArgs "query".toList) none
      (py.localeArgument rawArgs))
  else .failed ("Unknown tool: ".toList ++ name)

/-- Dispatch a tool call.  Only `JSONDecodeError` is caught around the
arguments. -/
def executeChatTool (py : Interpreter) (world : ToolWorld) (name argumentsJson : Text) :
    Except JsonError ToolAnswer :=
  match Json.loads py.decodeLimit (orDefault (some argumentsJson) "\x7b\x7d".toList) with
  | .error .decode => .ok (.failed "Invalid tool arguments JSON".toList)
  | .error e => .error e
  | .ok (.object rawArgs) => .ok (callTool py world name rawArgs)
  | .ok _ => .ok (.failed "Invalid tool arguments".toList)

/-- The content of the tool message, `json.dumps(result, ensure_ascii=False)`.
No answer holds a float (`ToolAnswer.plain`). -/
def toolContent (py : Interpreter) (world : ToolWorld) (call : ParsedToolCall) :
    Except ChatError Text :=
  match executeChatTool py world call.name call.arguments with
  | .error _ => .error .raised
  | .ok answer =>
      match answer.json.dumps py.floatRepr py.encodeLimit with
      | .error _ => .error .raised
      | .ok content => .ok content

/-- A chat whose tools are these, in the world of each call. -/
def Behaviour.withTools (b : Behaviour) (py : Interpreter) (worlds : ℕ → ℕ → ToolWorld) :
    Behaviour :=
  { b with execute := fun round i call => toolContent py (worlds round i) call }

namespace Json

/-- Nothing in it that `loads` would not give back. -/
structure Plain (v : Json) : Prop where
  held : v.AllHeld
  floatFree : v.FloatFree

theorem plain_null : Plain null :=
  ⟨fun w hw => by cases hw; trivial, fun numeral hw => by cases hw⟩

theorem plain_bool (b : Bool) : Plain (bool b) :=
  ⟨fun w hw => by cases hw; trivial, fun numeral hw => by cases hw⟩

theorem plain_string (s : Text) : Plain (string s) :=
  ⟨fun w hw => by cases hw; trivial, fun numeral hw => by cases hw⟩

theorem plain_int {i : ℤ} (hi : (int i).Held) : Plain (int i) :=
  ⟨fun w hw => by cases hw; exact hi, fun numeral hw => by cases hw⟩

theorem plain_array {items : List Json} (h : ∀ v ∈ items, Plain v) : Plain (array items) := by
  constructor
  · intro w hw
    cases hw with
    | self => trivial
    | item hv hw => exact (h _ hv).held w hw
  · intro numeral hw
    cases hw with
    | item hv hw => exact (h _ hv).floatFree numeral hw

theorem plain_object {members : List (Text × Json)} (hkeys : (members.map Prod.fst).Nodup)
    (h : ∀ m ∈ members, Plain m.2) : Plain (object members) := by
  constructor
  · intro w hw
    cases hw with
    | self => exact hkeys
    | member hm hw => exact (h _ hm).held w hw
  · intro numeral hw
    cases hw with
    | member hm hw => exact (h _ hm).floatFree numeral hw

end Json

theorem plain_jsonOrNull (value : Option Text) : Json.Plain (jsonOrNull value) := by
  cases value with
  | none => exact Json.plain_null
  | some s => exact Json.plain_string s

theorem depth_jsonOrNull (value : Option Text) : (jsonOrNull value).depth = 0 := by
  cases value <;> rfl

theorem SearchChunk.plain (chunk : SearchChunk) : Json.Plain chunk.json := by
  refine Json.plain_object (by simp) fun m hm => ?_
  simp only [List.mem_cons, List.not_mem_nil, or_false] at hm
  rcases hm with rfl | rfl | rfl | rfl | rfl <;> exact Json.plain_string _

theorem plain_missing (plantQuery error : Text) :
    Json.Plain (.object (missingMembers plantQuery error)) := by
  refine Json.plain_object (by simp [missingMembers]) fun m hm => ?_
  simp only [missingMembers, List.mem_cons, List.not_mem_nil, or_false] at hm
  rcases hm with rfl | rfl | rfl
  · exact Json.plain_bool false
  · exact Json.plain_string _
  · exact Json.plain_string _

theorem PlantIdentity.plain (identity : PlantIdentity) :
    ∀ m ∈ identity.members, Json.Plain m.2 := by
  intro m hm
  simp only [PlantIdentity.members, List.mem_cons, List.not_mem_nil, or_false] at hm
  rcases hm with rfl | rfl | rfl | rfl
  · exact Json.plain_string _
  · exact Json.plain_string _
  · exact plain_jsonOrNull _
  · exact Json.plain_string _

theorem PriceReport.plain (report : PriceReport) : Json.Plain (.object report.members) := by
  cases report with
  | missing plantQuery error => exact plain_missing plantQuery error
  | found identity price priceVi currency =>
    refine Json.plain_object (by simp [PriceReport.members, PlantIdentity.members]) fun m hm => ?_
    simp only [PriceReport.members, List.cons_append, List.mem_cons, List.mem_append,
      List.not_mem_nil, or_false] at hm
    rcases hm with rfl | hm | rfl | rfl | rfl
    · exact Json.plain_bool true
    · exact identity.plain m hm
    · exact Json.plain_string _
    · exact plain_jsonOrNull _
    · exact Json.plain_string _

/-- A number of an `INTEGER` column is short enough to be printed. -/
theorem held_stock {stock : ℤ} (h : stock.natAbs < 2 ^ 31) : (Json.int stock).Held := by
  have hlength : (Nat.toDigits 10 stock.natAbs).length ≤ 10 :=
    (Nat.length_toDigits_le_iff (by norm_num) (by norm_num)).mpr (lt_trans h (by norm_num))
  exact hlength.trans (by norm_num [Json.intMaxStrDigits])

theorem StockReport.plain {report : StockReport}
    (h : ∀ identity stock inStock isActive, report = .found identity stock inStock isActive →
      stock.natAbs < 2 ^ 31) : Json.Plain (.object report.members) := by
  cases report with
  | missing plantQuery error => exact plain_missing plantQuery error
  | found identity stock inStock isActive =>
    refine Json.plain_object (by simp [StockReport.members, PlantIdentity.members]) fun m hm => ?_
    simp only [StockReport.members, List.cons_append, List.mem_cons, List.mem_append,
      List.not_mem_nil, or_false] at hm
    rcases hm with rfl | hm | rfl | rfl | rfl
    · exact Json.plain_bool true
    · exact identity.plain m hm
    · exact Json.plain_int (held_stock (h _ _ _ _ rfl))
    · exact Json.plain_bool _
    · exact Json.plain_bool _

theorem SearchResult.plain (result : SearchResult) : Json.Plain (.object result.members) := by
  have hchunks : Json.Plain (.array (result.chunks.map SearchChunk.json)) := by
    refine Json.plain_array fun v hv => ?_
    obtain ⟨chunk, -, rfl⟩ := List.mem_map.mp hv
    exact chunk.plain
  rw [SearchResult.members]
  rcases result.error with - | error
  · refine Json.plain_object (by simp) fun m hm => ?_
    simp only [List.mem_cons, List.not_mem_nil, or_false] at hm
    rcases hm with rfl | rfl | rfl
    · exact Json.plain_bool _
    · exact hchunks
    · exact plain_jsonOrNull _
  · refine Json.plain_object (by simp) fun m hm => ?_
    simp only [List.mem_cons, List.not_mem_nil, or_false] at hm
    rcases hm with rfl | rfl | rfl
    · exact Json.plain_bool _
    · exact hchunks
    · exact Json.plain_string _

/-- No answer is deeper than an object in an array in an object. -/
theorem ToolAnswer.depth_le (answer : ToolAnswer) : answer.json.depth ≤ 3 := by
  have hchunks : ∀ chunks : List SearchChunk,
      Json.depthItems (chunks.map SearchChunk.json) ≤ 1 := by
    intro chunks
    induction chunks with
    | nil => exact Nat.zero_le 1
    | cons chunk chunks ih =>
      rw [List.map_cons, Json.depthItems]
      exact max_le (le_of_eq rfl) ih
  cases answer with
  | price report =>
    cases report with
    | missing plantQuery error => exact Nat.le_of_ble_eq_true rfl
    | found identity price priceVi currency =>
      simp [ToolAnswer.json, ToolAnswer.members, PriceReport.members, PlantIdentity.members,
        Json.depth, Json.depthMembers, depth_jsonOrNull]
  | stock report =>
    cases report with
    | missing plantQuery error => exact Nat.le_of_ble_eq_true rfl
    | found identity stock inStock isActive =>
      simp [ToolAnswer.json, ToolAnswer.members, StockReport.members, PlantIdentity.members,
        Json.depth, Json.depthMembers, depth_jsonOrNull]
  | search result =>
    have hle := hchunks result.chunks
    rcases herror : result.error with - | error
    · simp only [ToolAnswer.json, ToolAnswer.members, SearchResult.members, herror, Json.depth,
        Json.depthMembers, depth_jsonOrNull]
      omega
    · simp only [ToolAnswer.json, ToolAnswer.members, SearchResult.members, herror, Json.depth,
        Json.depthMembers]
      omega
  | failed error => exact Nat.le_of_ble_eq_true rfl

/-! ### What an answer says -/

/-- What the lookup returns is on sale. -/
theorem active_of_found {locale : DbLocale} {casing : Casing} {db : Db} {plantQuery : Text}
    {row : UUID × Plant} (h : FindActivePlant locale casing db plantQuery (some row)) :
    row ∈ db.plants.entries ∧ row.2.isActive = true := by
  simp only [FindActivePlant] at h
  split at h
  · cases h
  split at h
  · obtain ⟨found, hmem, heq⟩ := h
    obtain rfl := Option.some.inj heq
    rw [withSlug, List.mem_filter, Bool.and_eq_true] at hmem
    exact ⟨hmem.1, hmem.2.1⟩
  · obtain ⟨page, ⟨sorted, hperm, -, rfl⟩, heq⟩ := h
    have hmem := hperm.subset (List.mem_of_mem_drop (List.mem_of_mem_take
      (preferExact_mem heq.symm)))
    rw [candidates, List.mem_filter, containsQuery, Bool.and_eq_true] at hmem
    exact ⟨hmem.1, hmem.2.1⟩

namespace Json

/-- A member of an object. -/
def get (v : Json) (key : Text) : Option Json :=
  match v with
  | object members => members.lookup key
  | _ => none

end Json

/-- What a tool message says is so: prices and stock are those of a plant on
sale, parts of texts are from the collections, and where parts of texts are
there is no price and no stock. -/
structure Truthful (world : ToolWorld) (v : Json) : Prop where
  price : ∀ p, v.get "price".toList = some p → ∃ row ∈ world.db.plants.entries,
    row.2.isActive = true ∧ v.get "plant_id".toList = some (.string (uuidText row.1)) ∧
    v.get "name".toList = some (.string row.2.name) ∧ p = .string (moneyText row.2.price) ∧
    v.get "price_vi".toList = some (jsonOrNull (row.2.priceVi.map moneyText))
  stock : ∀ n, v.get "stock".toList = some n → ∃ row ∈ world.db.plants.entries,
    row.2.isActive = true ∧ v.get "plant_id".toList = some (.string (uuidText row.1)) ∧
    v.get "name".toList = some (.string row.2.name) ∧ n = .int row.2.stock ∧
    v.get "in_stock".toList = some (.bool (0 < row.2.stock))
  chunks : ∀ items, v.get "chunks".toList = some (.array items) → ∀ item ∈ items,
    ∃ name objects o chunk, world.store.collection name = some objects ∧ o ∈ objects ∧
      searchChunk o = some chunk ∧ item = chunk.json
  apart : ∀ items, v.get "chunks".toList = some items →
    v.get "price".toList = none ∧ v.get "stock".toList = none

/-- An answer without any of these members. -/
theorem truthful_of_none {world : ToolWorld} {v : Json} (hprice : v.get "price".toList = none)
    (hstock : v.get "stock".toList = none) (hchunks : v.get "chunks".toList = none) :
    Truthful world v := by
  refine ⟨fun p hp => ?_, fun n hn => ?_, fun items hitems => ?_, fun items hitems => ?_⟩
  · rw [hprice] at hp
    cases hp
  · rw [hstock] at hn
    cases hn
  · rw [hchunks] at hitems
    cases hitems
  · rw [hchunks] at hitems
    cases hitems

section Answers

variable {world : ToolWorld} {plantQuery : Text} {plant : Option (UUID × Plant)}

/-- An error payload. -/
theorem answer_failed (world : ToolWorld) (error : Text) :
    Truthful world (ToolAnswer.failed error).json ∧
      Json.Plain (ToolAnswer.failed error).json := by
  refine ⟨truthful_of_none rfl rfl rfl,
    Json.plain_object (by simp [ToolAnswer.members]) fun m hm => ?_⟩
  simp only [ToolAnswer.members, List.mem_cons, List.not_mem_nil, or_false] at hm
  rcases hm with rfl | rfl
  · exact Json.plain_bool false
  · exact Json.plain_string _

theorem truthful_price (h : world.lookup plantQuery = some plant) :
    Truthful world (ToolAnswer.price (ChatTools.getPlantPrice plantQuery plant)).json := by
  rcases plant with - | row
  · exact truthful_of_none rfl rfl rfl
  · obtain ⟨hmem, hactive⟩ := active_of_found (world.found _ _ h)
    refine ⟨fun p hp => ?_, nofun, nofun, nofun⟩
    cases hp
    exact ⟨row, hmem, hactive, rfl, rfl, rfl, rfl⟩

theorem truthful_stock (h : world.lookup plantQuery = some plant) :
    Truthful world (ToolAnswer.stock (ChatTools.checkStock plantQuery plant)).json := by
  rcases plant with - | row
  · exact truthful_of_none rfl rfl rfl
  · obtain ⟨hmem, hactive⟩ := active_of_found (world.found _ _ h)
    refine ⟨nofun, fun n hn => ?_, nofun, nofun⟩
    cases hn
    exact ⟨row, hmem, hactive, rfl, rfl, rfl, rfl⟩

theorem truthful_search {result : SearchResult}
    (h : ∀ chunk ∈ result.chunks, ∃ name objects o, world.store.collection name = some objects ∧
      o ∈ objects ∧ searchChunk o = some chunk) :
    Truthful world (ToolAnswer.search result).json := by
  -- no other member than these four is ever there
  have hnone : ∀ key, key ≠ "found".toList → key ≠ "chunks".toList → key ≠ "error".toList →
      key ≠ "query".toList → (ToolAnswer.search result).json.get key = none := by
    intro key hfound hchunks herror hquery
    show (SearchResult.members result).lookup key = none
    rw [List.lookup_eq_none_iff, SearchResult.members]
    intro m hm
    rcases herr : result.error with - | error
    all_goals
      rw [herr] at hm
      simp only [List.mem_cons, List.not_mem_nil, or_false] at hm
      rcases hm with rfl | rfl | rfl <;> simpa
  have hprice := hnone "price".toList (by decide) (by decide) (by decide) (by decide)
  have hstock := hnone "stock".toList (by decide) (by decide) (by decide) (by decide)
  refine ⟨fun p hp => ?_, fun n hn => ?_, fun items hitems item hitem => ?_,
    fun _ _ => ⟨hprice, hstock⟩⟩
  · rw [hprice] at hp
    cases hp
  · rw [hstock] at hn
    cases hn
  · have heq : (ToolAnswer.search result).json.get "chunks".toList
        = some (.array (result.chunks.map SearchChunk.json)) := rfl
    rw [heq] at hitems
    cases hitems
    obtain ⟨chunk, hchunk, rfl⟩ := List.mem_map.mp hitem
    obtain ⟨name, objects, o, hobjects, ho, hsearch⟩ := h chunk hchunk
    exact ⟨name, objects, o, chunk, hobjects, ho, hsearch, rfl⟩

/-- What a tool may answer. -/
theorem callTool_answer (py : Interpreter) (world : ToolWorld) (name : Text)
    (rawArgs : List (Text × Json)) : Truthful world (callTool py world name rawArgs).json ∧
      Json.Plain (callTool py world name rawArgs).json := by
  unfold callTool
  split
  · dsimp only
    split
    · exact answer_failed world _
    · rename_i plant hplant
      exact ⟨truthful_price hplant, PriceReport.plain _⟩
  split
  · dsimp only
    split
    · exact answer_failed world _
    · rename_i plant hplant
      refine ⟨truthful_stock hplant,
        StockReport.plain fun identity stock inStock isActive heq => ?_⟩
      rcases plant with - | row
      · cases heq
      · cases heq
        exact world.stock_lt row (active_of_found (world.found _ _ hplant)).1
  split
  · refine ⟨truthful_search fun chunk hchunk => ?_, SearchResult.plain _⟩
    obtain ⟨objects, hobjects, o, ho, -, hsearch⟩ := mem_searchCollection hchunk
    exact ⟨_, objects, o, hobjects, ho, hsearch⟩
  split
  · refine ⟨truthful_search fun chunk hchunk => ?_, SearchResult.plain _⟩
    obtain ⟨objects, hobjects, o, ho, -, hsearch⟩ := mem_searchFaqKnowledge hchunk
    exact ⟨_, objects, o, hobjects, ho, hsearch⟩
  · exact answer_failed world _

/-- Arguments are answered, or they could not be read. -/
theorem executeChatTool_cases (py : Interpreter) (world : ToolWorld) (name argumentsJson : Text) :
    (∃ answer, executeChatTool py world name argumentsJson = .ok answer ∧
      Truthful world answer.json ∧ Json.Plain answer.json) ∨
    ∃ e, Json.loads py.decodeLimit (orDefault (some argumentsJson) "\x7b\x7d".toList) = .error e ∧
      e ≠ .decode ∧ executeChatTool py world name argumentsJson = .error e := by
  rw [executeChatTool]
  rcases Json.loads py.decodeLimit (orDefault (some argumentsJson) "\x7b\x7d".toList) with e | v
  · cases e with
    | decode => exact .inl ⟨_, rfl, answer_failed world _⟩
    | value => exact .inr ⟨_, rfl, nofun, rfl⟩
    | recursion => exact .inr ⟨_, rfl, nofun, rfl⟩
    | surrogate => exact .inr ⟨_, rfl, nofun, rfl⟩
  · cases v with
    | object rawArgs => exact .inl ⟨_, rfl, callTool_answer py world name rawArgs⟩
    | null => exact .inl ⟨_, rfl, answer_failed world _⟩
    | bool b => exact .inl ⟨_, rfl, answer_failed world _⟩
    | int i => exact .inl ⟨_, rfl, answer_failed world _⟩
    | float numeral => exact .inl ⟨_, rfl, answer_failed world _⟩
    | string s => exact .inl ⟨_, rfl, answer_failed world _⟩
    | array items => exact .inl ⟨_, rfl, answer_failed world _⟩

end Answers

/-! ### Whole conversations -/

/-- In a turn that is through every call has been answered. -/
theorem toolResults_ran {execute : ℕ → ParsedToolCall → Except ChatError Text} {i : ℕ}
    {calls : List ParsedToolCall} {results : List Message}
    (h : toolResults execute i calls = .ok results) :
    ∀ call ∈ calls, ∃ j text, execute j call = .ok text := by
  induction calls generalizing i results with
  | nil => exact nofun
  | cons call calls ih =>
    obtain ⟨text, rest, hcall, hrest, -⟩ := toolResults_cons_ok h
    exact List.forall_mem_cons.mpr ⟨⟨i, text, hcall⟩, ih hrest⟩

theorem toolResults_error {execute : ℕ → ParsedToolCall → Except ChatError Text} {i : ℕ}
    {calls : List ParsedToolCall} {e : ChatError} (h : toolResults execute i calls = .error e) :
    ∃ j, ∃ call ∈ calls, execute j call = .error e := by
  induction calls generalizing i with
  | nil => cases h
  | cons call calls ih =>
    rcases toolResults_cons_error h with hcall | hrest
    · exact ⟨i, call, List.mem_cons_self, hcall⟩
    · obtain ⟨j, later, hmem, hlater⟩ := ih hrest
      exact ⟨j, later, List.mem_cons_of_mem _ hmem, hlater⟩

theorem executeToolCalls_error {execute : ℕ → ParsedToolCall → Except ChatError Text}
    {messages : List Message} {calls : List ParsedToolCall} {content : Option Text} {e : ChatError}
    (h : executeToolCalls execute messages calls content = .error e) :
    ∃ j, ∃ call ∈ calls, execute j call = .error e := by
  rw [executeToolCalls] at h
  cases hresults : toolResults execute 0 calls with
  | error e' =>
    rw [hresults] at h
    cases h
    exact toolResults_error hresults
  | ok results =>
    rw [hresults] at h
    cases h

section Conversations

variable (parse : MarkupParser) (b : Behaviour) (message : Text) (conversation : List HistoryItem)
variable {P : List Message → Prop}

/-- The calls that the model asks for in a turn: a routing round, or behind these a streaming
round. -/
def TurnCalls (turn : ℕ) (calls : List ParsedToolCall) : Prop :=
  (turn < maxToolRounds ∧ ∃ msg, b.routing turn = .ok msg ∧
    routingCalls parse (b.newToolCallId turn) msg = .ok calls) ∨
  ∃ round ≤ maxStreamToolRounds, turn = streamTurn round ∧
    ∃ result, (streamedReply b round).2 = .ok result ∧
      streamedCalls parse (b.newToolCallId turn) result = .ok calls

/-- Why the routing rounds break off: the provider, the markup parser, or a tool they asked
for. -/
def RoutingBroken (rounds : List ℕ) (e : ChatError) : Prop :=
  ∃ round ∈ rounds, (∃ pe, b.routing round = .error pe ∧ e = chatError pe) ∨
    ∃ msg, b.routing round = .ok msg ∧
      (routingCalls parse (b.newToolCallId round) msg = .error e ∨
        ∃ calls, routingCalls parse (b.newToolCallId round) msg = .ok calls ∧
          ∃ call ∈ calls, ∃ i, b.execute round i call = .error e)

/-- Why the streaming rounds break off. -/
def StreamingBroken (rounds : List ℕ) (e : ChatError) : Prop :=
  ∃ round ∈ rounds, (∃ pe, (b.streaming round).failure = some pe ∧ e = chatError pe) ∨
    ∃ result, (streamedReply b round).2 = .ok result ∧
      (streamedCalls parse (b.newToolCallId (streamTurn round)) result = .error e ∨
        ∃ calls, streamedCalls parse (b.newToolCallId (streamTurn round)) result = .ok calls ∧
          ∃ call ∈ calls, ∃ i, b.execute (streamTurn round) i call = .error e)

theorem routing_broken (rounds : List ℕ) {messages : List Message} {e : ChatError}
    (h : (runToolRounds parse b rounds messages).result = .error e) :
    RoutingBroken parse b rounds e := by
  induction rounds generalizing messages with
  | nil => cases h
  | cons round rounds ih =>
    rw [runToolRounds] at h
    rcases hreply : b.routing round with pe | msg
    · rw [hreply] at h
      cases h
      exact ⟨round, List.mem_cons_self, .inl ⟨pe, hreply, rfl⟩⟩
    · rw [hreply] at h
      dsimp only at h
      split at h
      · rename_i e' hraised
        cases h
        exact ⟨round, List.mem_cons_self, .inr ⟨msg, hreply, .inl hraised⟩⟩
      rename_i calls hcalls
      split at h
      · cases h
      split at h
      · rename_i e' hexecute
        cases h
        obtain ⟨i, call, hcall, herror⟩ := executeToolCalls_error hexecute
        exact ⟨round, List.mem_cons_self,
          .inr ⟨msg, hreply, .inr ⟨calls, hcalls, call, hcall, i, herror⟩⟩⟩
      · obtain ⟨r, hr, hbroken⟩ := ih h
        exact ⟨r, List.mem_cons_of_mem _ hr, hbroken⟩

theorem streamCompletion_error {newId : ℕ → Text} {reply : StreamReply} {e : ChatError}
    (h : (streamCompletion newId reply).2 = .error e) :
    ∃ pe, reply.failure = some pe ∧ e = chatError pe := by
  rw [streamCompletion] at h
  rcases hfailure : reply.failure with - | pe
  · rw [hfailure] at h
    dsimp only at h
    split at h <;> cases h
  · rw [hfailure] at h
    cases h
    exact ⟨pe, rfl, rfl⟩

theorem streaming_broken (rounds : List ℕ) {messages : List Message} {emitted : Bool}
    {e : ChatError} (h : (streamRounds parse b rounds messages emitted).result = .error e) :
    StreamingBroken parse b rounds e := by
  induction rounds generalizing messages emitted with
  | nil => cases h
  | cons round rounds ih =>
    rw [streamRounds] at h
    split at h
    · rename_i yielded e' hreply
      cases h
      obtain ⟨pe, hfailure, rfl⟩ := streamCompletion_error (congrArg Prod.snd hreply)
      exact ⟨round, List.mem_cons_self, .inl ⟨pe, hfailure, rfl⟩⟩
    · rename_i yielded result hreply
      dsimp only at h
      split at h
      · rename_i e' hraised
        cases h
        exact ⟨round, List.mem_cons_self,
          .inr ⟨result, congrArg Prod.snd hreply, .inl hraised⟩⟩
      rename_i calls hcalls
      split at h
      · cases h
      split at h
      · cases h
      split at h
      · rename_i e' hexecute
        cases h
        obtain ⟨i, call, hcall, herror⟩ := executeToolCalls_error hexecute
        exact ⟨round, List.mem_cons_self,
          .inr ⟨result, congrArg Prod.snd hreply, .inr ⟨calls, hcalls, call, hcall, i, herror⟩⟩⟩
      · obtain ⟨r, hr, hbroken⟩ := ih h
        exact ⟨r, List.mem_cons_of_mem _ hr, hbroken⟩

/-- A chat that is configured breaks off in one of its rounds. -/
theorem streamChat_broken (hconfigured : b.configured = true) {e : ChatError}
    (h : (streamChat parse b message conversation).failure = some e) :
    RoutingBroken parse b (List.range maxToolRounds) e ∨
      StreamingBroken parse b (List.range (maxStreamToolRounds + 1)) e := by
  rw [streamChat, if_pos hconfigured] at h
  dsimp only at h
  split at h
  · rename_i e' hrouted
    cases h
    exact .inl (routing_broken parse b _ hrouted)
  · split at h
    · rename_i e' hstreamed
      cases h
      exact .inr (streaming_broken parse b _ hstreamed)
    · cases h

/-- A first turn that fails is the end. -/
theorem streamChat_of_first (hconfigured : b.configured = true) {reply : RoutingReply}
    {e : ChatError} (hreply : b.routing 0 = .ok reply)
    (h : routingCalls parse (b.newToolCallId 0) reply = .error e ∨
      ∃ calls ≠ [], routingCalls parse (b.newToolCallId 0) reply = .ok calls ∧
        executeToolCalls (b.execute 0) (buildMessages message conversation) calls reply.content
          = .error e) :
    streamChat parse b message conversation
      = ⟨[buildMessages message conversation], [], some e⟩ := by
  have hrouted : runToolRounds parse b (List.range maxToolRounds)
      (buildMessages message conversation)
      = ⟨[buildMessages message conversation], .error e⟩ := by
    show runToolRounds parse b [0, 1, 2] _ = _
    rw [runToolRounds, hreply]
    dsimp only
    rcases h with hraised | ⟨calls, hne, hcalls, hexecute⟩
    · rw [hraised]
    · rw [hcalls]
      dsimp only
      rw [if_neg hne, hexecute]
  rw [streamChat, if_pos hconfigured, hrouted]

end Conversations

/-! ### What the tools tell the model -/

/-- `json.loads` raises something else than `JSONDecodeError`. -/
def Unreadable (py : Interpreter) (argumentsJson : Text) : Prop :=
  ∃ e, Json.loads py.decodeLimit (orDefault (some argumentsJson) "\x7b\x7d".toList) = .error e ∧
    (e = .value ∨ e = .recursion)

/-- The arguments hold half a surrogate pair, which no text here can. -/
def HalfPair (py : Interpreter) (argumentsJson : Text) : Prop :=
  Json.loads py.decodeLimit (orDefault (some argumentsJson) "\x7b\x7d".toList) = .error .surrogate

section Tools

variable (py : Interpreter) (worlds : ℕ → ℕ → ToolWorld) (parse : MarkupParser) (b : Behaviour)

variable {py} in
theorem toolContent_error {world : ToolWorld} {call : ParsedToolCall} {e : ChatError}
    (h : toolContent py world call = .error e) :
    e = .raised ∧ (Unreadable py call.arguments ∨ HalfPair py call.arguments) := by
  rw [toolContent] at h
  rcases executeChatTool_cases py world call.name call.arguments with
    ⟨answer, hanswer, -, -⟩ | ⟨e', hloads, hne, herror⟩
  · have hdepth : answer.json.depth ≤ py.encodeLimit := answer.depth_le.trans py.encode_ge
    rw [hanswer] at h
    dsimp only at h
    rw [Json.dumps, if_pos hdepth] at h
    cases h
  · rw [herror] at h
    cases h
    refine ⟨rfl, ?_⟩
    cases e' with
    | decode => exact absurd rfl hne
    | value => exact .inl ⟨_, hloads, .inl rfl⟩
    | recursion => exact .inl ⟨_, hloads, .inr rfl⟩
    | surrogate => exact .inr hloads

variable {py} in
theorem toolContent_unreadable {world : ToolWorld} {call : ParsedToolCall}
    (h : Unreadable py call.arguments) : toolContent py world call = .error .raised := by
  obtain ⟨e, hloads, rfl | rfl⟩ := h
  · rw [toolContent, executeChatTool, hloads]
  · rw [toolContent, executeChatTool, hloads]

variable (message : Text) (conversation : List HistoryItem)

end Tools

/-! ### The price of a fern -/

/-- An interpreter that goes ten levels down. -/
def tenDeep : Interpreter where
  isWord := Char.isAlphanum
  floatRepr := id
  decodeLimit := 10
  encodeLimit := 10
  decode_ge := by norm_num
  encode_ge := by norm_num
  printable _ := true
  floatIsZero _ := false

theorem fern_found : FindActivePlant cLocale asciiCasing Db.ferns "fern".toList
    (some (7, fern)) := by
  simp only [FindActivePlant]
  rw [if_neg (by decide), if_pos (by decide)]
  exact ⟨(7, fern), by decide, rfl⟩

/-- What a lookup that knows the one word finds. -/
def fernLookup (plantQuery : Text) : Option (Option (UUID × Plant)) :=
  if plantQuery = "fern".toList then some (some (7, fern)) else none

theorem fernLookup_found (plantQuery : Text) (answer : Option (UUID × Plant))
    (h : fernLookup plantQuery = some answer) :
    FindActivePlant cLocale asciiCasing Db.ferns plantQuery answer := by
  rw [fernLookup] at h
  split at h
  · rename_i heq
    cases h
    exact heq ▸ fern_found
  · cases h

theorem stock_lt_ferns : ∀ row ∈ Db.ferns.plants.entries, row.2.stock.natAbs < 2 ^ 31 := by
  decide

/-- A shop with one fern and two FAQs. -/
def fernWorld : ToolWorld where
  locale := cLocale
  casing := asciiCasing
  db := Db.ferns
  store := storeOf twoFaqs
  rag := keywordSettings
  lookup := fernLookup
  found := fernLookup_found
  stock_lt := stock_lt_ferns

/-- A model that asks for a price, with the given arguments. -/
def asksFor (arguments : Text) : RoutingReply :=
  ⟨none, [⟨none, none, some ⟨some "get_plant_price".toList, some arguments⟩⟩]⟩

section Failures

variable (py : Interpreter) (worlds : ℕ → ℕ → ToolWorld) (parse : MarkupParser) (b : Behaviour)
  (message : Text) (conversation : List HistoryItem)

/-- Every tool of a turn runs, or an error ends it. -/
theorem toolResults_unreadable (round i : ℕ) {calls : List ParsedToolCall}
    (h : ∃ call ∈ calls, Unreadable py call.arguments) :
    toolResults ((b.withTools py worlds).execute round) i calls = .error .raised := by
  -- an earlier call may raise first, but then it raises the same
  rcases hresults : toolResults ((b.withTools py worlds).execute round) i calls with e | results
  · obtain ⟨j, call, -, hcall⟩ := toolResults_error hresults
    rw [(toolContent_error hcall).1]
  · obtain ⟨call, hmem, hcall⟩ := h
    obtain ⟨j, text, hran⟩ := toolResults_ran hresults call hmem
    have hraised : (b.withTools py worlds).execute round j call = .error .raised :=
      toolContent_unreadable hcall
    rw [hraised] at hran
    cases hran

/-- The provider failed in a round of the chat. -/
def ProviderFailed (e : ChatError) : Prop :=
  (∃ round < maxToolRounds, ∃ pe, b.routing round = .error pe ∧ e = chatError pe) ∨
    ∃ round ≤ maxStreamToolRounds, ∃ pe, (b.streaming round).failure = some pe ∧ e = chatError pe

/-- The model asked for the call in a turn of the chat. -/
def AskedFor (call : ParsedToolCall) : Prop :=
  ∃ turn calls, TurnCalls parse b turn calls ∧ call ∈ calls

/-- A reply of the chat that carries no tool calls leaked this text, in which
the parser looks for some. -/
def Leaked (text : Text) : Prop :=
  (∃ round < maxToolRounds, ∃ msg, b.routing round = .ok msg ∧
    nativeToolCalls (b.newToolCallId round) msg.toolCalls = [] ∧
    containsToolMarkup ignoreCase msg.content = true ∧ text = msg.content.getD []) ∨
  ∃ round ≤ maxStreamToolRounds, ∃ result, (streamedReply b round).2 = .ok result ∧
    result.toolCalls = [] ∧ text = result.markup

theorem routingCalls_error {newId : ℕ → Text} {msg : RoutingReply} {e : ChatError}
    (h : routingCalls parse newId msg = .error e) :
    nativeToolCalls newId msg.toolCalls = [] ∧ containsToolMarkup ignoreCase msg.content = true ∧
      parse newId (msg.content.getD []) = .error e := by
  rw [routingCalls] at h
  split at h
  · rename_i hleaked
    exact ⟨hleaked.1, hleaked.2, h⟩
  · cases h

theorem streamedCalls_error {newId : ℕ → Text} {result : StreamRoundResult} {e : ChatError}
    (h : streamedCalls parse newId result = .error e) :
    result.toolCalls = [] ∧ parse newId result.markup = .error e := by
  rw [streamedCalls] at h
  split at h
  · rename_i hnone
    exact ⟨hnone, h⟩
  · cases h

/-- Why a chat ends with an exception: the provider failed, or the model asked
for a call whose arguments are not read, or leaked markup that is not. -/
def Broken (e : ChatError) : Prop :=
  ProviderFailed b e ∨ e = .raised ∧
    ((∃ call, AskedFor (dsmlParser py.toPython) b call ∧
      (Unreadable py call.arguments ∨ HalfPair py call.arguments)) ∨
    ∃ text, Leaked b text ∧ UnreadableMarkup py.toPython text)

/-- A chat that is configured breaks off for one of these reasons. -/
theorem broken_by (hconfigured : b.configured = true) {e : ChatError}
    (h : (streamChat (dsmlParser py.toPython) (b.withTools py worlds) message
      conversation).failure = some e) : Broken py b e := by
  rcases streamChat_broken (dsmlParser py.toPython) (b.withTools py worlds) message conversation
    hconfigured h with ⟨round, hround, hcause⟩ | ⟨round, hround, hcause⟩
  · have hrouting := List.mem_range.mp hround
    rcases hcause with ⟨pe, hreply, he⟩ | ⟨msg, hreply, hraised | ⟨calls, hcalls, call, hcall, i,
      herror⟩⟩
    · exact .inl (.inl ⟨round, hrouting, pe, hreply, he⟩)
    · obtain ⟨hnone, hmarkup, hparse⟩ := routingCalls_error _ hraised
      exact .inr ⟨dsmlParser_error hparse, .inr ⟨_,
        .inl ⟨round, hrouting, msg, hreply, hnone, hmarkup, rfl⟩,
        (raises_dsmlParser _).mp ⟨e, hparse⟩⟩⟩
    · obtain ⟨he, hargs⟩ := toolContent_error herror
      exact .inr ⟨he, .inl ⟨call,
        ⟨round, calls, .inl ⟨hrouting, msg, hreply, hcalls⟩, hcall⟩, hargs⟩⟩
  · have hstreaming := Nat.lt_succ_iff.mp (List.mem_range.mp hround)
    rcases hcause with ⟨pe, hreply, he⟩ | ⟨result, hreply, hraised | ⟨calls, hcalls, call, hcall,
      i, herror⟩⟩
    · exact .inl (.inr ⟨round, hstreaming, pe, hreply, he⟩)
    · obtain ⟨hnone, hparse⟩ := streamedCalls_error _ hraised
      exact .inr ⟨dsmlParser_error hparse, .inr ⟨_,
        .inr ⟨round, hstreaming, result, hreply, hnone, rfl⟩, (raises_dsmlParser _).mp ⟨e, hparse⟩⟩⟩
    · obtain ⟨he, hargs⟩ := toolContent_error herror
      exact .inr ⟨he, .inl ⟨call,
        ⟨streamTurn round, calls, .inr ⟨round, hstreaming, rfl, result, hreply, hcalls⟩, hcall⟩,
        hargs⟩⟩

/-- A first reply with a call that cannot be read ends the chat. -/
theorem first_unreadable (hconfigured : b.configured = true) {reply : RoutingReply}
    {calls : List ParsedToolCall} (hreply : b.routing 0 = .ok reply)
    (hcalls : routingCalls parse (b.newToolCallId 0) reply = .ok calls)
    (h : ∃ call ∈ calls, Unreadable py call.arguments) :
    streamChat parse (b.withTools py worlds) message conversation
      = ⟨[buildMessages message conversation], [], some .raised⟩ := by
  have hne : calls ≠ [] := by
    obtain ⟨call, hmem, -⟩ := h
    exact List.ne_nil_of_mem hmem
  refine streamChat_of_first parse (b.withTools py worlds) message conversation hconfigured hreply
    (.inr ⟨calls, hne, hcalls, ?_⟩)
  have herror := toolResults_unreadable py worlds b 0 0 h
  rw [executeToolCalls]
  show (toolResults ((b.withTools py worlds).execute 0) 0 calls >>= _) = _
  rw [herror]
  rfl

/-- A first reply with markup that cannot be read ends it as well. -/
theorem first_leaked (hconfigured : b.configured = true) {reply : RoutingReply}
    (hreply : b.routing 0 = .ok reply)
    (hnone : nativeToolCalls (b.newToolCallId 0) reply.toolCalls = [])
    (hmarkup : containsToolMarkup ignoreCase reply.content = true)
    (h : UnreadableMarkup py.toPython (reply.content.getD [])) :
    streamChat (dsmlParser py.toPython) (b.withTools py worlds) message conversation
      = ⟨[buildMessages message conversation], [], some .raised⟩ := by
  refine streamChat_of_first _ (b.withTools py worlds) message conversation hconfigured hreply
    (.inl ?_)
  obtain ⟨e, hparse⟩ := (raises_dsmlParser (b.newToolCallId 0)).mpr h
  rw [dsmlParser_error hparse] at hparse
  show routingCalls _ (b.newToolCallId 0) reply = _
  rw [routingCalls, if_pos ⟨hnone, hmarkup⟩, hparse]

/-! ### Arguments that cannot be read -/

variable {py} in
/-- What the scanner raises on the whole text is raised by `json.loads`. -/
theorem unreadable_of_scan {c : Char} {rest : Text} {e : JsonError}
    (hspace : Json.isJsonSpace c = false) (hbom : c ≠ '\ufeff')
    (hscan : Json.scanOnce py.decodeLimit (c :: rest) = .error e)
    (he : e = .value ∨ e = .recursion) :
    Unreadable py (c :: rest) := by
  have hhead : (c :: rest).head? ≠ some '\ufeff' := fun heq => hbom (Option.some.inj heq)
  refine ⟨e, ?_, he⟩
  show Json.loads py.decodeLimit (c :: rest) = _
  rw [Json.loads, if_neg hhead, Json.skip_cons hspace, hscan]
  rfl

/-- `int` refuses a number with more digits than the interpreter converts. -/
theorem scanNumber_tooLong {k : ℕ} (hk : Json.intMaxStrDigits < (Nat.toDigits 10 k).length) :
    Json.scanNumber (Nat.toDigits 10 k) = .error .value := by
  obtain ⟨d, more, hdigits, hdigit⟩ := Json.exists_toDigits k
  have hends : Json.Ends [] := nofun
  have hunsigned : Json.scanUnsigned false (Nat.toDigits 10 k) = .error .value := by
    have hsplit := Json.splitDigits_toDigits k hends
    rw [List.append_nil] at hsplit
    rw [Json.scanUnsigned]
    simp only [hsplit, Json.splitFraction_ends hends, Json.splitExponent_ends hends]
    rw [if_neg Nat.toDigits_ne_nil, if_pos (And.intro trivial trivial), if_pos hk]
  rw [← hunsigned, hdigits, Json.scanNumber]
  -- a digit is no sign
  rintro rest heq
  rw [(List.cons.inj heq).1] at hdigit
  cases hdigit

variable {py} in
theorem unreadable_toDigits {k : ℕ} (hk : Json.intMaxStrDigits < (Nat.toDigits 10 k).length) :
    Unreadable py (Nat.toDigits 10 k) := by
  have hnumber := scanNumber_tooLong hk
  obtain ⟨d, more, hdigits, hdigit⟩ := Json.exists_toDigits k
  rw [hdigits] at hnumber ⊢
  -- nothing else that starts a value or stands before one is a digit
  have hne : ∀ c : Char, c.isDigit = false → c ≠ d := by
    rintro c hc rfl
    rw [hdigit] at hc
    cases hc
  have hscalar : Json.scanScalar (d :: more) = .error .value := by
    have hnone : Json.constants.find? (fun c => c.1.isPrefixOf (d :: more)) = none := by
      simp [Json.constants, hne 'n' rfl, hne 't' rfl, hne 'f' rfl, hne 'N' rfl, hne 'I' rfl,
        hne '-' rfl]
    rw [Json.scanScalar, hnone]
    exact hnumber
  have hscan : ∀ item, Json.scanWith item (d :: more) = .error .value := by
    intro item
    rw [← hscalar, Json.scanWith]
    · exact List.cons_ne_nil _ _
    · exact fun rest heq => hne '"' rfl (List.cons.inj heq).1.symm
    · exact fun rest heq => hne '[' rfl (List.cons.inj heq).1.symm
    · exact fun rest heq => hne '\x7b' rfl (List.cons.inj heq).1.symm
  have honce : Json.scanOnce py.decodeLimit (d :: more) = .error .value := by
    cases py.decodeLimit with
    | zero => exact hscan none
    | succ limit => exact hscan _
  have hspace : Json.isJsonSpace d = false := by
    rw [Json.isJsonSpace, List.contains_eq_mem, decide_eq_false_iff_not]
    simp [(hne ' ' rfl).symm, (hne '\t' rfl).symm, (hne '\n' rfl).symm, (hne '\r' rfl).symm]
  exact unreadable_of_scan hspace (hne '\ufeff' rfl).symm honce (.inl rfl)

/-- Brackets inside brackets, more than the interpreter goes down. -/
theorem scanOnce_brackets (limit n : ℕ) (hn : limit < n) :
    Json.scanOnce limit (List.replicate n '[') = .error .recursion := by
  induction limit generalizing n with
  | zero =>
    obtain ⟨m, rfl⟩ : ∃ m, n = m + 1 := ⟨n - 1, by omega⟩
    rfl
  | succ limit ih =>
    -- the first item is all that is left, scanned with one level less
    obtain ⟨m, rfl⟩ : ∃ m, n = m + 2 := ⟨n - 2, by omega⟩
    have hinner := ih (m + 1) (by omega)
    show Json.scanArray (Json.scanOnce limit) ('[' :: List.replicate m '[') = _
    show Except.map _ (Json.scanItems (Json.scanOnce limit) _ ('[' :: List.replicate m '[')) = _
    rw [Json.scanItems, show '[' :: List.replicate m '[' = List.replicate (m + 1) '[' from rfl,
      hinner]
    rfl

variable {py} in
theorem unreadable_brackets {n : ℕ} (hn : py.decodeLimit < n) :
    Unreadable py (List.replicate n '[') := by
  obtain ⟨m, rfl⟩ : ∃ m, n = m + 1 := ⟨n - 1, by omega⟩
  exact unreadable_of_scan rfl (by decide) (scanOnce_brackets _ _ hn) (.inr rfl)

/-- **What breaks a chat off.**  A chat that is configured fails only when the
provider does, or when the model asks for a call whose arguments raise something
else than `JSONDecodeError`, or leaks markup that does so in the parser.  A first
reply of such a kind ends it before anything is shown, whichever tool is meant;
a number of more than 4300 digits or brackets nested too deep are such
arguments. -/
theorem chat_breaks_off (hconfigured : b.configured = true) :
    (∀ e, (streamChat (dsmlParser py.toPython) (b.withTools py worlds) message
        conversation).failure = some e → Broken py b e) ∧
    (∀ reply calls, b.routing 0 = .ok reply →
      routingCalls (dsmlParser py.toPython) (b.newToolCallId 0) reply = .ok calls →
      (∃ call ∈ calls, Unreadable py call.arguments) →
      streamChat (dsmlParser py.toPython) (b.withTools py worlds) message conversation
        = ⟨[buildMessages message conversation], [], some .raised⟩) ∧
    (∀ reply, b.routing 0 = .ok reply →
      nativeToolCalls (b.newToolCallId 0) reply.toolCalls = [] →
      containsToolMarkup ignoreCase reply.content = true →
      UnreadableMarkup py.toPython (reply.content.getD []) →
      streamChat (dsmlParser py.toPython) (b.withTools py worlds) message conversation
        = ⟨[buildMessages message conversation], [], some .raised⟩) ∧
    (∀ k, Json.intMaxStrDigits < (Nat.toDigits 10 k).length →
      Unreadable py (Nat.toDigits 10 k)) ∧
    ∀ n, py.decodeLimit < n → Unreadable py (List.replicate n '[') :=
  ⟨fun _ h => broken_by py worlds b message conversation hconfigured h,
    fun _ _ hreply hcalls h =>
      first_unreadable py worlds _ b message conversation hconfigured hreply hcalls h,
    fun _ hreply hnone hmarkup h =>
      first_leaked py worlds b message conversation hconfigured hreply hnone hmarkup h,
    fun _ hk => unreadable_toDigits hk, fun _ hn => unreadable_brackets hn⟩

end Failures

/-! ### A number that is too long, and markup that goes too deep -/

theorem exists_call_asksFor {arguments : Text} (h : arguments ≠ []) (parse : MarkupParser)
    (newId : ℕ → Text) :
    ∃ calls, routingCalls parse newId (asksFor arguments) = .ok calls ∧
      ∃ call ∈ calls, call.arguments = arguments := by
  obtain ⟨c, rest, rfl⟩ := List.exists_cons_of_ne_nil h
  exact ⟨_, rfl, _, .head _, rfl⟩

/-- The first number of 4301 digits. -/
def longNumber : ℕ := 10 ^ Json.intMaxStrDigits

theorem lt_length_longNumber : Json.intMaxStrDigits < (Nat.toDigits 10 longNumber).length := by
  rw [← not_le, Nat.length_toDigits_le_iff (by norm_num) (by norm_num [Json.intMaxStrDigits])]
  exact lt_irrefl longNumber

/-- A leaked call whose parameter is no string and opens eleven brackets. -/
def deepMarkup : Text :=
  ("<｜DSML｜invoke name=\"check_stock\"><｜DSML｜parameter name=\"plant_query\" " ++
    "string=\"false\">[[[[[[[[[[[</｜DSML｜parameter></｜DSML｜invoke>").toList

theorem unreadable_deepMarkup : UnreadableMarkup tenDeep.toPython deepMarkup :=
  (raises_dsmlParser fun _ => []).mp ⟨.raised, by decide +kernel⟩

theorem chat_breaks_off_first :
    streamChat (dsmlParser tenDeep.toPython)
        ({ greeting with routing := fun _ => .ok (asksFor (Nat.toDigits 10 longNumber)) }.withTools
          tenDeep fun _ _ => fernWorld) "hi".toList []
      = ⟨[buildMessages "hi".toList []], [], some .raised⟩ ∧
    streamChat (dsmlParser tenDeep.toPython)
        ({ greeting with routing := fun _ => .ok ⟨some deepMarkup, []⟩ }.withTools
          tenDeep fun _ _ => fernWorld) "hi".toList []
      = ⟨[buildMessages "hi".toList []], [], some .raised⟩ := by
  obtain ⟨-, hfirst, -, hdigits, -⟩ := chat_breaks_off tenDeep (fun _ _ => fernWorld)
    { greeting with routing := fun _ => .ok (asksFor (Nat.toDigits 10 longNumber)) }
    "hi".toList [] rfl
  obtain ⟨-, -, hleaked, -⟩ := chat_breaks_off tenDeep (fun _ _ => fernWorld)
    { greeting with routing := fun _ => .ok ⟨some deepMarkup, []⟩ } "hi".toList [] rfl
  have hne : Nat.toDigits 10 longNumber ≠ [] :=
    List.ne_nil_of_length_pos (Nat.zero_lt_of_lt lt_length_longNumber)
  obtain ⟨calls, hcalls, call, hmem, harguments⟩ :=
    exists_call_asksFor hne (dsmlParser tenDeep.toPython) fun _ => "call_0".toList
  exact ⟨hfirst _ calls rfl hcalls
      ⟨call, hmem, harguments ▸ hdigits longNumber lt_length_longNumber⟩,
    hleaked _ rfl rfl (by decide +kernel) unreadable_deepMarkup⟩

end GreenGarden
