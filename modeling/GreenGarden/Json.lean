/-
GreenGarden/Json.lean

JSON as Python's `json` module reads and writes it: `loads` with the errors it
raises, `dumps` with `ensure_ascii=False`.

A text of this development has no lone surrogates, so a string is scanned to
UTF-16 units, which are then put together; where `json` accepts a lone
surrogate there is no value here (`surrogate`).  Floats keep the numeral they
were read from, and how one is printed is left to the caller.  `limit` is how
many arrays and objects may stand inside each other before the interpreter
gives up.

Main results: what was printed is read back (`loads_render`), and what was read
holds no key twice and no integer too long to be printed (`held_of_loads`).
The loops over items and members have fuel for every text they are given
(`scanItems_fuel`, `scanMembers_fuel`).
-/
import GreenGarden.Text

namespace GreenGarden

/-! ### Values -/

/-- A JSON value; a float is its numeral. -/
inductive Json where
  | null
  | bool (b : Bool)
  | int (i : ℤ)
  | float (numeral : Text)
  | string (s : Text)
  | array (items : List Json)
  | object (members : List (Text × Json))

/-- What goes wrong: `JSONDecodeError`, another `ValueError`, `RecursionError`; and a value that
is none here. -/
inductive JsonError where
  | decode
  | value
  | recursion
  | surrogate
deriving DecidableEq

namespace Json

mutual

/-- How deep arrays and objects stand inside each other. -/
def depth : Json → ℕ
  | array items => depthItems items + 1
  | object members => depthMembers members + 1
  | _ => 0

/-- The depth of the deepest item. -/
def depthItems : List Json → ℕ
  | [] => 0
  | v :: items => max v.depth (depthItems items)

/-- The depth of the deepest member. -/
def depthMembers : List (Text × Json) → ℕ
  | [] => 0
  | (_, v) :: members => max v.depth (depthMembers members)

end

/-- A value and everything inside it. -/
inductive Part : Json → Json → Prop where
  | self (v : Json) : Part v v
  | item {w v : Json} {items : List Json} : v ∈ items → Part w v → Part w (array items)
  | member {w v : Json} {key : Text} {members : List (Text × Json)} :
      (key, v) ∈ members → Part w v → Part w (object members)

/-- No float anywhere in it. -/
def FloatFree (v : Json) : Prop := ∀ numeral, ¬ Part (float numeral) v

/-- `sys.get_int_max_str_digits()`. -/
def intMaxStrDigits : ℕ := 4300

/-- What a single value that `loads` returns satisfies. -/
def Held : Json → Prop
  | int i => (Nat.toDigits 10 i.natAbs).length ≤ intMaxStrDigits
  | object members => (members.map Prod.fst).Nodup
  | _ => True

/-- Every part of it can be held by Python. -/
def AllHeld (v : Json) : Prop := ∀ w, Part w v → w.Held

/-- `d[key] = value`: a key keeps its first place and its last value. -/
def setItem (members : List (Text × Json)) (key : Text) (value : Json) : List (Text × Json) :=
  if members.any (fun m => m.1 == key) then
    members.map fun m => if m.1 = key then (key, value) else m
  else members ++ [(key, value)]

/-- The dict of a list of pairs. -/
def dictOf (pairs : List (Text × Json)) : List (Text × Json) :=
  pairs.foldl (fun members p => setItem members p.1 p.2) []

/-! ### Writing -/

/-- The characters with an escape of their own, and its letter. -/
def escapes : List (Char × Char) :=
  [('"', '"'), ('\\', '\\'), ('\n', 'n'), ('\r', 'r'), ('\t', 't'), (Char.ofNat 12, 'f'),
    (Char.ofNat 8, 'b')]

/-- A character inside a string. -/
def escape (c : Char) : Text :=
  match escapes.lookup c with
  | some letter => ['\\', letter]
  | none =>
    if c.toNat < 0x20 then
      "\\u00".toList ++ [Nat.digitChar (c.toNat / 16), Nat.digitChar (c.toNat % 16)]
    else [c]

/-- A string in quotes, escaped. -/
def renderString (s : Text) : Text := '"' :: s.flatMap escape ++ ['"']

/-- An integer in decimal. -/
def renderInt (i : ℤ) : Text :=
  if i < 0 then '-' :: Nat.toDigits 10 i.natAbs else Nat.toDigits 10 i.natAbs

section Render

variable (floatRepr : Text → Text)

mutual

/-- What `json.dumps` prints. -/
def render : Json → Text
  | null => "null".toList
  | bool true => "true".toList
  | bool false => "false".toList
  | int i => renderInt i
  | float numeral => floatRepr numeral
  | string s => renderString s
  | array items => '[' :: renderItems items ++ [']']
  | object members => '{' :: renderMembers members ++ ['}']

/-- Items, separated by a comma and a blank. -/
def renderItems : List Json → Text
  | [] => []
  | [v] => render v
  | v :: w :: items => render v ++ ',' :: ' ' :: renderItems (w :: items)

/-- Members, separated in the same way. -/
def renderMembers : List (Text × Json) → Text
  | [] => []
  | [(key, v)] => renderString key ++ ':' :: ' ' :: render v
  | (key, v) :: m :: members =>
    renderString key ++ ':' :: ' ' :: render v ++ ',' :: ' ' :: renderMembers (m :: members)

end

/-- `json.dumps(v, ensure_ascii=False)` of a value whose integers can be printed. -/
def dumps (limit : ℕ) (v : Json) : Except JsonError Text :=
  if v.depth ≤ limit then .ok (v.render floatRepr) else .error .recursion

end Render

/-! ### Reading strings -/

/-- The code unit behind `\u`. -/
def hexUnit? (a b c d : Char) : Option ℕ := do
  some ((← hexDigit? a) * 0x1000 + (← hexDigit? b) * 0x100 + (← hexDigit? c) * 0x10 +
    (← hexDigit? d))

/-- The letters behind a backslash. -/
def unescape (letter : Char) : Option Char :=
  (('/', '/') :: escapes.map Prod.swap).lookup letter

/-- One more code unit in front of what was scanned. -/
def pushUnit (unit : ℕ) (scanned : Except JsonError (List ℕ × Text)) :
    Except JsonError (List ℕ × Text) :=
  scanned.map fun (units, rest) => (unit :: units, rest)

/-- A string behind its opening quote: its units, and the text behind its closing quote. -/
def scanString : Text → Except JsonError (List ℕ × Text)
  | [] => .error .decode
  | '"' :: rest => .ok ([], rest)
  | '\\' :: 'u' :: a :: b :: c :: d :: rest =>
    match hexUnit? a b c d with
    | none => .error .decode
    | some unit => pushUnit unit (scanString rest)
  | '\\' :: letter :: rest =>
    match unescape letter with
    | none => .error .decode
    | some c => pushUnit c.toNat (scanString rest)
  | c :: rest =>
    if c = '\\' ∨ c.toNat < 0x20 then .error .decode else pushUnit c.toNat (scanString rest)

/-- The character of a code point, if it is one. -/
def charOf (n : ℕ) : Option Char := if n.isValidChar then some (Char.ofNat n) else none

/-- The text of a string's units, unless a surrogate is left without its other half. -/
def decodeUnits : List ℕ → Option Text
  | [] => some []
  | unit :: units =>
    if 0xd800 ≤ unit ∧ unit < 0xdc00 then
      match units with
      | [] => none
      | low :: units =>
        if 0xdc00 ≤ low ∧ low < 0xe000 then do
          let c ← charOf (0x10000 + (unit - 0xd800) * 0x400 + (low - 0xdc00))
          some (c :: (← decodeUnits units))
        else none
    else do
      let c ← charOf unit
      some (c :: (← decodeUnits units))

/-! ### Reading numbers and constants -/

/-- A fraction, and the text behind it. -/
def splitFraction : Text → Text × Text
  | '.' :: d :: rest =>
    if d.isDigit then ('.' :: d :: rest.takeWhile Char.isDigit, rest.dropWhile Char.isDigit)
    else ([], '.' :: d :: rest)
  | text => ([], text)

/-- The sign of an exponent, and the rest. -/
def splitSign : Text → Text × Text
  | s :: rest => if s = '+' ∨ s = '-' then ([s], rest) else ([], s :: rest)
  | [] => ([], [])

/-- An exponent, and the text behind it. -/
def splitExponent : Text → Text × Text
  | e :: rest =>
    if (e = 'e' ∨ e = 'E') ∧ (splitSign rest).2.takeWhile Char.isDigit ≠ [] then
      (e :: (splitSign rest).1 ++ (splitSign rest).2.takeWhile Char.isDigit,
        (splitSign rest).2.dropWhile Char.isDigit)
    else ([], e :: rest)
  | [] => ([], [])

/-- The digits of an integer, of which a zero is the only one, and the text behind them. -/
def splitDigits : Text → Text × Text
  | d :: rest =>
    if d = '0' then (['0'], rest)
    else ((d :: rest).takeWhile Char.isDigit, (d :: rest).dropWhile Char.isDigit)
  | [] => ([], [])

/-- A number behind its sign. -/
def scanUnsigned (negative : Bool) (text : Text) : Except JsonError (Option Json × Text) :=
  let digits := (splitDigits text).1
  let fraction := splitFraction (splitDigits text).2
  let exponent := splitExponent fraction.2
  if digits = [] then .error .decode
  else if fraction.1 = [] ∧ exponent.1 = [] then
    if intMaxStrDigits < digits.length then .error .value
    else
      let n : ℤ := Nat.ofDigitChars 10 digits 0
      .ok (some (int (if negative then -n else n)), exponent.2)
  else
    let sign := if negative then ['-'] else []
    .ok (some (float (sign ++ digits ++ fraction.1 ++ exponent.1)), exponent.2)

/-- A number, with its sign. -/
def scanNumber : Text → Except JsonError (Option Json × Text)
  | '-' :: rest => scanUnsigned true rest
  | text => scanUnsigned false text

/-- The words that stand for a value. -/
def constants : List (Text × Json) :=
  [("null".toList, null), ("true".toList, bool true), ("false".toList, bool false),
    ("NaN".toList, float "NaN".toList), ("Infinity".toList, float "Infinity".toList),
    ("-Infinity".toList, float "-Infinity".toList)]

/-- A word or a number. -/
def scanScalar (text : Text) : Except JsonError (Option Json × Text) :=
  match constants.find? fun constant => constant.1.isPrefixOf text with
  | some constant => .ok (some constant.2, text.drop constant.1.length)
  | none => scanNumber text

/-! ### Reading arrays and objects -/

/-- What may stand between the tokens. -/
def isJsonSpace (c : Char) : Bool := [' ', '\t', '\n', '\r'].contains c

/-- The text behind the leading space. -/
def skip (text : Text) : Text := text.dropWhile isJsonSpace

/-- How a value inside an array or an object is read. -/
abbrev Scanner := Text → Except JsonError (Option Json × Text)

/-- The items from one on, and the text behind the closing bracket. -/
def scanItems (item : Scanner) : ℕ → Text → Except JsonError (Option (List Json) × Text)
  | 0, _ => .error .decode
  | fuel + 1, text => do
    let (v, rest) ← item text
    match skip rest with
    | ']' :: rest => .ok (v.map fun v => [v], rest)
    | ',' :: rest =>
      let (items, rest) ← scanItems item fuel (skip rest)
      .ok (List.cons <$> v <*> items, rest)
    | _ => .error .decode

/-- An array behind its opening bracket. -/
def scanArray (item : Scanner) (text : Text) : Except JsonError (Option Json × Text) :=
  match skip text with
  | ']' :: rest => .ok (some (array []), rest)
  | text => (scanItems item (text.length + 1) text).map fun (items, rest) => (items.map array, rest)

/-- A key and its value. -/
def scanMember (item : Scanner) : Text → Except JsonError (Option (Text × Json) × Text)
  | '"' :: text => do
    let (units, rest) ← scanString text
    match skip rest with
    | ':' :: rest =>
      let (v, rest) ← item (skip rest)
      .ok (Prod.mk <$> decodeUnits units <*> v, rest)
    | _ => .error .decode
  | _ => .error .decode

/-- The members from one on, and the text behind the closing brace. -/
def scanMembers (item : Scanner) :
    ℕ → Text → Except JsonError (Option (List (Text × Json)) × Text)
  | 0, _ => .error .decode
  | fuel + 1, text => do
    let (m, rest) ← scanMember item text
    match skip rest with
    | '\x7d' :: rest => .ok (m.map fun m => [m], rest)
    | ',' :: rest =>
      let (members, rest) ← scanMembers item fuel (skip rest)
      .ok (List.cons <$> m <*> members, rest)
    | _ => .error .decode

/-- An object behind its opening brace. -/
def scanObject (item : Scanner) (text : Text) : Except JsonError (Option Json × Text) :=
  match skip text with
  | '\x7d' :: rest => .ok (some (object []), rest)
  | text =>
    (scanMembers item (text.length + 1) text).map fun (members, rest) =>
      (members.map fun pairs => object (dictOf pairs), rest)

/-- A value, where the ones inside it are read by `item`, if there may be any. -/
def scanWith (item : Option Scanner) : Text → Except JsonError (Option Json × Text)
  | [] => .error .decode
  | '"' :: rest =>
    (scanString rest).map fun (units, rest) => ((decodeUnits units).map string, rest)
  | '[' :: rest =>
    match item with
    | none => .error .recursion
    | some item => scanArray item rest
  | '\x7b' :: rest =>
    match item with
    | none => .error .recursion
    | some item => scanObject item rest
  | text => scanScalar text

/-- `scan_once`. -/
def scanOnce : ℕ → Scanner
  | 0 => scanWith none
  | limit + 1 => scanWith (some (scanOnce limit))

/-- `json.loads`. -/
def loads (limit : ℕ) (text : Text) : Except JsonError Json := do
  if text.head? = some '\ufeff' then .error .decode
  else
    let (v, rest) ← scanOnce limit (skip text)
    if skip rest ≠ [] then .error .decode
    else
      match v with
      | none => .error .surrogate
      | some v => .ok v

/-! ### Parts -/

theorem FloatFree.item {items : List Json} (h : (array items).FloatFree) {v : Json}
    (hv : v ∈ items) : v.FloatFree :=
  fun numeral hpart => h numeral (.item hv hpart)

theorem FloatFree.member {members : List (Text × Json)} (h : (object members).FloatFree)
    {m : Text × Json} (hm : m ∈ members) : m.2.FloatFree :=
  fun numeral hpart => h numeral (.member hm hpart)

theorem AllHeld.item {items : List Json} (h : (array items).AllHeld) {v : Json}
    (hv : v ∈ items) : v.AllHeld :=
  fun w hw => h w (.item hv hw)

theorem AllHeld.member {members : List (Text × Json)} (h : (object members).AllHeld)
    {m : Text × Json} (hm : m ∈ members) : m.2.AllHeld :=
  fun w hw => h w (.member hm hw)

theorem depth_le_depthItems {items : List Json} {v : Json} (hv : v ∈ items) :
    v.depth ≤ depthItems items := by
  induction items with
  | nil => cases hv
  | cons w items ih =>
    rw [depthItems]
    rcases List.mem_cons.mp hv with rfl | hv
    · exact le_max_left _ _
    · exact (ih hv).trans (le_max_right _ _)

theorem depth_le_depthMembers {members : List (Text × Json)} {m : Text × Json}
    (hm : m ∈ members) : m.2.depth ≤ depthMembers members := by
  induction members with
  | nil => cases hm
  | cons m' members ih =>
    obtain ⟨key, w⟩ := m'
    rw [depthMembers]
    rcases List.mem_cons.mp hm with rfl | hm
    · exact le_max_left _ _
    · exact (ih hm).trans (le_max_right _ _)

theorem depthMembers_le {members : List (Text × Json)} {n : ℕ}
    (h : ∀ m ∈ members, m.2.depth ≤ n) : depthMembers members ≤ n := by
  induction members with
  | nil => exact n.zero_le
  | cons m members ih =>
    obtain ⟨key, v⟩ := m
    rw [depthMembers]
    exact max_le (h _ List.mem_cons_self) (ih fun m hm => h m (List.mem_cons_of_mem _ hm))

/-! ### Dicts -/

theorem setItem_of_notMem {members : List (Text × Json)} {key : Text} {value : Json}
    (h : key ∉ members.map Prod.fst) : setItem members key value = members ++ [(key, value)] := by
  rw [setItem, if_neg]
  rw [List.any_eq_true]
  rintro ⟨m, hm, hkey⟩
  exact h (List.mem_map.mpr ⟨m, hm, beq_iff_eq.mp hkey⟩)

theorem setItem_keys (members : List (Text × Json)) (key : Text) (value : Json) :
    (setItem members key value).map Prod.fst =
      if key ∈ members.map Prod.fst then members.map Prod.fst
      else members.map Prod.fst ++ [key] := by
  by_cases h : key ∈ members.map Prod.fst
  · have hany : members.any (fun m => m.1 == key) = true := by
      obtain ⟨m, hm, hkey⟩ := List.mem_map.mp h
      exact List.any_eq_true.mpr ⟨m, hm, beq_iff_eq.mpr hkey⟩
    rw [setItem, if_pos hany, if_pos h, List.map_map]
    apply List.map_congr_left
    intro m _
    show (if m.1 = key then (key, value) else m).1 = m.1
    by_cases hm : m.1 = key
    · rw [if_pos hm, hm]
    · rw [if_neg hm]
  · rw [setItem_of_notMem h, if_neg h, List.map_append]
    rfl

theorem nodup_setItem {members : List (Text × Json)} (h : (members.map Prod.fst).Nodup)
    (key : Text) (value : Json) : ((setItem members key value).map Prod.fst).Nodup := by
  rw [setItem_keys]
  by_cases hkey : key ∈ members.map Prod.fst
  · rwa [if_pos hkey]
  · rw [if_neg hkey, List.nodup_append]
    refine ⟨h, List.nodup_singleton key, ?_⟩
    intro a ha b hb
    rw [List.mem_singleton.mp hb]
    exact fun hab => hkey (hab ▸ ha)

theorem mem_setItem {members : List (Text × Json)} {key : Text} {value : Json}
    {m : Text × Json} (h : m ∈ setItem members key value) : m ∈ members ∨ m = (key, value) := by
  rw [setItem] at h
  split at h
  · obtain ⟨m', hm', rfl⟩ := List.mem_map.mp h
    by_cases hkey : m'.1 = key
    · rw [if_pos hkey]
      exact Or.inr rfl
    · rw [if_neg hkey]
      exact Or.inl hm'
  · rcases List.mem_append.mp h with h | h
    · exact Or.inl h
    · exact Or.inr (List.mem_singleton.mp h)

/-- The keys of a dict are distinct, and its items are among the pairs it was made of. -/
theorem dictOf_spec (pairs : List (Text × Json)) :
    ((dictOf pairs).map Prod.fst).Nodup ∧ ∀ m ∈ dictOf pairs, m ∈ pairs := by
  have hfold : ∀ (pairs members : List (Text × Json)), (members.map Prod.fst).Nodup →
      ((pairs.foldl (fun members p => setItem members p.1 p.2) members).map Prod.fst).Nodup ∧
      ∀ m ∈ pairs.foldl (fun members p => setItem members p.1 p.2) members,
        m ∈ members ∨ m ∈ pairs := by
    intro pairs
    induction pairs with
    | nil => exact fun members hnodup => ⟨hnodup, fun m hm => Or.inl hm⟩
    | cons p pairs ih =>
      intro members hnodup
      obtain ⟨hkeys, hmem⟩ := ih _ (nodup_setItem hnodup p.1 p.2)
      refine ⟨hkeys, fun m hm => ?_⟩
      rcases hmem m hm with hm | hm
      · rcases mem_setItem hm with hm | rfl
        · exact Or.inl hm
        · exact Or.inr List.mem_cons_self
      · exact Or.inr (List.mem_cons_of_mem _ hm)
  obtain ⟨hkeys, hmem⟩ := hfold pairs [] List.nodup_nil
  exact ⟨hkeys, fun m hm => (hmem m hm).resolve_left List.not_mem_nil⟩

/-- Pairs with distinct keys are the dict they make. -/
theorem dictOf_of_nodup {pairs : List (Text × Json)} (h : (pairs.map Prod.fst).Nodup) :
    dictOf pairs = pairs := by
  have hfold : ∀ (pairs members : List (Text × Json)),
      ((members ++ pairs).map Prod.fst).Nodup →
      pairs.foldl (fun members p => setItem members p.1 p.2) members = members ++ pairs := by
    intro pairs
    induction pairs with
    | nil => simp
    | cons p pairs ih =>
      intro members hnodup
      have hkey : p.1 ∉ members.map Prod.fst := by
        intro hmem
        rw [List.map_append, List.map_cons, List.nodup_append] at hnodup
        exact hnodup.2.2 p.1 hmem p.1 List.mem_cons_self rfl
      rw [List.foldl_cons, setItem_of_notMem hkey, ih _ (by simpa using hnodup)]
      simp
  exact hfold pairs [] h

/-! ### Strings are read back -/

theorem scanString_escape (c : Char) (rest : Text) :
    scanString (escape c ++ rest) = pushUnit c.toNat (scanString rest) := by
  have hcontrol : ∀ n < 0x20, scanString (escape (Char.ofNat n) ++ rest) =
      pushUnit (Char.ofNat n).toNat (scanString rest) := by
    intro n hn
    interval_cases n <;> rfl
  by_cases hc : c.toNat < 0x20
  · have hread := hcontrol c.toNat hc
    rwa [Char.ofNat_toNat] at hread
  by_cases hquote : c = '"'
  · subst hquote
    rfl
  by_cases hback : c = '\\'
  · subst hback
    rfl
  have hne : ∀ n < 0x20, c ≠ Char.ofNat n := by
    intro n hn h
    rw [h] at hc
    interval_cases n <;> simp at hc
  have hnone : escapes.lookup c = none := by
    rw [List.lookup_eq_none_iff]
    simp only [escapes, List.forall_mem_cons]
    simp only [bne_iff_ne, ne_eq]
    exact ⟨hquote, hback, hne 10 (by decide), hne 13 (by decide), hne 9 (by decide),
      hne 12 (by decide), hne 8 (by decide), by simp⟩
  have hescape : escape c = [c] := by
    rw [escape, hnone]
    exact if_neg hc
  rw [hescape, List.singleton_append, scanString]
  · exact if_neg (not_or.mpr ⟨hback, hc⟩)
  all_goals simp_all

theorem scanString_flatMap (s rest : Text) :
    scanString (s.flatMap escape ++ '"' :: rest) = .ok (s.map Char.toNat, rest) := by
  induction s with
  | nil => rfl
  | cons c s ih =>
    rw [List.flatMap_cons, List.append_assoc, scanString_escape, ih]
    rfl

theorem decodeUnits_map (s : Text) : decodeUnits (s.map Char.toNat) = some s := by
  induction s with
  | nil => rfl
  | cons c s ih =>
    have hvalid : c.toNat.isValidChar := c.valid
    have hchar : charOf c.toNat = some c := by
      rw [charOf, if_pos hvalid, Char.ofNat_toNat]
    have hsurrogate : ¬ (0xd800 ≤ c.toNat ∧ c.toNat < 0xdc00) := by
      rcases hvalid with h | ⟨h, -⟩ <;> omega
    rw [List.map_cons, decodeUnits.eq_def]
    simp only [if_neg hsurrogate, hchar, ih]
    rfl

/-! ### Numbers are read back -/

/-- What may follow a value: nothing, or the sign that goes on or ends what it stands in. -/
def Ends (rest : Text) : Prop := ∀ c ∈ rest.head?, c = ',' ∨ c = ']' ∨ c = '\x7d'

theorem toDigits_head {n : ℕ} (hn : 0 < n) {d : Char} {more : Text}
    (h : Nat.toDigits 10 n = d :: more) : d ≠ '0' := by
  induction n using Nat.strong_induction_on generalizing d more with
  | _ n ih =>
    by_cases hlt : n < 10
    · rw [Nat.toDigits_of_lt_base hlt, List.cons.injEq] at h
      rw [← h.1]
      interval_cases n <;> decide
    · rw [Nat.toDigits_of_base_le (by norm_num) (by omega)] at h
      rcases hfront : Nat.toDigits 10 (n / 10) with - | ⟨d', more'⟩
      · exact absurd hfront Nat.toDigits_ne_nil
      rw [hfront, List.cons_append, List.cons.injEq] at h
      rw [← h.1]
      exact ih (n / 10) (by omega) (by omega) hfront

theorem head_not_digit {rest : Text} (hrest : Ends rest) : rest.takeWhile Char.isDigit = [] := by
  cases rest with
  | nil => rfl
  | cons c rest => rcases hrest c rfl with rfl | rfl | rfl <;> rfl

theorem splitDigits_toDigits (n : ℕ) {rest : Text} (hrest : Ends rest) :
    splitDigits (Nat.toDigits 10 n ++ rest) = (Nat.toDigits 10 n, rest) := by
  rcases Nat.eq_zero_or_pos n with rfl | hn
  · rfl
  have hdigit : ∀ c ∈ Nat.toDigits 10 n, c.isDigit = true := fun c hc =>
    Nat.isDigit_of_mem_toDigits (by norm_num) (by norm_num) hc
  rcases h : Nat.toDigits 10 n with - | ⟨d, more⟩
  · exact absurd h Nat.toDigits_ne_nil
  rw [h] at hdigit
  have hdrop : rest.dropWhile Char.isDigit = rest := by
    have hsplit := List.takeWhile_append_dropWhile (p := Char.isDigit) (l := rest)
    rwa [head_not_digit hrest] at hsplit
  rw [List.cons_append, splitDigits, if_neg (toDigits_head hn h), ← List.cons_append,
    List.takeWhile_append_of_pos hdigit, List.dropWhile_append_of_pos hdigit,
    head_not_digit hrest, List.append_nil, hdrop]

theorem splitFraction_ends {rest : Text} (hrest : Ends rest) : splitFraction rest = ([], rest) := by
  cases rest with
  | nil => rfl
  | cons c rest => rcases hrest c rfl with rfl | rfl | rfl <;> rfl

theorem splitExponent_ends {rest : Text} (hrest : Ends rest) : splitExponent rest = ([], rest) := by
  cases rest with
  | nil => rfl
  | cons c rest =>
    rw [splitExponent, if_neg]
    rintro ⟨h, -⟩
    rcases hrest c rfl with rfl | rfl | rfl <;> revert h <;> decide

theorem scanUnsigned_toDigits (negative : Bool) {n : ℕ}
    (hn : (Nat.toDigits 10 n).length ≤ intMaxStrDigits) {rest : Text} (hrest : Ends rest) :
    scanUnsigned negative (Nat.toDigits 10 n ++ rest) =
      .ok (some (int (if negative then -(n : ℤ) else n)), rest) := by
  rw [scanUnsigned]
  simp only [splitDigits_toDigits n hrest, splitFraction_ends hrest, splitExponent_ends hrest]
  rw [if_neg Nat.toDigits_ne_nil, if_pos (And.intro trivial trivial), if_neg (by omega),
    Nat.ofDigitChars_ten_toDigits]

/-- A numeral begins with a digit. -/
theorem exists_toDigits (n : ℕ) : ∃ d more, Nat.toDigits 10 n = d :: more ∧ d.isDigit = true := by
  rcases h : Nat.toDigits 10 n with - | ⟨d, more⟩
  · exact absurd h Nat.toDigits_ne_nil
  · refine ⟨d, more, rfl, ?_⟩
    exact Nat.isDigit_of_mem_toDigits (b := 10) (n := n) (by norm_num) (by norm_num) (by simp [h])

theorem scanNumber_renderInt {i : ℤ} (hi : (int i).Held) {rest : Text} (hrest : Ends rest) :
    scanNumber (renderInt i ++ rest) = .ok (some (int i), rest) := by
  rw [renderInt]
  by_cases hneg : i < 0
  · rw [if_pos hneg]
    show scanUnsigned true (Nat.toDigits 10 i.natAbs ++ rest) = _
    rw [scanUnsigned_toDigits true hi hrest]
    have habs : -(i.natAbs : ℤ) = i := by omega
    rw [if_pos rfl, habs]
  · rw [if_neg hneg]
    have hread := scanUnsigned_toDigits false hi hrest
    have habs : (i.natAbs : ℤ) = i := by omega
    rw [habs] at hread
    obtain ⟨d, more, h, hdigit⟩ := exists_toDigits i.natAbs
    rw [h] at hread ⊢
    have hd : d ≠ '-' := by
      rintro rfl
      cases hdigit
    rw [List.cons_append, scanNumber]
    · rw [← List.cons_append, hread]
      rfl
    · exact fun rest heq => hd (List.cons.inj heq).1

/-- No constant of JSON begins with a digit, and `-Infinity` has none behind its sign. -/
theorem scanScalar_renderInt {i : ℤ} (hi : (int i).Held) {rest : Text} (hrest : Ends rest) :
    scanScalar (renderInt i ++ rest) = .ok (some (int i), rest) := by
  have hnone : constants.find? (fun constant => constant.1.isPrefixOf (renderInt i ++ rest)) =
      none := by
    rw [List.find?_eq_none, renderInt]
    obtain ⟨d, more, h, hdigit⟩ := exists_toDigits i.natAbs
    rw [h]
    have hne : ∀ c : Char, c.isDigit = false → c ≠ d := by
      rintro c hc rfl
      rw [hdigit] at hc
      cases hc
    split
    · simp [constants, hne 'I' rfl]
    · simp [constants, hne 'n' rfl, hne 't' rfl, hne 'f' rfl, hne 'N' rfl, hne 'I' rfl,
        hne '-' rfl]
  rw [scanScalar, hnone]
  exact scanNumber_renderInt hi hrest

/-! ### Entries up to a bracket

Arrays and objects are one loop over their entries (`scanItems_eq`, `scanMembers_eq`), and one
way of printing them (`renderItems_eq`, `renderMembers_eq`). -/

theorem bind_ok {α β : Type} {x : Except JsonError α} {f : α → Except JsonError β} {b : β}
    (h : x >>= f = .ok b) : ∃ a, x = .ok a ∧ f a = .ok b := by
  cases x with
  | error e => cases h
  | ok a => exact ⟨a, rfl, h⟩

theorem ok_bind {α β : Type} (a : α) (f : α → Except JsonError β) :
    (Except.ok a >>= f) = f a := rfl

theorem map_ok {α β : Type} {x : Except JsonError α} {f : α → β} {b : β}
    (h : x.map f = .ok b) : ∃ a, x = .ok a ∧ f a = b := by
  cases x with
  | error e => cases h
  | ok a => exact ⟨a, rfl, Except.ok.inj h⟩

/-- A scanner moves on, and what it returns satisfies `P`. -/
def Scans {α : Type} (P : α → Prop) (scan : Text → Except JsonError (Option α × Text)) : Prop :=
  ∀ text v rest, scan text = .ok (v, rest) → rest.length < text.length ∧ ∀ a ∈ v, P a

theorem length_skip_le (text : Text) : (skip text).length ≤ text.length :=
  (List.dropWhile_suffix isJsonSpace).length_le

theorem skip_cons {c : Char} (hc : isJsonSpace c = false) (text : Text) :
    skip (c :: text) = c :: text :=
  List.dropWhile_cons_of_neg (by rw [hc]; exact Bool.false_ne_true)

theorem skip_separated (rest : Text) (hrest : skip rest = rest) : skip (' ' :: rest) = rest := by
  rwa [skip, List.dropWhile_cons_of_pos (by decide)]

theorem ends_comma (rest : Text) : Ends (',' :: rest) := by
  rintro c hc
  exact Or.inl (Option.some.inj hc).symm

theorem ends_bracket (rest : Text) : Ends (']' :: rest) := by
  rintro c hc
  exact Or.inr (Or.inl (Option.some.inj hc).symm)

theorem ends_brace (rest : Text) : Ends ('\x7d' :: rest) := by
  rintro c hc
  exact Or.inr (Or.inr (Option.some.inj hc).symm)

section Sequence

variable {β : Type}

/-- The entries from one on, up to the closing bracket. -/
def scanSequence (entry : Text → Except JsonError (Option β × Text)) (close : Char) :
    ℕ → Text → Except JsonError (Option (List β) × Text)
  | 0, _ => .error .decode
  | fuel + 1, text => do
    let (b, rest) ← entry text
    match skip rest with
    | [] => .error .decode
    | c :: rest =>
      if c = close then .ok (b.map fun b => [b], rest)
      else if c = ',' then do
        let (bs, rest) ← scanSequence entry close fuel (skip rest)
        .ok (List.cons <$> b <*> bs, rest)
      else .error .decode

/-- Entries with a comma and a blank between two of them. -/
def printSequence (print : β → Text) : List β → Text
  | [] => []
  | [b] => print b
  | b :: b' :: bs => print b ++ ',' :: ' ' :: printSequence print (b' :: bs)

theorem scanItems_eq (item : Scanner) (fuel : ℕ) :
    scanItems item fuel = scanSequence item ']' fuel := by
  induction fuel with
  | zero => rfl
  | succ fuel ih =>
    funext text
    rw [scanItems, scanSequence, ih]
    congr 1
    funext scanned
    obtain ⟨b, after⟩ := scanned
    dsimp only
    rcases skip after with - | ⟨c, rest⟩
    · rfl
    · split <;> simp_all

theorem scanMembers_eq (item : Scanner) (fuel : ℕ) :
    scanMembers item fuel = scanSequence (scanMember item) '\x7d' fuel := by
  induction fuel with
  | zero => rfl
  | succ fuel ih =>
    funext text
    rw [scanMembers, scanSequence, ih]
    congr 1
    funext scanned
    obtain ⟨b, after⟩ := scanned
    dsimp only
    rcases skip after with - | ⟨c, rest⟩
    · rfl
    · split <;> simp_all

variable {entry : Text → Except JsonError (Option β × Text)} {close : Char} {P : β → Prop}

theorem scans_sequence (hentry : Scans P entry) (fuel : ℕ) :
    Scans (fun bs => ∀ b ∈ bs, P b) (scanSequence entry close fuel) := by
  induction fuel with
  | zero => exact fun text v rest h => by cases h
  | succ fuel ih =>
    intro text bs rest h
    rw [scanSequence] at h
    obtain ⟨⟨b, after⟩, hb, h⟩ := bind_ok h
    obtain ⟨hlt, hheld⟩ := hentry _ _ _ hb
    have hskip := length_skip_le after
    simp only at h
    split at h
    · cases h
    rename_i c tail heq
    rw [heq, List.length_cons] at hskip
    split_ifs at h
    · cases h
      refine ⟨by omega, fun bs hbs w hw => ?_⟩
      obtain ⟨b', hb', rfl⟩ := Option.map_eq_some_iff.mp hbs
      rw [List.mem_singleton.mp hw]
      exact hheld b' hb'
    · obtain ⟨⟨more, after'⟩, hmore, h⟩ := bind_ok h
      obtain ⟨hlt', hheld'⟩ := ih _ _ _ hmore
      have hskip' := length_skip_le tail
      simp only [Except.ok.injEq, Prod.mk.injEq] at h
      obtain ⟨rfl, rfl⟩ := h
      refine ⟨by omega, fun bs hbs w hw => ?_⟩
      cases b with
      | none => cases hbs
      | some b =>
        cases more with
        | none => cases hbs
        | some more =>
          cases hbs
          rcases List.mem_cons.mp hw with rfl | hw
          · exact hheld _ rfl
          · exact hheld' _ rfl w hw

/-- With fuel for the whole text more fuel changes nothing. -/
theorem scanSequence_fuel (hentry : Scans P entry) {text : Text} {m n : ℕ}
    (hm : text.length < m) (hn : text.length < n) :
    scanSequence entry close m text = scanSequence entry close n text := by
  induction m generalizing text n with
  | zero => omega
  | succ m ih =>
    obtain ⟨n, rfl⟩ : ∃ k, n = k + 1 := ⟨n - 1, by omega⟩
    rw [scanSequence, scanSequence]
    cases hb : entry text with
    | error e => rfl
    | ok scanned =>
      obtain ⟨b, after⟩ := scanned
      have hlt := (hentry _ _ _ hb).1
      have hskip := length_skip_le after
      rw [ok_bind, ok_bind]
      simp only
      split
      · rfl
      · rename_i c tail heq
        rw [heq, List.length_cons] at hskip
        have hskip' := length_skip_le tail
        rw [ih (n := n) (by omega) (by omega)]

variable {print : β → Text} {b : β} {bs : List β}

theorem printSequence_cons (print : β → Text) (b : β) (bs : List β) :
    ∃ more, printSequence print (b :: bs) = print b ++ more := by
  cases bs with
  | nil => exact ⟨[], (List.append_nil _).symm⟩
  | cons b' bs => exact ⟨_, rfl⟩

theorem length_le_printSequence (hprint : ∀ b ∈ bs, print b ≠ []) :
    bs.length ≤ (printSequence print bs).length := by
  induction bs with
  | nil => exact Nat.zero_le _
  | cons b bs ih =>
    have hone := List.length_pos_iff.mpr (hprint b List.mem_cons_self)
    have hrest := ih fun w hw => hprint w (List.mem_cons_of_mem b hw)
    cases bs with
    | nil => exact hone
    | cons b' bs =>
      rw [printSequence, List.length_append, List.length_cons, List.length_cons, List.length_cons,
        List.length_cons]
      rw [List.length_cons] at hrest
      omega

/-- Entries that are read back one by one are read back together. -/
theorem scanSequence_print (hclose : ∀ rest, Ends (close :: rest)) (hcomma : close ≠ ',')
    (hspace : isJsonSpace close = false)
    (hentry : ∀ w ∈ b :: bs, ∀ rest, Ends rest → entry (print w ++ rest) = .ok (some w, rest))
    (hprint : ∀ w ∈ b :: bs, ∀ rest, skip (print w ++ rest) = print w ++ rest) {fuel : ℕ}
    (hfuel : bs.length < fuel) (rest : Text) :
    scanSequence entry close fuel (printSequence print (b :: bs) ++ close :: rest) =
      .ok (some (b :: bs), rest) := by
  induction bs generalizing b fuel with
  | nil =>
    obtain ⟨fuel, rfl⟩ : ∃ n, fuel = n + 1 := ⟨fuel - 1, by simp at hfuel; omega⟩
    rw [printSequence, scanSequence, hentry b List.mem_cons_self _ (hclose rest), ok_bind]
    simp only [skip_cons hspace, if_pos, Option.map_some]
  | cons b' bs ih =>
    obtain ⟨fuel, rfl⟩ : ∃ n, fuel = n + 1 := ⟨fuel - 1, by simp at hfuel; omega⟩
    obtain ⟨more, hmore⟩ := printSequence_cons print b' bs
    have hskip : skip (printSequence print (b' :: bs) ++ close :: rest) =
        printSequence print (b' :: bs) ++ close :: rest := by
      rw [hmore, List.append_assoc]
      exact hprint b' (List.mem_cons_of_mem b List.mem_cons_self) _
    have hread := ih (fun w hw => hentry w (List.mem_cons_of_mem b hw))
      (fun w hw => hprint w (List.mem_cons_of_mem b hw))
      (show bs.length < fuel by simp at hfuel; omega)
    rw [printSequence, List.append_assoc, scanSequence, List.cons_append, List.cons_append,
      hentry b List.mem_cons_self _ (ends_comma _), ok_bind]
    simp only [skip_cons (show isJsonSpace ',' = false by decide), if_neg hcomma.symm, if_pos]
    rw [skip_separated _ hskip, hread]
    rfl

end Sequence

/-! ### Values are read back -/

section RoundTrip

variable (floatRepr : Text → Text)

/-- How a value that is no float begins. -/
theorem render_head {v : Json} (hv : v.FloatFree) :
    ∃ c text, v.render floatRepr = c :: text ∧ isJsonSpace c = false ∧ c ≠ ']' ∧
      c ≠ '\ufeff' := by
  cases v with
  | null => exact ⟨'n', "ull".toList, rfl, by decide⟩
  | bool b =>
    cases b with
    | false => exact ⟨'f', "alse".toList, rfl, by decide⟩
    | true => exact ⟨'t', "rue".toList, rfl, by decide⟩
  | float numeral => exact absurd (Part.self _) (hv numeral)
  | string s => exact ⟨'"', _, rfl, by decide⟩
  | array items => exact ⟨'[', _, rfl, by decide⟩
  | object members => exact ⟨'\x7b', _, rfl, by decide⟩
  | int i =>
    rw [render, renderInt]
    by_cases hneg : i < 0
    · rw [if_pos hneg]
      exact ⟨'-', _, rfl, by decide⟩
    rw [if_neg hneg]
    obtain ⟨d, more, h, hdigit⟩ := exists_toDigits i.natAbs
    refine ⟨d, more, h, ?_, ?_, ?_⟩
    · have hspace : ∀ c : Char, c.isDigit = true → isJsonSpace c = false := by
        intro c hc
        by_contra hcontra
        rw [Bool.not_eq_false, isJsonSpace, List.contains_iff_mem] at hcontra
        simp only [List.mem_cons, List.not_mem_nil, or_false] at hcontra
        rcases hcontra with rfl | rfl | rfl | rfl <;> cases hc
      exact hspace d hdigit
    · rintro rfl
      cases hdigit
    · rintro rfl
      cases hdigit

theorem render_ne_nil {v : Json} (hv : v.FloatFree) : v.render floatRepr ≠ [] := by
  obtain ⟨c, text, hrender, -⟩ := render_head floatRepr hv
  rw [hrender]
  exact List.cons_ne_nil _ _

theorem skip_render {v : Json} (hv : v.FloatFree) (rest : Text) :
    skip (v.render floatRepr ++ rest) = v.render floatRepr ++ rest := by
  obtain ⟨c, text, hrender, hspace, -⟩ := render_head floatRepr hv
  rw [hrender, List.cons_append, skip_cons hspace]

/-- A scanner that reads a printed value back. -/
def ReadsBack (item : Scanner) (v : Json) : Prop :=
  ∀ rest, Ends rest → item (v.render floatRepr ++ rest) = .ok (some v, rest)

variable {floatRepr}

theorem renderItems_eq (items : List Json) :
    renderItems floatRepr items = printSequence (render floatRepr) items := by
  induction items with
  | nil => rfl
  | cons v items ih =>
    cases items with
    | nil => rfl
    | cons w items => rw [renderItems, ih, printSequence]

/-- A member as it is printed. -/
def renderMember (floatRepr : Text → Text) (m : Text × Json) : Text :=
  renderString m.1 ++ ':' :: ' ' :: m.2.render floatRepr

theorem renderMembers_eq (members : List (Text × Json)) :
    renderMembers floatRepr members = printSequence (renderMember floatRepr) members := by
  induction members with
  | nil => rfl
  | cons m members ih =>
    obtain ⟨key, v⟩ := m
    cases members with
    | nil => rfl
    | cons w members => rw [renderMembers, ih, printSequence, renderMember]

theorem skip_renderMember (m : Text × Json) (rest : Text) :
    skip (renderMember floatRepr m ++ rest) = renderMember floatRepr m ++ rest :=
  skip_cons (by decide) _

/-- A key and its value are read back. -/
theorem scanMember_render {item : Scanner} {key : Text} {v : Json} (hfree : v.FloatFree)
    (hitem : ReadsBack floatRepr item v) {rest : Text} (hrest : Ends rest) :
    scanMember item (renderMember floatRepr (key, v) ++ rest) = .ok (some (key, v), rest) := by
  show scanMember item ((renderString key ++ ':' :: ' ' :: v.render floatRepr) ++ rest) = _
  rw [List.append_assoc, List.cons_append, List.cons_append]
  rw [renderString, List.cons_append, List.cons_append, List.append_assoc, List.singleton_append,
    scanMember, scanString_flatMap]
  show (do
    let (v, rest) ← item (skip (' ' :: (v.render floatRepr ++ rest)))
    Except.ok (Prod.mk <$> decodeUnits (key.map Char.toNat) <*> v, rest)) = _
  rw [skip_separated _ (skip_render floatRepr hfree rest), hitem rest hrest, decodeUnits_map]
  rfl

/-- An array is read back where its items are. -/
theorem scanArray_render {item : Scanner} {items : List Json} (hfree : ∀ w ∈ items, w.FloatFree)
    (hitem : ∀ w ∈ items, ReadsBack floatRepr item w) (rest : Text) :
    scanArray item (renderItems floatRepr items ++ ']' :: rest) =
      .ok (some (array items), rest) := by
  rw [renderItems_eq]
  cases items with
  | nil => rfl
  | cons v items =>
    obtain ⟨c, text, hrender, hspace, hclose, -⟩ := render_head floatRepr (hfree v (by simp))
    obtain ⟨more, hmore⟩ := printSequence_cons (render floatRepr) v items
    rw [hrender, List.cons_append] at hmore
    have hlength : _ ≤ (printSequence (render floatRepr) (v :: items)).length :=
      length_le_printSequence fun w hw => render_ne_nil floatRepr (hfree w hw)
    have hfuel : items.length <
        (printSequence (render floatRepr) (v :: items) ++ ']' :: rest).length + 1 := by
      rw [List.length_append]
      rw [List.length_cons] at hlength
      omega
    have hread := scanSequence_print ends_bracket (by decide) (by decide) hitem
      (fun w hw => skip_render floatRepr (hfree w hw)) hfuel rest
    rw [scanArray, hmore, List.cons_append, skip_cons hspace]
    rw [hmore, List.cons_append] at hread
    split
    · rename_i heq
      exact absurd (List.cons.inj heq).1 hclose
    · rw [scanItems_eq, hread]
      rfl

/-- An object is read back where its values are. -/
theorem scanObject_render {item : Scanner} {members : List (Text × Json)}
    (hkeys : (members.map Prod.fst).Nodup) (hfree : ∀ w ∈ members, w.2.FloatFree)
    (hitem : ∀ w ∈ members, ReadsBack floatRepr item w.2) (rest : Text) :
    scanObject item (renderMembers floatRepr members ++ '\x7d' :: rest) =
      .ok (some (object members), rest) := by
  rw [renderMembers_eq]
  cases members with
  | nil => rfl
  | cons m members =>
    obtain ⟨more, hmore⟩ := printSequence_cons (renderMember floatRepr) m members
    obtain ⟨tail, htail⟩ : ∃ tail, renderMember floatRepr m = '"' :: tail := ⟨_, rfl⟩
    rw [htail, List.cons_append] at hmore
    have hlength : _ ≤ (printSequence (renderMember floatRepr) (m :: members)).length :=
      length_le_printSequence fun w _ => List.cons_ne_nil _ _
    have hfuel : members.length <
        (printSequence (renderMember floatRepr) (m :: members) ++ '\x7d' :: rest).length + 1 := by
      rw [List.length_append]
      rw [List.length_cons] at hlength
      omega
    have hentry : ∀ w ∈ m :: members, ∀ rest, Ends rest →
        scanMember item (renderMember floatRepr w ++ rest) = .ok (some w, rest) :=
      fun w hw _ hrest => scanMember_render (hfree w hw) (hitem w hw) hrest
    have hread := scanSequence_print ends_brace (by decide) (by decide) hentry
      (fun w _ => skip_renderMember w) hfuel rest
    rw [scanObject, hmore, List.cons_append, skip_cons (by decide)]
    rw [hmore, List.cons_append] at hread
    show (scanMembers item _ _).map _ = _
    rw [scanMembers_eq, hread]
    show Except.ok (some (object (dictOf (m :: members))), rest) = _
    rw [dictOf_of_nodup hkeys]

theorem scanWith_renderInt {item : Option Scanner} {i : ℤ} (hi : (int i).Held) {rest : Text}
    (hrest : Ends rest) : scanWith item (renderInt i ++ rest) = .ok (some (int i), rest) := by
  rw [← scanScalar_renderInt hi hrest]
  obtain ⟨c, text, hrender, hne⟩ : ∃ c text, renderInt i = c :: text ∧
      c ≠ '"' ∧ c ≠ '[' ∧ c ≠ '\x7b' := by
    rw [renderInt]
    by_cases hneg : i < 0
    · exact ⟨'-', _, if_pos hneg, by decide⟩
    obtain ⟨d, more, h, hdigit⟩ := exists_toDigits i.natAbs
    refine ⟨d, more, (if_neg hneg).trans h, ?_, ?_, ?_⟩ <;> (rintro rfl; cases hdigit)
  rw [hrender, List.cons_append, scanWith]
  · exact List.cons_ne_nil _ _
  · exact fun rest heq => hne.1 (List.cons.inj heq).1
  · exact fun rest heq => hne.2.1 (List.cons.inj heq).1
  · exact fun rest heq => hne.2.2 (List.cons.inj heq).1

/-- What was printed is read back. -/
theorem scanOnce_render {limit : ℕ} {v : Json} (hdepth : v.depth ≤ limit) (hheld : v.AllHeld)
    (hfree : v.FloatFree) : ReadsBack floatRepr (scanOnce limit) v := by
  induction limit using Nat.strong_induction_on generalizing v with
  | _ limit ih =>
    obtain ⟨item, hitem⟩ : ∃ item, scanOnce limit = scanWith item := by
      cases limit <;> exact ⟨_, rfl⟩
    intro rest hrest
    cases v with
    | null =>
      rw [hitem]
      rfl
    | bool b =>
      rw [hitem]
      cases b <;> rfl
    | int i =>
      rw [hitem]
      exact scanWith_renderInt (hheld _ (.self _)) hrest
    | float numeral => exact absurd (Part.self _) (hfree numeral)
    | string s =>
      rw [hitem, render, renderString, List.cons_append, List.cons_append, List.append_assoc,
        List.singleton_append, scanWith, scanString_flatMap]
      show Except.ok ((decodeUnits (s.map Char.toNat)).map string, rest) = _
      rw [decodeUnits_map]
      rfl
    | array items =>
      rw [depth] at hdepth
      obtain ⟨n, rfl⟩ : ∃ n, limit = n + 1 := ⟨limit - 1, by omega⟩
      rw [render, List.cons_append, List.cons_append, List.append_assoc, List.singleton_append]
      apply scanArray_render fun w hw => hfree.item hw
      intro w hw
      have hle := depth_le_depthItems hw
      exact ih n (by omega) (by omega) (hheld.item hw) (hfree.item hw)
    | object members =>
      rw [depth] at hdepth
      obtain ⟨n, rfl⟩ : ∃ n, limit = n + 1 := ⟨limit - 1, by omega⟩
      rw [render, List.cons_append, List.cons_append, List.append_assoc, List.singleton_append]
      apply scanObject_render (hheld _ (.self _)) fun w hw => hfree.member hw
      intro w hw
      have hle := depth_le_depthMembers hw
      exact ih n (by omega) (by omega) (hheld.member hw) (hfree.member hw)

theorem loads_render {limit : ℕ} {v : Json} (hdepth : v.depth ≤ limit) (hheld : v.AllHeld)
    (hfree : v.FloatFree) : loads limit (v.render floatRepr) = .ok v := by
  obtain ⟨c, text, hrender, hspace, -, hbom⟩ := render_head floatRepr hfree
  have hread : scanOnce limit (v.render floatRepr ++ []) = .ok (some v, []) :=
    scanOnce_render hdepth hheld hfree [] fun c hc => by cases hc
  have hskip := skip_render floatRepr hfree []
  rw [List.append_nil] at hread hskip
  rw [loads, hskip, hread, if_neg]
  · rfl
  · rw [hrender]
    exact fun heq => hbom (Option.some.inj heq)

end RoundTrip

/-! ### What is printed stays on one line -/

section Printable

variable {floatRepr : Text → Text}

/-- No control character. -/
def Printable (text : Text) : Prop := ∀ c ∈ text, 32 ≤ c.toNat

theorem Printable.append {text text' : Text} (h : Printable text) (h' : Printable text') :
    Printable (text ++ text') :=
  fun c hc => (List.mem_append.mp hc).elim (h c) (h' c)

theorem Printable.cons {c : Char} {text : Text} (hc : 32 ≤ c.toNat) (h : Printable text) :
    Printable (c :: text) := by
  intro d hd
  rcases List.mem_cons.mp hd with rfl | hd
  · exact hc
  · exact h d hd

theorem Printable.single {c : Char} (hc : 32 ≤ c.toNat) : Printable [c] :=
  Printable.cons hc fun _ hd => absurd hd List.not_mem_nil

theorem printable_of_all {text : Text} (h : text.all (32 ≤ ·.toNat) = true) : Printable text :=
  fun c hc => of_decide_eq_true (List.all_eq_true.mp h c hc)

/-- Line ends are control characters. -/
theorem Printable.no_line_end {text : Text} (h : Printable text) :
    ∀ c ∈ text, c ≠ '\n' ∧ c ≠ '\r' := by
  intro c hc
  constructor <;> (rintro rfl; exact absurd (h _ hc) (by decide))

theorem printable_escape (c : Char) : Printable (escape c) := by
  have hcontrol : ∀ n < 0x20, Printable (escape (Char.ofNat n)) := by
    intro n hn
    apply printable_of_all
    interval_cases n <;> rfl
  by_cases hc : c.toNat < 0x20
  · have hread := hcontrol c.toNat hc
    rwa [Char.ofNat_toNat] at hread
  rw [escape]
  split
  · rename_i letter hletter
    obtain ⟨before, after, hsplit, -⟩ := List.lookup_eq_some_iff.mp hletter
    have hmem : (c, letter) ∈ escapes := by
      rw [hsplit]
      exact List.mem_append_right _ List.mem_cons_self
    refine .cons (by decide) (.single ?_)
    simp only [escapes, List.mem_cons, Prod.mk.injEq, List.not_mem_nil, or_false] at hmem
    rcases hmem with ⟨-, rfl⟩ | ⟨-, rfl⟩ | ⟨-, rfl⟩ | ⟨-, rfl⟩ | ⟨-, rfl⟩ | ⟨-, rfl⟩ | ⟨-, rfl⟩ <;>
      decide
  · rw [if_neg hc]
    exact .single (Nat.le_of_not_lt hc)

theorem printable_renderString (s : Text) : Printable (renderString s) := by
  have hbody : Printable (s.flatMap escape) := by
    intro d hd
    obtain ⟨c, -, hc⟩ := List.mem_flatMap.mp hd
    exact printable_escape c d hc
  exact Printable.append (.cons (by decide) hbody) (.single (by decide))

theorem printable_toDigits (n : ℕ) : Printable (Nat.toDigits 10 n) := by
  intro c hc
  have hdigit : c.isDigit = true := Nat.isDigit_of_mem_toDigits (by decide) (by decide) hc
  have hge : '0'.toNat ≤ c.toNat := by
    rw [Char.isDigit, Bool.and_eq_true, decide_eq_true_eq] at hdigit
    exact hdigit.1
  exact le_trans (by decide) hge

theorem printable_sequence {β : Type} {print : β → Text} {bs : List β}
    (h : ∀ b ∈ bs, Printable (print b)) : Printable (printSequence print bs) := by
  induction bs with
  | nil => exact fun _ hc => absurd hc List.not_mem_nil
  | cons b bs ih =>
    have hrest := ih fun b' hb' => h b' (List.mem_cons_of_mem _ hb')
    cases bs with
    | nil => exact h b List.mem_cons_self
    | cons b' bs =>
      exact (h b List.mem_cons_self).append (.cons (by decide) (.cons (by decide) hrest))

/-- Without floats no control character is printed, so no line ends. -/
theorem printable_render {v : Json} (hfree : v.FloatFree) : Printable (v.render floatRepr) := by
  obtain ⟨n, hn⟩ : ∃ n, v.depth = n := ⟨_, rfl⟩
  induction n using Nat.strong_induction_on generalizing v with
  | _ n ih =>
    cases v with
    | null => exact printable_of_all rfl
    | bool b => cases b <;> exact printable_of_all rfl
    | float numeral => exact absurd (Part.self _) (hfree numeral)
    | string s => exact printable_renderString s
    | int i =>
      rw [render, renderInt]
      split
      · exact .cons (by decide) (printable_toDigits _)
      · exact printable_toDigits _
    | array items =>
      rw [depth] at hn
      rw [render, renderItems_eq]
      refine Printable.append (.cons (by decide) (printable_sequence fun w hw => ?_))
        (.single (by decide))
      have hle := depth_le_depthItems hw
      exact ih w.depth (by omega) (hfree.item hw) rfl
    | object members =>
      rw [depth] at hn
      rw [render, renderMembers_eq]
      refine Printable.append (.cons (by decide) (printable_sequence fun m hm => ?_))
        (.single (by decide))
      have hle := depth_le_depthMembers hm
      have hvalue := ih m.2.depth (by omega) (hfree.member hm) rfl
      exact (printable_renderString m.1).append (.cons (by decide) (.cons (by decide) hvalue))

end Printable

/-! ### What was read can be held -/

theorem length_scanString {text rest : Text} {units : List ℕ}
    (h : scanString text = .ok (units, rest)) : rest.length < text.length := by
  have push : ∀ {unit : ℕ} {scanned : Except JsonError (List ℕ × Text)} {units : List ℕ},
      pushUnit unit scanned = .ok (units, rest) → ∃ units, scanned = .ok (units, rest) := by
    intro unit scanned units h
    obtain ⟨⟨units', rest'⟩, hscanned, heq⟩ := map_ok h
    rw [Prod.mk.injEq] at heq
    exact ⟨units', by rw [hscanned, heq.2]⟩
  fun_induction scanString text generalizing units with
  | case1 => cases h
  | case2 text =>
    cases h
    simp
  | case3 a b c d text hunit => cases h
  | case4 a b c d text unit hunit ih =>
    obtain ⟨units, h⟩ := push h
    have hlt := ih h
    simp only [List.length_cons]
    omega
  | case5 letter text hletter hnone => cases h
  | case6 letter text hletter c hc ih =>
    obtain ⟨units, h⟩ := push h
    have hlt := ih h
    simp only [List.length_cons]
    omega
  | case7 c text h₁ h₂ h₃ hbad => cases h
  | case8 c text h₁ h₂ h₃ hgood ih =>
    obtain ⟨units, h⟩ := push h
    have hlt := ih h
    rw [List.length_cons]
    omega

theorem length_splitFraction_le (text : Text) : (splitFraction text).2.length ≤ text.length := by
  unfold splitFraction
  split
  · split
    · rename_i d rest _
      have hle := (List.dropWhile_suffix Char.isDigit (l := rest)).length_le
      simp only [List.length_cons]
      omega
    · exact le_rfl
  · exact le_rfl

theorem length_splitSign_le (text : Text) : (splitSign text).2.length ≤ text.length := by
  unfold splitSign
  split
  · split
    · exact Nat.le_succ _
    · exact le_rfl
  · exact le_rfl

theorem length_splitExponent_le (text : Text) : (splitExponent text).2.length ≤ text.length := by
  cases text with
  | nil => exact le_rfl
  | cons e text =>
    rw [splitExponent]
    split
    · have hle := (List.dropWhile_suffix Char.isDigit (l := (splitSign text).2)).length_le
      have hsign := length_splitSign_le text
      simp only [List.length_cons]
      omega
    · exact le_rfl

/-- Digits that were split off are digits, and the text is shorter by them. -/
theorem splitDigits_spec (text : Text) :
    (splitDigits text).1.length + (splitDigits text).2.length = text.length ∧
      ∀ c ∈ (splitDigits text).1, c.isDigit = true := by
  cases text with
  | nil => exact ⟨rfl, fun c hc => absurd hc List.not_mem_nil⟩
  | cons d text =>
    rw [splitDigits]
    split
    · refine ⟨by simp [Nat.add_comm], fun c hc => ?_⟩
      rw [List.mem_singleton.mp hc]
      rfl
    · refine ⟨?_, fun c hc => List.all_eq_true.mp (List.all_takeWhile) c hc⟩
      rw [← List.length_append, List.takeWhile_append_dropWhile]

theorem ofDigitChars_lt {digits : Text} (h : ∀ c ∈ digits, c.isDigit = true) (n : ℕ) :
    Nat.ofDigitChars 10 digits n < (n + 1) * 10 ^ digits.length := by
  induction digits generalizing n with
  | nil => simp
  | cons d digits ih =>
    have hd : d.toNat - '0'.toNat < 10 := by
      have hrange : 48 ≤ d.toNat ∧ d.toNat ≤ 57 :=
        Char.isDigit_iff_toNat.mp (h d List.mem_cons_self)
      show d.toNat - 48 < 10
      omega
    rw [Nat.ofDigitChars_cons]
    calc _ < (10 * n + (d.toNat - '0'.toNat) + 1) * 10 ^ digits.length :=
          ih (fun c hc => h c (List.mem_cons_of_mem d hc)) _
      _ ≤ (10 * (n + 1)) * 10 ^ digits.length := Nat.mul_le_mul_right _ (by omega)
      _ = (n + 1) * 10 ^ (d :: digits).length := by rw [List.length_cons, pow_succ]; ring

/-- An integer is printed in no more digits than it was read from. -/
theorem length_toDigits_ofDigitChars {digits : Text} (h : ∀ c ∈ digits, c.isDigit = true)
    (hne : digits ≠ []) :
    (Nat.toDigits 10 (Nat.ofDigitChars 10 digits 0)).length ≤ digits.length := by
  rw [Nat.length_toDigits_le_iff (by norm_num) (List.length_pos_iff.mpr hne)]
  simpa using ofDigitChars_lt h 0

theorem scans_unsigned (negative : Bool) : Scans AllHeld (scanUnsigned negative) := by
  intro text v rest h
  simp only [scanUnsigned] at h
  obtain ⟨hlength, hdigits⟩ := splitDigits_spec text
  have hfraction := length_splitFraction_le (splitDigits text).2
  have hexponent := length_splitExponent_le (splitFraction (splitDigits text).2).2
  split at h
  · cases h
  rename_i hne
  have hpos := List.length_pos_iff.mpr hne
  have hmoves : rest = (splitExponent (splitFraction (splitDigits text).2).2).2 →
      rest.length < text.length := by
    rintro rfl
    omega
  split at h
  · split at h
    · cases h
    rename_i hle
    rw [Except.ok.injEq, Prod.mk.injEq] at h
    obtain ⟨rfl, rfl⟩ := h
    refine ⟨hmoves rfl, fun a ha w hw => ?_⟩
    cases ha
    cases hw
    have hshort := length_toDigits_ofDigitChars hdigits hne
    rw [Held]
    cases negative
    · simp only [Bool.false_eq_true, if_false, Int.natAbs_natCast]
      omega
    · simp only [if_true, Int.natAbs_neg, Int.natAbs_natCast]
      omega
  · rw [Except.ok.injEq, Prod.mk.injEq] at h
    obtain ⟨rfl, rfl⟩ := h
    refine ⟨hmoves rfl, fun a ha w hw => ?_⟩
    cases ha
    cases hw
    trivial

theorem scans_scalar : Scans AllHeld scanScalar := by
  intro text v rest h
  rw [scanScalar] at h
  cases hfind : constants.find? fun constant => constant.1.isPrefixOf text with
  | none =>
    simp only [hfind] at h
    unfold scanNumber at h
    split at h
    · obtain ⟨hlt, hheld⟩ := scans_unsigned true _ _ _ h
      exact ⟨hlt.trans (Nat.lt_succ_self _), hheld⟩
    · exact scans_unsigned false _ _ _ h
  | some constant =>
    simp only [hfind, Except.ok.injEq, Prod.mk.injEq] at h
    obtain ⟨rfl, rfl⟩ := h
    have hmem : constant ∈ constants := List.mem_of_find?_eq_some hfind
    have hprefix := List.find?_some hfind
    have hle := (List.isPrefixOf_iff_prefix.mp hprefix).length_le
    have hword : 0 < constant.1.length ∧ constant.2.AllHeld := by
      simp only [constants, List.mem_cons, List.not_mem_nil, or_false] at hmem
      rcases hmem with rfl | rfl | rfl | rfl | rfl | rfl <;>
        exact ⟨by decide, fun w hw => by cases hw; trivial⟩
    refine ⟨?_, fun a ha => ?_⟩
    · rw [List.length_drop]
      omega
    · cases ha
      exact hword.2

section Containers

variable {item : Scanner} (hitem : Scans AllHeld item)

include hitem

theorem scans_member : Scans (fun m => AllHeld m.2) (scanMember item) := by
  intro text m rest h
  unfold scanMember at h
  split at h
  · rename_i text
    obtain ⟨⟨units, after⟩, hstring, h⟩ := bind_ok h
    have hlt := length_scanString hstring
    have hskip := length_skip_le after
    simp only at h
    split at h
    · rename_i tail heq
      rw [heq, List.length_cons] at hskip
      obtain ⟨⟨v, after'⟩, hv, h⟩ := bind_ok h
      obtain ⟨hlt', hheld⟩ := hitem _ _ _ hv
      have hskip' := length_skip_le tail
      simp only [Except.ok.injEq, Prod.mk.injEq] at h
      obtain ⟨rfl, rfl⟩ := h
      refine ⟨by rw [List.length_cons]; omega, fun m hm => ?_⟩
      cases v with
      | none => cases hunits : decodeUnits units <;> rw [hunits] at hm <;> cases hm
      | some v =>
        cases hunits : decodeUnits units with
        | none =>
          rw [hunits] at hm
          cases hm
        | some key =>
          rw [hunits] at hm
          cases hm
          exact hheld v rfl
    · cases h
  · cases h

theorem scans_array : Scans AllHeld (scanArray item) := by
  intro text v rest h
  have hskip := length_skip_le text
  unfold scanArray at h
  split at h
  · rename_i tail heq
    rw [heq, List.length_cons] at hskip
    cases h
    refine ⟨by omega, fun a ha w hw => ?_⟩
    cases ha
    cases hw with
    | self => trivial
    | item hmem _ => cases hmem
  · obtain ⟨⟨items, after⟩, hitems, heq⟩ := map_ok h
    obtain ⟨hlt, hheld⟩ := scans_sequence hitem _ _ _ _ (scanItems_eq item _ ▸ hitems)
    rw [Prod.mk.injEq] at heq
    obtain ⟨rfl, rfl⟩ := heq
    refine ⟨hlt.trans_le hskip, fun a ha w hw => ?_⟩
    obtain ⟨items, rfl, rfl⟩ := Option.map_eq_some_iff.mp ha
    cases hw with
    | self => trivial
    | item hmem hpart => exact hheld items rfl _ hmem w hpart

theorem scans_object : Scans AllHeld (scanObject item) := by
  intro text v rest h
  have hskip := length_skip_le text
  unfold scanObject at h
  split at h
  · rename_i tail heq
    rw [heq, List.length_cons] at hskip
    cases h
    refine ⟨by omega, fun a ha w hw => ?_⟩
    cases ha
    cases hw with
    | self => exact List.nodup_nil
    | member hmem _ => cases hmem
  · obtain ⟨⟨pairs, after⟩, hpairs, heq⟩ := map_ok h
    obtain ⟨hlt, hheld⟩ := scans_sequence (scans_member hitem) _ _ _ _
      (scanMembers_eq item _ ▸ hpairs)
    rw [Prod.mk.injEq] at heq
    obtain ⟨rfl, rfl⟩ := heq
    refine ⟨hlt.trans_le hskip, fun a ha w hw => ?_⟩
    obtain ⟨pairs, rfl, rfl⟩ := Option.map_eq_some_iff.mp ha
    obtain ⟨hkeys, hmem⟩ := dictOf_spec pairs
    cases hw with
    | self => exact hkeys
    | member hm hpart => exact hheld pairs rfl _ (hmem _ hm) w hpart

end Containers

theorem scans_with {item : Option Scanner} (hitem : ∀ scan ∈ item, Scans AllHeld scan) :
    Scans AllHeld (scanWith item) := by
  intro text v rest h
  unfold scanWith at h
  split at h
  · cases h
  · obtain ⟨⟨units, after⟩, hstring, heq⟩ := map_ok h
    rw [Prod.mk.injEq] at heq
    obtain ⟨rfl, rfl⟩ := heq
    refine ⟨(length_scanString hstring).trans (Nat.lt_succ_self _), fun a ha w hw => ?_⟩
    obtain ⟨s, -, rfl⟩ := Option.map_eq_some_iff.mp ha
    cases hw
    trivial
  · cases item with
    | none => cases h
    | some scan =>
      obtain ⟨hlt, hheld⟩ := scans_array (hitem scan rfl) _ _ _ h
      exact ⟨hlt.trans (Nat.lt_succ_self _), hheld⟩
  · cases item with
    | none => cases h
    | some scan =>
      obtain ⟨hlt, hheld⟩ := scans_object (hitem scan rfl) _ _ _ h
      exact ⟨hlt.trans (Nat.lt_succ_self _), hheld⟩
  · exact scans_scalar _ _ _ h

theorem scans_once (limit : ℕ) : Scans AllHeld (scanOnce limit) := by
  induction limit with
  | zero => exact scans_with fun scan hscan => by cases hscan
  | succ limit ih =>
    apply scans_with
    intro scan hscan
    cases hscan
    exact ih

/-- What was read can be held. -/
theorem held_of_loads {limit : ℕ} {text : Text} {v : Json} (h : loads limit text = .ok v) :
    v.AllHeld := by
  rw [loads] at h
  split at h
  · cases h
  obtain ⟨⟨scanned, rest⟩, hscan, h⟩ := bind_ok h
  simp only at h
  split at h
  · cases h
  cases scanned with
  | none => cases h
  | some w =>
    cases h
    exact (scans_once limit _ _ _ hscan).2 v rfl

/-! ### The loops end -/

/-- With fuel for the whole text more fuel changes nothing. -/
theorem scanItems_fuel {item : Scanner} (hitem : Scans AllHeld item) {text : Text} {m n : ℕ}
    (hm : text.length < m) (hn : text.length < n) :
    scanItems item m text = scanItems item n text := by
  rw [scanItems_eq, scanItems_eq]
  exact scanSequence_fuel hitem hm hn

theorem scanMembers_fuel {item : Scanner} (hitem : Scans AllHeld item) {text : Text} {m n : ℕ}
    (hm : text.length < m) (hn : text.length < n) :
    scanMembers item m text = scanMembers item n text := by
  rw [scanMembers_eq, scanMembers_eq]
  exact scanSequence_fuel (scans_member hitem) hm hn

end Json

end GreenGarden
