/-
GreenGarden/IpAddress.lean

Internet addresses and networks as Python's `ipaddress` reads and writes them
(3.12): dotted IPv4, hextets with one `::` and an optional dotted tail for
IPv6, a scope after `%`, and networks with a prefix length or a mask whose host
bits need not be zero.
-/
import GreenGarden.Text

namespace GreenGarden

/-- `IPv4Address` and `IPv6Address`. -/
inductive IpAddress where
  | v4 (value : BitVec 32)
  | v6 (value : BitVec 128) (scopeId : Option Text)
  deriving DecidableEq

/-- `IPv4Network` and `IPv6Network`, by an address in it and its prefix length. -/
inductive IpNetwork where
  | v4 (value : BitVec 32) (prefixLength : ℕ)
  | v6 (value : BitVec 128) (prefixLength : ℕ)
  deriving DecidableEq

/-! ### Reading -/

/-- `_parse_octet`: up to three ASCII digits, no leading zero. -/
def parseOctet (s : Text) : Option ℕ :=
  if s ≠ [] ∧ s.all Char.isDigit ∧ s.length ≤ 3 ∧ (s = ['0'] ∨ s.head? ≠ some '0') ∧
      Nat.ofDigitChars 10 s 0 ≤ 255 then
    some (Nat.ofDigitChars 10 s 0)
  else none

/-- Digits of a number, the most significant one first. -/
def fromDigits (base : ℕ) (digits : List ℕ) : ℕ := digits.foldl (fun n d => n * base + d) 0

/-- Four octets. -/
def parseV4 (s : Text) : Option ℕ := do
  let octets ← (s.splitOn '.').mapM parseOctet
  if octets.length = 4 then some (fromDigits 256 octets) else none

/-- `_parse_hextet`: up to four hexadecimal digits. -/
def parseHextet (s : Text) : Option ℕ := do
  let digits ← s.mapM hexDigit?
  if digits ≠ [] ∧ digits.length ≤ 4 then some (fromDigits 16 digits) else none

/-- A dotted last part is two hextets. -/
def expandDotted (parts : List Text) : Option (List Text) :=
  match parts.getLast? with
  | none => some parts
  | some last =>
      if '.' ∈ last then do
        let value ← parseV4 last
        some (parts.dropLast ++ [Nat.toDigits 16 (value / 65536), Nat.toDigits 16 (value % 65536)])
      else some parts

/-- The hextets on one side of `::`; an outermost part is empty only next to it. -/
def besideSkip (parts : List Text) : Option (List ℕ) :=
  if parts = [[]] then some [] else parts.mapM parseHextet

/-- Groups of hexadecimal digits, at most one run of them left out. -/
def parseV6 (s : Text) : Option ℕ := do
  let parts ← expandDotted (s.splitOn ':')
  if (s.splitOn ':').length < 3 ∨ 9 < parts.length then none
  else
    let inner := (parts.drop 1).dropLast
    match inner.count [] with
    | 0 =>
        let groups ← parts.mapM parseHextet
        if groups.length = 8 then some (fromDigits 65536 groups) else none
    | 1 =>
        let skip := inner.idxOf [] + 1
        let hi ← besideSkip (parts.take skip)
        let lo ← besideSkip (parts.drop (skip + 1))
        if hi.length + lo.length < 8 then
          some (fromDigits 65536 (hi ++ List.replicate (8 - (hi.length + lo.length)) 0 ++ lo))
        else none
    | _ => none

/-- `_split_scope_id`. -/
def splitScopeId (s : Text) : Option (Text × Option Text) :=
  match s.splitOn '%' with
  | [address] => some (address, none)
  | [address, scope] => if scope = [] then none else some (address, some scope)
  | _ => none

/-- `ip_address(s)`; `none` is `ValueError`. -/
def ipAddress (s : Text) : Option IpAddress :=
  if '/' ∈ s then none
  else
    match parseV4 s with
    | some value => some (.v4 (BitVec.ofNat 32 value))
    | none => do
        let (address, scopeId) ← splitScopeId s
        let value ← parseV6 address
        some (.v6 (BitVec.ofNat 128 value) scopeId)

/-- A prefix length of at most `max` bits. -/
def prefixFromString (max : ℕ) (s : Text) : Option ℕ :=
  if s ≠ [] ∧ s.all Char.isDigit ∧ Nat.ofDigitChars 10 s 0 ≤ max then
    some (Nat.ofDigitChars 10 s 0)
  else none

/-- The number of leading ones of a netmask. -/
def prefixFromMask (mask : ℕ) : Option ℕ :=
  (List.range 33).find? fun n => mask = (2 ^ n - 1) * 2 ^ (32 - n)

/-- The prefix length that an IPv4 mask stands for: digits, a netmask or a hostmask. -/
def v4Prefix (s : Text) : Option ℕ :=
  match prefixFromString 32 s with
  | some n => some n
  | none => do
      let mask ← parseV4 s
      match prefixFromMask mask with
      | some n => some n
      | none => prefixFromMask (2 ^ 32 - 1 - mask)

/-- `ip_network(s, strict=False)`; `none` is `ValueError`. -/
def ipNetwork (s : Text) : Option IpNetwork :=
  let (address, mask) : Text × Option (Option Text) :=
    match s.splitOn '/' with
    | [address] => (address, some none)
    | [address, mask] => (address, some (some mask))
    | _ => ([], none)
  do
    let mask ← mask
    match ← ipAddress address with
    | .v4 value =>
        let n ← match mask with
          | none => some 32
          | some mask => v4Prefix mask
        some (.v4 value n)
    | .v6 value _ =>
        let n ← match mask with
          | none => some 128
          | some mask => prefixFromString 128 mask
        some (.v6 value n)

/-! ### Membership -/

/-- `ip in network`. -/
def IpNetwork.contains : IpNetwork → IpAddress → Bool
  | .v4 value n, .v4 ip => ip >>> (32 - n) = value >>> (32 - n)
  | .v6 value n, .v6 ip _ => ip >>> (128 - n) = value >>> (128 - n)
  | _, _ => false

/-! ### Writing -/

/-- The digits of a number in a base, padded to a length. -/
def toDigitsLength (base length n : ℕ) : List ℕ :=
  ((List.range length).map fun i => n / base ^ i % base).reverse

/-- Where the longest run of zeros starts and how long it is, the first of equally long ones. -/
def longestZeros (groups : List ℕ) : ℕ × ℕ :=
  (List.range groups.length).foldl
    (fun best i =>
      let run := ((groups.drop i).takeWhile (· = 0)).length
      if best.2 < run then (i, run) else best)
    (0, 0)

/-- `_compress_hextets`, joined. -/
def hextetsText (groups : List ℕ) : Text :=
  let write (groups : List ℕ) : Text := List.intercalate [':'] (groups.map (Nat.toDigits 16))
  let (start, length) := longestZeros groups
  if length ≤ 1 then write groups
  else write (groups.take start) ++ ':' :: ':' :: write (groups.drop (start + length))

/-- `str(ip)`. -/
def IpAddress.text : IpAddress → Text
  | .v4 value =>
      List.intercalate ['.'] ((toDigitsLength 256 4 value.toNat).map (Nat.toDigits 10))
  | .v6 value scopeId =>
      hextetsText (toDigitsLength 65536 8 value.toNat) ++
        match scopeId with
        | none => []
        | some scope => '%' :: scope

end GreenGarden
