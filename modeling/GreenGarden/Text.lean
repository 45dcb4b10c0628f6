/-
GreenGarden/Text.lean

Text as Python sees it: a list of characters, with the Unicode classes that
`str.strip`, `\s` and `\d` go by, zero-padded decimal numerals, and the phone
helpers of the application (`core/text.py`).

Upper-casing is needed on arbitrary text but only ever decided on ASCII: the
references it is applied to consist of `G` and digits, which no other
character upper-cases to.  `CaseMap` therefore leaves it open outside ASCII.
-/
import Mathlib

namespace GreenGarden

/-- A string. -/
abbrev Text := List Char

instance : LawfulBEq Text := inferInstance

/-! ### Character classes -/

/-- `str.isspace`, which is also `\s`. -/
def isSpace (c : Char) : Bool :=
  [0x09, 0x0a, 0x0b, 0x0c, 0x0d, 0x1c, 0x1d, 0x1e, 0x1f, 0x20, 0x85, 0xa0, 0x1680, 0x2000,
    0x2001, 0x2002, 0x2003, 0x2004, 0x2005, 0x2006, 0x2007, 0x2008, 0x2009, 0x200a, 0x2028,
    0x2029, 0x202f, 0x205f, 0x3000].contains c.toNat

/-- The zeros of the Unicode decimal digit blocks (category `Nd`). -/
def decimalZeros : List ℕ :=
  [0x30, 0x660, 0x6f0, 0x7c0, 0x966, 0x9e6, 0xa66, 0xae6, 0xb66, 0xbe6, 0xc66, 0xce6, 0xd66,
    0xde6, 0xe50, 0xed0, 0xf20, 0x1040, 0x1090, 0x17e0, 0x1810, 0x1946, 0x19d0, 0x1a80, 0x1a90,
    0x1b50, 0x1bb0, 0x1c40, 0x1c50, 0xa620, 0xa8d0, 0xa900, 0xa9d0, 0xa9f0, 0xaa50, 0xabf0,
    0xff10, 0x104a0, 0x10d30, 0x11066, 0x110f0, 0x11136, 0x111d0, 0x112f0, 0x11450, 0x114d0,
    0x11650, 0x116c0, 0x11730, 0x118e0, 0x11950, 0x11c50, 0x11d50, 0x11da0, 0x11f50, 0x16a60,
    0x16ac0, 0x16b50, 0x1d7ce, 0x1d7d8, 0x1d7e2, 0x1d7ec, 0x1d7f6, 0x1e140, 0x1e2f0, 0x1e4f0,
    0x1e950, 0x1fbf0]

/-- `\d`. -/
def isDecimal (c : Char) : Bool :=
  decimalZeros.any fun z => z ≤ c.toNat && c.toNat < z + 10

theorem isDecimal_of_isDigit {c : Char} (h : c.isDigit = true) : isDecimal c = true := by
  have hr : 48 ≤ c.toNat ∧ c.toNat ≤ 57 := Char.isDigit_iff_toNat.mp h
  rw [isDecimal, List.any_eq_true]
  refine ⟨0x30, by decide, ?_⟩
  simp only [Bool.and_eq_true, decide_eq_true_eq]
  omega

/-- The value of an ASCII hexadecimal digit. -/
def hexDigit? (c : Char) : Option ℕ :=
  if c.isDigit then some (c.toNat - '0'.toNat)
  else if 'a' ≤ c ∧ c ≤ 'f' then some (c.toNat - 'a'.toNat + 10)
  else if 'A' ≤ c ∧ c ≤ 'F' then some (c.toNat - 'A'.toNat + 10)
  else none

/-- `str.strip()`. -/
def strip (s : Text) : Text := (s.dropWhile isSpace).rdropWhile isSpace

theorem strip_of_forall {s : Text} (h : ∀ c ∈ s, isSpace c = false) : strip s = s := by
  have hd : s.dropWhile isSpace = s := by
    cases s with
    | nil => rfl
    | cons c cs => simp [h c (by simp)]
  rw [strip, hd, List.rdropWhile_eq_self_iff]
  intro hne
  simp [h _ (List.getLast_mem hne)]

theorem strip_strip (s : Text) : strip (strip s) = strip s := by
  have hfront : (strip s).dropWhile isSpace = strip s := by
    obtain ⟨rest, hrest⟩ := List.rdropWhile_prefix isSpace (s.dropWhile isSpace)
    rw [show List.rdropWhile isSpace (s.dropWhile isSpace) = strip s from rfl] at hrest
    rcases hstrip : strip s with - | ⟨c, cs⟩
    · rfl
    -- a stripped text starts with the first character of `s` that is no space
    have hc : isSpace c = false := by
      by_contra hspace
      have hself := List.dropWhile_idempotent isSpace s
      rw [← hrest, hstrip, List.cons_append,
        List.dropWhile_cons_of_pos ((Bool.not_eq_false _).mp hspace)] at hself
      have hlength := (List.dropWhile_suffix isSpace (l := cs ++ rest)).length_le
      rw [hself, List.length_cons] at hlength
      omega
    rw [List.dropWhile_cons_of_neg (by rw [hc]; exact Bool.false_ne_true)]
  rw [strip, hfront, strip, List.rdropWhile_idempotent]

/-! ### Upper case -/

/-- All characters are ASCII. -/
def IsAscii (s : Text) : Prop := ∀ c ∈ s, c.toNat < 128

/-- `str.upper`: known on ASCII text, left open beyond it. -/
structure CaseMap where
  upper : Text → Text
  upper_ascii : ∀ s, IsAscii s → upper s = s.map Char.toUpper

/-- Upper-casing that only knows ASCII. -/
def CaseMap.ascii : CaseMap := ⟨List.map Char.toUpper, fun _ _ => rfl⟩

/-! ### Emails -/

/-- `normalize_email`; `str.lower` is the caller's. -/
def normalizeEmail (lower : Text → Text) (email : Text) : Text := lower (strip email)

/-! ### Numerals -/

/-- `f"{n:0<w>d}"` for a natural number. -/
def zeroPad (w n : ℕ) : Text :=
  List.replicate (w - (Nat.toDigits 10 n).length) '0' ++ Nat.toDigits 10 n

theorem isDigit_of_mem_zeroPad {w n : ℕ} {c : Char} (h : c ∈ zeroPad w n) :
    c.isDigit = true := by
  rcases List.mem_append.mp h with h | h
  · rw [List.eq_of_mem_replicate h]; decide
  · exact Nat.isDigit_of_mem_toDigits (by norm_num) (by norm_num) h

/-- Leading zeros do not change the number a numeral stands for. -/
theorem ofDigitChars_zeroPad (w n : ℕ) : Nat.ofDigitChars 10 (zeroPad w n) 0 = n := by
  have hzeros : ∀ k (s : Text),
      Nat.ofDigitChars 10 (List.replicate k '0' ++ s) 0 = Nat.ofDigitChars 10 s 0 := by
    intro k s
    induction k with
    | zero => rfl
    | succ k ih =>
      rw [List.replicate_succ, List.cons_append, Nat.ofDigitChars_cons]
      exact ih
  rw [zeroPad, hzeros, Nat.ofDigitChars_ten_toDigits]

theorem zeroPad_injective (w : ℕ) : Function.Injective (zeroPad w) := fun m n h => by
  rw [← ofDigitChars_zeroPad w m, h, ofDigitChars_zeroPad]

theorem length_zeroPad (w n : ℕ) :
    (zeroPad w n).length = max w (Nat.toDigits 10 n).length := by
  rw [zeroPad, List.length_append, List.length_replicate]
  omega

/-- A numeral is exactly as wide as asked for when the number fits. -/
theorem length_zeroPad_of_lt {w n : ℕ} (hw : 0 < w) (h : n < 10 ^ w) :
    (zeroPad w n).length = w := by
  have := (Nat.length_toDigits_le_iff (n := n) (by norm_num) hw).mpr h
  rw [length_zeroPad]
  omega

theorem lt_length_zeroPad_of_le {w n : ℕ} (hw : 0 < w) (h : 10 ^ w ≤ n) :
    w < (zeroPad w n).length := by
  have := (Nat.length_toDigits_le_iff (n := n) (b := 10) (by norm_num) hw).not.mpr (by omega)
  rw [length_zeroPad]
  omega

/-! ### Phones -/

/-- `[\s().-]`. -/
def isPhoneSeparator (c : Char) : Bool := isSpace c || ['(', ')', '.', '-'].contains c

/-- The country code, without the plus sign. -/
def vnCountryCode : Text := ['8', '4']

/-- Digits of a subscriber number, behind the trunk `0` or the country code. -/
def vnNationalDigits : ℕ := 9

/-- The canonical form of a number without separators: it starts with `0`
instead of the country code. -/
def vnCanonical (value : Text) : Text :=
  let bareLength := vnCountryCode.length + vnNationalDigits
  let national : Option Text :=
    if ('+' :: vnCountryCode).isPrefixOf value then some (value.drop (vnCountryCode.length + 1))
    else if vnCountryCode.isPrefixOf value && value.length == bareLength then
      some (value.drop vnCountryCode.length)
    else none
  match national with
  | none => value
  | some national =>
      -- `+840901234567` is written by hand often enough to be worth handling
      let subscriber := national.dropWhile (· = '0')
      if subscriber.isEmpty then value else '0' :: subscriber

/-- Rewrite a Vietnamese number to the canonical local form starting with `0`;
other numbers only lose their separators. -/
def normalizeVnPhone (phone : Text) : Text :=
  vnCanonical ((strip phone).filter fun c => !isPhoneSeparator c)

example : normalizeVnPhone "+84 901-234-567".toList = "0901234567".toList := by decide

theorem normalizeVnPhone_eq (phone : Text) :
    normalizeVnPhone phone = vnCanonical ((strip phone).filter fun c => !isPhoneSeparator c) := rfl

/-- A number stays as it is, or loses its country code to a leading zero. -/
theorem vnCanonical_cases (value : Text) :
    vnCanonical value = value ∨ ∃ subscriber, vnCanonical value = '0' :: subscriber ∧
      ∀ c ∈ subscriber, c ∈ value := by
  have rewritten : ∀ n, (if (List.dropWhile (· = '0') (value.drop n)).isEmpty then value
      else '0' :: List.dropWhile (· = '0') (value.drop n)) = value ∨ ∃ subscriber,
      (if (List.dropWhile (· = '0') (value.drop n)).isEmpty then value
        else '0' :: List.dropWhile (· = '0') (value.drop n)) = '0' :: subscriber ∧
      ∀ c ∈ subscriber, c ∈ value := by
    intro n
    split
    · exact .inl rfl
    · refine .inr ⟨_, rfl, fun c hc => ?_⟩
      exact List.mem_of_mem_drop ((List.dropWhile_sublist _).subset hc)
  simp only [vnCanonical]
  split_ifs
  · exact rewritten _
  · exact rewritten _
  · exact .inl rfl

/-- A number that starts with the trunk zero is canonical. -/
theorem vnCanonical_zero (subscriber : Text) :
    vnCanonical ('0' :: subscriber) = '0' :: subscriber := by
  simp [vnCanonical, vnCountryCode]

theorem isPhoneSeparator_of_isSpace {c : Char} (h : isSpace c = true) :
    isPhoneSeparator c = true := by
  simp [isPhoneSeparator, h]

/-- Without separators there is nothing to strip. -/
theorem normalizeVnPhone_of_clean {value : Text}
    (h : ∀ c ∈ value, isPhoneSeparator c = false) : normalizeVnPhone value = vnCanonical value := by
  have hspace : ∀ c ∈ value, isSpace c = false := by
    intro c hc
    rw [Bool.eq_false_iff]
    intro hs
    exact absurd (isPhoneSeparator_of_isSpace hs) (by simp [h c hc])
  rw [normalizeVnPhone_eq, strip_of_forall hspace]
  exact congrArg vnCanonical (List.filter_eq_self.mpr fun c hc => by simp [h c hc])

/-- The canonical form is canonical. -/
theorem normalizeVnPhone_idem (phone : Text) :
    normalizeVnPhone (normalizeVnPhone phone) = normalizeVnPhone phone := by
  rw [normalizeVnPhone_eq phone]
  set value := (strip phone).filter fun c => !isPhoneSeparator c with hvalue
  have hclean : ∀ c ∈ value, isPhoneSeparator c = false := by
    intro c hc
    simpa using (List.mem_filter.mp hc).2
  rcases vnCanonical_cases value with hsame | ⟨subscriber, hzero, hmem⟩
  · rw [hsame, normalizeVnPhone_of_clean hclean, hsame]
  · rw [hzero, normalizeVnPhone_of_clean, vnCanonical_zero]
    intro c hc
    rcases List.mem_cons.mp hc with rfl | hc
    · decide
    · exact hclean c (hmem c hc)

end GreenGarden
