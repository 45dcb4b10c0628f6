/-
GreenGarden/PhoneForms.lean

The ways a Vietnamese phone number is written, and the one form that
`normalize_vn_phone` gives them (`core/text.py`).

Only the characters that are no separators matter (`normalizeVnPhone_eq_bare`),
so each way of writing a number is looked at without them.
`normalizeVnPhone_canonical` collects what makes the result a canonical form,
and `phone_of_spelling` says what it is for: a shopper is filed under one phone
however it was typed.
-/
import GreenGarden.Orders

namespace GreenGarden

/-! ### Ways to write a number -/

/-- The number behind the trunk zero or the country code. -/
structure Subscriber where
  digits : Text
  length_eq : digits.length = vnNationalDigits
  isDecimal_of_mem : ∀ c ∈ digits, isDecimal c = true
  head_ne : digits.head? ≠ some '0'
  deriving DecidableEq

/-- A phone as typed, without its separators. -/
def bare (phone : Text) : Text := phone.filter fun c => !isPhoneSeparator c

/-- A phone without separators is a way to write the number. -/
inductive Spells (s : Subscriber) : Text → Prop
  | trunk : Spells s ('0' :: s.digits)
  | country : Spells s (vnCountryCode ++ s.digits)
  | international : Spells s ('+' :: vnCountryCode ++ s.digits)
  | internationalTrunk : Spells s ('+' :: vnCountryCode ++ '0' :: s.digits)

/-- A phone is a way to write the number, whatever separators it has. -/
def Writes (s : Subscriber) (phone : Text) : Prop := Spells s (bare phone)

/-! ### Separators do not matter -/

theorem filter_dropWhile {α : Type*} {p q : α → Bool} (h : ∀ x, p x = true → q x = false)
    (l : List α) : (l.dropWhile p).filter q = l.filter q := by
  induction l with
  | nil => rfl
  | cons x l ih =>
    rw [List.dropWhile_cons]
    split
    · rename_i hx
      rw [ih, List.filter_cons_of_neg (by rw [h x hx]; exact Bool.false_ne_true)]
    · rfl

/-- What stripping takes away are separators. -/
theorem bare_strip (phone : Text) : bare (strip phone) = bare phone := by
  have hspace : ∀ c, isSpace c = true → (!isPhoneSeparator c) = false := by
    intro c hc
    rw [isPhoneSeparator_of_isSpace hc]
    rfl
  rw [bare, strip, List.rdropWhile, List.filter_reverse, filter_dropWhile hspace,
    List.filter_reverse, List.reverse_reverse, filter_dropWhile hspace]
  rfl

theorem normalizeVnPhone_eq_bare (phone : Text) :
    normalizeVnPhone phone = vnCanonical (bare phone) := by
  rw [normalizeVnPhone_eq, ← bare_strip]
  rfl

/-- A separator may stand anywhere. -/
theorem bare_insert {c : Char} (hc : isPhoneSeparator c = true) (front back : Text) :
    bare (front ++ c :: back) = bare (front ++ back) := by
  rw [bare, bare, List.filter_append, List.filter_append,
    List.filter_cons_of_neg (by rw [hc]; exact Bool.false_ne_true)]

/-- No digit is a separator. -/
theorem isPhoneSeparator_of_isDecimal {c : Char} (h : isDecimal c = true) :
    isPhoneSeparator c = false := by
  rw [Bool.eq_false_iff]
  intro hsep
  -- there are few separators, and none is in a block of digits
  rcases Bool.or_eq_true_iff.mp hsep with hspace | hpunctuation
  · rw [isSpace, List.contains_iff_mem] at hspace
    rw [isDecimal] at h
    generalize c.toNat = n at h hspace
    revert h
    revert n
    decide +kernel
  · simp only [List.contains_iff_mem, List.mem_cons, List.not_mem_nil, or_false] at hpunctuation
    rcases hpunctuation with rfl | rfl | rfl | rfl <;> exact absurd h (by decide +kernel)

/-! ### One form for every way -/

section Spellings

variable {s s' : Subscriber} {phone phone' : Text}

theorem Subscriber.dropWhile_zero (s : Subscriber) : s.digits.dropWhile (· = '0') = s.digits := by
  have hhead := s.head_ne
  rcases hdigits : s.digits with - | ⟨c, cs⟩
  · rfl
  · rw [hdigits, List.head?_cons, ne_eq, Option.some.injEq] at hhead
    exact List.dropWhile_cons_of_neg (by simpa using hhead)

theorem Subscriber.isEmpty_eq_false (s : Subscriber) : s.digits.isEmpty = false := by
  have hlength := s.length_eq
  rcases hdigits : s.digits with - | ⟨c, cs⟩
  · rw [hdigits] at hlength
    cases hlength
  · rfl

/-- However it is written, the canonical form is the trunk zero and the number. -/
theorem Spells.vnCanonical_eq (h : Spells s phone) : vnCanonical phone = '0' :: s.digits := by
  have hlength : s.digits.length = 9 := s.length_eq
  have hdrop := s.dropWhile_zero
  have hfull := s.isEmpty_eq_false
  cases h with
  | trunk => exact vnCanonical_zero s.digits
  | country =>
    simp [vnCanonical, vnCountryCode, vnNationalDigits, hlength, hdrop, hfull, -List.isEmpty_iff]
  | international =>
    simp [vnCanonical, vnCountryCode, hdrop, hfull, -List.isEmpty_iff]
  | internationalTrunk =>
    simp [vnCanonical, vnCountryCode, hdrop, hfull, -List.isEmpty_iff]

theorem Writes.normalizeVnPhone_eq (h : Writes s phone) :
    normalizeVnPhone phone = '0' :: s.digits := by
  rw [normalizeVnPhone_eq_bare]
  exact Spells.vnCanonical_eq h

/-- A number that is written without separators is written. -/
theorem Spells.writes (h : Spells s phone) : Writes s phone := by
  have hdigits : bare s.digits = s.digits := List.filter_eq_self.mpr fun c hc => by
    rw [isPhoneSeparator_of_isDecimal (s.isDecimal_of_mem c hc)]
    rfl
  have hsame : bare phone = phone := by
    cases h with
    | trunk => exact congrArg ('0' :: ·) hdigits
    | country => exact congrArg (vnCountryCode ++ ·) hdigits
    | international => exact congrArg ('+' :: vnCountryCode ++ ·) hdigits
    | internationalTrunk => exact congrArg ('+' :: vnCountryCode ++ '0' :: ·) hdigits
  rw [Writes, hsame]
  exact h

theorem Subscriber.ext_digits (h : s.digits = s'.digits) : s = s' := by
  cases s
  cases s'
  obtain rfl := h
  rfl

/-- The phone that an order of a shopper is filed under. -/
theorem phone_of_spelling {draft : OrderDraft} (hsource : draft.source = .storefront)
    (h : Writes s draft.customerPhone) : draft.phone = '0' :: s.digits := by
  rw [OrderDraft.phone, hsource]
  exact h.normalizeVnPhone_eq

end Spellings

/-- What makes the result of `normalize` a canonical form of phones. -/
structure PhoneCanonical (normalize : Text → Text) : Prop where
  idempotent : ∀ phone, normalize (normalize phone) = normalize phone
  separators : ∀ phone phone', bare phone = bare phone' → normalize phone = normalize phone'
  spellings : ∀ (s : Subscriber) phone, Writes s phone → normalize phone = '0' :: s.digits
  apart : ∀ (s s' : Subscriber) phone phone', Writes s phone → Writes s' phone' →
    normalize phone = normalize phone' → s = s'

theorem normalizeVnPhone_canonical : PhoneCanonical normalizeVnPhone where
  idempotent := normalizeVnPhone_idem
  separators phone phone' h := by rw [normalizeVnPhone_eq_bare, h, ← normalizeVnPhone_eq_bare]
  spellings _ _ h := h.normalizeVnPhone_eq
  apart s s' phone phone' h h' heq := by
    rw [h.normalizeVnPhone_eq, h'.normalizeVnPhone_eq] at heq
    exact Subscriber.ext_digits (List.cons.inj heq).2

end GreenGarden
