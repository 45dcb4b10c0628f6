/-
GreenGarden/Reference.lean

The round trip of a payment reference through the text of a transfer.

A reference is `GG`, eight digits for the date and the sequence, padded to
four digits but as long as it has to be.  The scanner takes twelve digits, no
more.  Up to 9999 orders a day the reference comes back from any surrounding
text as the only candidate; from the 10000th order on the scanner cuts it
short, and what is left is the reference of an earlier order of that day
(`shortened_reference`, `reference_round_trip_iff`).
-/
import GreenGarden.Delivery

namespace GreenGarden

open Transaction

/-! ### The scanner on a reference -/

theorem matchesAt_replicate {α : Type} {p : α → Bool} {n : ℕ} {s : List α}
    (hlen : n ≤ s.length) (h : ∀ c ∈ s, p c = true) :
    Scan.matchesAt (List.replicate n p) s = true := by
  induction n generalizing s with
  | zero => rfl
  | succ n ih =>
    cases s with
    | nil => simp at hlen
    | cons c cs =>
      rw [List.replicate_succ, Scan.matchesAt, h c List.mem_cons_self, Bool.true_and]
      exact ih (by simpa using hlen) fun c' hc' => h c' (List.mem_cons_of_mem _ hc')

/-- Two letters `G`, in either case, then digits: at least twelve are a match. -/
theorem matchesAt_reference {a b : Char} {ds : Text} (ha : a = 'G' ∨ a = 'g')
    (hb : b = 'G' ∨ b = 'g') (hds : ∀ c ∈ ds, c.isDigit = true) (hlen : 12 ≤ ds.length) :
    Scan.matchesAt referencePattern (a :: b :: ds) = true := by
  have hdigits := matchesAt_replicate hlen fun c hc => isDecimal_of_isDigit (hds c hc)
  have hletter : ∀ c : Char, (c = 'G' ∨ c = 'g') → (c = 'G' || c = 'g') = true := by
    rintro c (rfl | rfl) <;> rfl
  simp only [referencePattern, List.replicate_succ (n := 1), List.replicate_one, List.cons_append,
    List.nil_append, Scan.matchesAt, hletter a ha, hletter b hb, Bool.true_and]
  exact hdigits

/-- Behind the two letters a match has digits. -/
theorem isDecimal_getElem {s : Text} (h : Scan.matchesAt referencePattern s = true) {i : ℕ}
    (hi : i < s.length) (h2 : 2 ≤ i) (h14 : i < 14) : isDecimal s[i] = true := by
  have hlt : i < referencePattern.length := h14
  have htest := Scan.matchesAt_getElem h hlt hi
  have hdigit : referencePattern[i] = isDecimal := by
    interval_cases i <;> rfl
  rwa [hdigit] at htest

/-- No match begins in a text without matches and reaches into a reference
behind it: where the digits should be there is a `G`. -/
theorem not_matchesAt_before {a b : Char} {ds u : Text} (ha : a = 'G' ∨ a = 'g')
    (hb : b = 'G' ∨ b = 'g') (hne : u ≠ []) (hu : Scan.matchesAt referencePattern u = false) :
    Scan.matchesAt referencePattern (u ++ a :: b :: ds) = false := by
  have hletter : ∀ c : Char, (c = 'G' ∨ c = 'g') → isDecimal c = false := by
    rintro c (rfl | rfl) <;> decide
  have hwidth : referencePattern.length = 14 := rfl
  rw [← Bool.not_eq_true]
  intro hmatch
  have hpos := List.length_pos_iff.mpr hne
  -- a match within `u` is excluded; one that reaches behind it meets a `G`
  by_cases hlong : 14 ≤ u.length
  · rw [Scan.matchesAt_append (by rw [hwidth]; exact hlong), hu] at hmatch
    cases hmatch
  by_cases hone : u.length = 1
  · have hdigit := isDecimal_getElem hmatch (i := 2) (by simp; omega) le_rfl (by omega)
    simp [List.getElem_append_right, hone, hletter b hb] at hdigit
  · have hdigit := isDecimal_getElem hmatch (i := u.length) (by simp) (by omega) (by omega)
    simp [hletter a ha] at hdigit

/-! ### Letter case -/

theorem eq_of_toUpper_eq_G {c : Char} (h : c.toUpper = 'G') : c = 'G' ∨ c = 'g' := by
  by_cases hl : c.isLower = true
  · have hlow := Char.toLower_toUpper_eq_toLower c
    rw [h, Char.toLower_eq_of_not_isUpper (Char.not_isUpper_of_isLower hl)] at hlow
    exact .inr hlow.symm
  · rw [Char.toUpper_eq_of_not_isLower hl] at h
    exact .inl h

theorem isDigit_of_toUpper {c : Char} (h : c.toUpper.isDigit = true) : c.isDigit = true := by
  by_cases hl : c.isLower = true
  · -- the upper case of a letter is a letter
    have hup : c.toUpper.isUpper = true := by
      rw [Char.isUpper_toUpper_eq_isAlpha, Char.isAlpha, hl, Bool.or_true]
    simp only [Char.isUpper, Char.isDigit, Bool.and_eq_true, decide_eq_true_eq,
      UInt32.le_iff_toNat_le] at hup h
    exact absurd (hup.1.trans h.2) (by decide)
  · rwa [Char.toUpper_eq_of_not_isLower hl] at h

/-- A text that upper-cases to a reference: two letters and digits. -/
theorem reference_shape {r' : Text} {date : UtcDate} {sequence : ℕ}
    (hcase : r'.map Char.toUpper
      = paymentReferenceFor (formatNumber (numberPrefix date) sequence)) :
    ∃ a b ds, r' = a :: b :: ds ∧ (a = 'G' ∨ a = 'g') ∧ (b = 'G' ∨ b = 'g') ∧
      (∀ c ∈ ds, c.isDigit = true) ∧ ds.length = 8 + (zeroPad 4 sequence).length := by
  rw [paymentReferenceFor_formatNumber] at hcase
  obtain ⟨a, rest, rfl, ha, hrest⟩ := List.map_eq_cons_iff.mp hcase
  obtain ⟨b, ds, rfl, hb, hds⟩ := List.map_eq_cons_iff.mp hrest
  refine ⟨a, b, ds, rfl, eq_of_toUpper_eq_G ha, eq_of_toUpper_eq_G hb, fun c hc => ?_, ?_⟩
  · have hmem : c.toUpper ∈ date.compact ++ zeroPad 4 sequence := hds ▸ List.mem_map_of_mem hc
    refine isDigit_of_toUpper ?_
    rcases List.mem_append.mp hmem with h | h
    · exact isDigit_of_mem_compact h
    · exact isDigit_of_mem_zeroPad h
  · have hlen := congrArg List.length hds
    rwa [List.length_map, List.length_append, length_compact] at hlen

/-- Upper-casing a piece of such a text is the piece of the reference. -/
theorem upper_take (cm : CaseMap) {a b : Char} {ds : Text} (ha : a = 'G' ∨ a = 'g')
    (hb : b = 'G' ∨ b = 'g') (hds : ∀ c ∈ ds, c.isDigit = true) (n : ℕ) :
    cm.upper ((a :: b :: ds).take n) = ((a :: b :: ds).map Char.toUpper).take n := by
  rw [cm.upper_ascii, List.map_take]
  have letter : ∀ c : Char, (c = 'G' ∨ c = 'g') → c.toNat < 128 := by
    rintro c (rfl | rfl) <;> decide
  intro c hc
  rcases List.mem_cons.mp (List.mem_of_mem_take hc) with rfl | hc
  · exact letter c ha
  rcases List.mem_cons.mp hc with rfl | hc
  · exact letter c hb
  · exact lt_of_le_of_lt (Char.isDigit_iff_toNat.mp (hds c hc)).2 (by decide)

/-! ### The candidates of a transfer text -/

section Candidates

variable {cm : CaseMap} {payload : SePayWebhookPayload} {date : UtcDate} {sequence : ℕ}
variable {r' pre suf : Text}

/-- The first candidate is what the pattern's fourteen letters hold of the
reference; the others come from behind it. -/
theorem candidates_of_reference
    (hcase : r'.map Char.toUpper
      = paymentReferenceFor (formatNumber (numberPrefix date) sequence))
    (hpre : Scan.NoMatch referencePattern pre) (hcode : present payload.code = false)
    (hdescription : present payload.description = false)
    (hcontent : payload.content = some (pre ++ r' ++ suf)) :
    candidateReferences cm payload
      = ((paymentReferenceFor (formatNumber (numberPrefix date) sequence)).take 14 ::
          (Scan.findall referencePattern ((r' ++ suf).drop 14)).map cm.upper).eraseDups := by
  obtain ⟨a, b, ds, rfl, ha, hb, hds, hlen⟩ := reference_shape hcase
  have h4 : 4 ≤ (zeroPad 4 sequence).length := by rw [length_zeroPad]; omega
  have hmatch : Scan.matchesAt referencePattern (a :: b :: ds) = true :=
    matchesAt_reference ha hb hds (by omega)
  have hwidth : referencePattern.length = 14 := rfl
  have hlong : 14 ≤ (a :: b :: ds).length := by simp only [List.length_cons]; omega
  -- nothing is found before the reference, so the scan arrives at it
  have hskip : Scan.findall referencePattern (pre ++ ((a :: b :: ds) ++ suf))
      = Scan.findall referencePattern ((a :: b :: ds) ++ suf) :=
    Scan.findall_append fun u hu hsuffix => not_matchesAt_before ha hb hu (hpre u hsuffix)
  have hfound : Scan.findall referencePattern ((a :: b :: ds) ++ suf)
      = (a :: b :: ds).take 14 ::
        Scan.findall referencePattern (((a :: b :: ds) ++ suf).drop 14) := by
    rw [Scan.findall_match (by decide)
      (by rw [Scan.matchesAt_append (by rw [hwidth]; exact hlong)]; exact hmatch), hwidth,
      List.take_append_of_le_length hlong]
  have hempty : payload.description.getD [] = [] := by
    rwa [present, Bool.not_eq_false', List.isEmpty_iff] at hdescription
  have hfirst : cm.upper ((a :: b :: ds).take 14)
      = (paymentReferenceFor (formatNumber (numberPrefix date) sequence)).take 14 := by
    rw [upper_take cm ha hb hds, hcase]
  simp only [candidateReferences, hcode, hcontent, hempty, Bool.false_eq_true, if_false,
    List.flatMap_cons, List.flatMap_nil, Option.getD_some, List.append_assoc, hskip, hfound,
    Scan.findall_nil, List.map_cons, List.map_nil, List.append_nil, List.nil_append, hfirst]

/-- Up to 9999 the reference is fourteen letters long, and comes back whole. -/
theorem candidates_eq_singleton_iff
    (hcase : r'.map Char.toUpper
      = paymentReferenceFor (formatNumber (numberPrefix date) sequence))
    (hpre : Scan.NoMatch referencePattern pre) (hsuf : Scan.NoMatch referencePattern suf)
    (hcode : present payload.code = false) (hdescription : present payload.description = false)
    (hcontent : payload.content = some (pre ++ r' ++ suf)) :
    candidateReferences cm payload
      = [paymentReferenceFor (formatNumber (numberPrefix date) sequence)] ↔ sequence ≤ 9999 := by
  obtain ⟨a, b, ds, heq, -, -, -, hlen⟩ := reference_shape hcase
  have hlength : (paymentReferenceFor (formatNumber (numberPrefix date) sequence)).length
      = 10 + (zeroPad 4 sequence).length := by
    rw [← hcase, List.length_map, heq, List.length_cons, List.length_cons, hlen]
    omega
  rw [candidates_of_reference hcase hpre hcode hdescription hcontent]
  constructor
  -- beyond 9999 the numeral is wider than the pattern, and is cut off
  · intro h
    by_contra hbig
    have hwide := lt_length_zeroPad_of_le (w := 4) (n := sequence) (by decide) (by omega)
    rw [List.eraseDups_cons] at h
    have hcut := congrArg List.length (List.cons.inj h).1
    rw [List.length_take, hlength] at hcut
    omega
  · intro hsmall
    have hwide := length_zeroPad_of_lt (w := 4) (n := sequence) (by decide) (by omega)
    have hwhole : r'.length = 14 := by
      rw [← List.length_map (f := Char.toUpper), hcase, hlength, hwide]
    rw [List.take_of_length_le (by rw [hlength, hwide]), List.drop_left' hwhole,
      Scan.findall_of_noMatch hsuf]
    rfl

end Candidates

/-! ### Which order is paid -/

/-- A delivery that took the database from `d` to `d'` was applied to `id`: it
changed the order, or a transaction that it recorded names it. -/
def Applied (d d' : Db) (id : UUID) : Prop :=
  d'.orders.get id ≠ d.orders.get id ∨
  ∃ tid t, d.transactions.get tid = none ∧ d'.transactions.get tid = some t ∧
    t.orderId = some id

/-- Whatever the orders are, the transaction is only applied to the order with
this reference. -/
def AppliesOnlyTo (cm : CaseMap) (payload : SePayWebhookPayload) (r : Text) : Prop :=
  ∀ (vs : ℕ → Outside) (d d' : Db) (reply : Option PaymentMatchStatus),
    runAlone vs (processSepayWebhook cm payload) d = (.ok reply, d') →
    ∀ id, Applied d d' id → ∃ o, d.orders.get id = some o ∧ o.paymentReference = some r

/-- With a single candidate nothing else can be paid. -/
theorem appliesOnlyTo_of_candidates {cm : CaseMap} {payload : SePayWebhookPayload} {r : Text}
    (h : candidateReferences cm payload = [r]) : AppliesOnlyTo cm payload r := by
  intro vs d d' reply hrun id happlied
  have triple := wp_delivery (fun _ => True) d cm payload
  obtain ⟨locks, b, rfl, hpost⟩ := runAlone_ok triple (fun _ => trivial) hrun
  obtain ⟨hw, -⟩ := hpost d ((Scope.quiet (fun _ => True) d).rely.refl locks d)
  rcases reply with - | status
  · obtain ⟨rfl, -⟩ := hw
    rcases happlied with hchanged | ⟨tid, t, hnone, hsome, -⟩
    · exact absurd rfl hchanged
    · rw [flush_nil, hnone] at hsome
      cases hsome
  obtain ⟨tid, amount, orderId, hs⟩ := hw
  -- the transaction names the order that was picked
  have horder : orderId = some id := by
    rcases happlied with hchanged | ⟨tid', t, hnone, hsome, hid⟩
    · by_contra hne
      exact hchanged (hs.untouched hne)
    · rw [hs.transactions, Table.get_insert hs.fresh] at hsome
      split at hsome
      · cases hsome
        exact hid
      · rw [hnone] at hsome
        cases hsome
  have hin : payload.transferType = some "in".toList := by
    by_contra hout
    obtain ⟨writes, hsettle, -⟩ := hs.settlement
    cases hsettle with
    | ignored => cases horder
    | unmatched hin | alreadyPaid hin | amountMismatch hin | matched _ hin => exact hout hin
  obtain ⟨v, -, hchosen⟩ := hs.chosen hin
  rw [h, horder] at hchosen
  obtain ⟨e, hpick, hid⟩ := Option.map_eq_some_iff.mp hchosen.symm
  have hmem := (mem_of_oldest hpick).1
  rw [namedOrders, List.mem_filter, decide_eq_true_eq] at hmem
  obtain ⟨hentry, -, r', hr', href⟩ := hmem
  rw [List.mem_singleton.mp hr'] at href
  exact ⟨e.2, hid ▸ Table.get_eq_some.mpr hentry, href⟩

/-- **Reference round trip.**  A text that quotes a reference, in any letter
case and in any surroundings without another one, yields exactly that
reference and is only ever applied to its order, if and only if the daily
sequence is at most 9999. -/
theorem reference_round_trip_iff (cm : CaseMap) (payload : SePayWebhookPayload) (date : UtcDate)
    (sequence : ℕ) (r' pre suf : Text)
    (hcase : r'.map Char.toUpper
      = paymentReferenceFor (formatNumber (numberPrefix date) sequence))
    (hpre : Scan.NoMatch referencePattern pre) (hsuf : Scan.NoMatch referencePattern suf)
    (hcode : present payload.code = false) (hdescription : present payload.description = false)
    (hcontent : payload.content = some (pre ++ r' ++ suf)) :
    (candidateReferences cm payload
        = [paymentReferenceFor (formatNumber (numberPrefix date) sequence)] ∧
      AppliesOnlyTo cm payload (paymentReferenceFor (formatNumber (numberPrefix date) sequence))) ↔
    sequence ≤ 9999 := by
  have hiff : candidateReferences cm payload
      = [paymentReferenceFor (formatNumber (numberPrefix date) sequence)] ↔ sequence ≤ 9999 :=
    candidates_eq_singleton_iff hcase hpre hsuf hcode hdescription hcontent
  exact ⟨fun h => hiff.mp h.1,
    fun h => ⟨hiff.mpr h, appliesOnlyTo_of_candidates (hiff.mpr h)⟩⟩

/-- A day with more than 9999 orders: its 1000th order, and its 10000th. -/
def busyDay : Db :=
  { Db.ferns with
    orders := (Table.empty.insert 5 (transferOrder "GG-20250501-1000".toList 1)).insert 6
      (transferOrder "GG-20250501-10000".toList 2) }

/-- The day's 9999th reference, in a text. -/
theorem reference_round_trip_iff_9999 :
    (candidateReferences .ascii (payment 1 none (some "tt gg202505019999".toList) (.cents 100))
        = [paymentReferenceFor (formatNumber (numberPrefix (atNoon 1).clock.date) 9999)] ∧
      AppliesOnlyTo .ascii (payment 1 none (some "tt gg202505019999".toList) (.cents 100))
        (paymentReferenceFor (formatNumber (numberPrefix (atNoon 1).clock.date) 9999))) ↔
    9999 ≤ 9999 := by
  have hnone : ∀ s : Text, s.length < 14 → Scan.NoMatch referencePattern s := by
    intro s hs t ht
    rw [← Bool.not_eq_true]
    intro hmatch
    exact absurd (Scan.length_le_of_matchesAt hmatch) (not_le.mpr (ht.length_le.trans_lt hs))
  exact reference_round_trip_iff .ascii _ _ 9999 "gg202505019999".toList "tt ".toList []
    (by decide) (hnone _ (by decide)) (hnone _ (by decide)) rfl rfl rfl

/-- A transfer for the 10000th order of a day pays the 1000th. -/
theorem shortened_reference :
    candidateReferences .ascii
        (payment 1 none (some "GG2025050110000".toList) (.cents 20000050))
      ≠ [paymentReferenceFor (formatNumber (numberPrefix (atNoon 1).clock.date) 10000)] ∧
    ¬ AppliesOnlyTo .ascii
        (payment 1 none (some "GG2025050110000".toList) (.cents 20000050))
        (paymentReferenceFor (formatNumber (numberPrefix (atNoon 1).clock.date) 10000)) := by
  refine ⟨by decide +kernel, fun h => ?_⟩
  set payload := payment 1 none (some "GG2025050110000".toList) (.cents 20000050) with hpayload
  have hpaid : (((runAlone atNoon (processSepayWebhook .ascii payload) busyDay).2.orders.get 5).map
      Order.paymentStatus) = some .paid := by decide +kernel
  rcases hrun : runAlone atNoon (processSepayWebhook .ascii payload) busyDay with ⟨e | reply, d'⟩
  · have hok : (runAlone atNoon (processSepayWebhook .ascii payload) busyDay).1.isOk = true := by
      decide +kernel
    rw [hrun] at hok
    cases hok
  · rw [hrun] at hpaid
    have hchanged : d'.orders.get 5 ≠ busyDay.orders.get 5 := by
      intro hsame
      rw [hsame] at hpaid
      exact absurd hpaid (by decide +kernel)
    obtain ⟨o, ho, href⟩ := h atNoon busyDay d' reply hrun 5 (.inl hchanged)
    have hactual : (busyDay.orders.get 5).bind Order.paymentReference
        = some "GG202505011000".toList := by decide +kernel
    rw [ho, Option.bind_some, href] at hactual
    exact absurd hactual (by decide +kernel)

end GreenGarden
