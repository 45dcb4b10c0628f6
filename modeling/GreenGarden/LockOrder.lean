/-
GreenGarden/LockOrder.lean

Deadlock freedom by lock ranking, for transactions over an arbitrary database.

`Waits s i j`: transaction `i` asks for a lock that `j` holds.  A deadlock is a
cycle of waiting transactions.  If every lock has a rank, and whoever asks for
a lock holds only locks of lower rank, then ranks increase along every chain of
waiting transactions and no chain closes (`no_cycle`).

The rank may depend on the database: a key can rank differently before and
after the row it stands for exists.  `ordered` is the discipline as a
precondition of a body, under the same interference as `wp`, with a rule for
each construct; `no_deadlock` is its soundness for every schedule.
-/
import GreenGarden.RelyGuarantee

namespace Transaction

variable {ι D K V E α β L : Type} [Preorder L]

/-! ### Waiting -/

/-- Transaction `i` asks for a lock that `j` holds. -/
def Waits (s : State ι D K V E α) (i j : ι) : Prop :=
  ∃ k t b, s.status i = .running (.lock k t) b ∧ s.owner k = some j ∧ j ≠ i

/-- Whoever asks for a lock holds only locks of lower rank. -/
def Ranked (rank : K → L) (s : State ι D K V E α) : Prop :=
  ∀ i k t b, s.status i = .running (.lock k t) b → ∀ k' ∈ s.held i, rank k' < rank k

/-- The lock somebody waits for. -/
def Wants (s : State ι D K V E α) (i : ι) (k : K) : Prop :=
  ∃ t b, s.status i = .running (.lock k t) b

theorem Wants.unique {s : State ι D K V E α} {i : ι} {k k' : K} (h : Wants s i k)
    (h' : Wants s i k') : k = k' := by
  obtain ⟨t, b, hst⟩ := h
  obtain ⟨t', b', hst'⟩ := h'
  rw [hst] at hst'
  cases hst'
  rfl

/-- Ranks increase along a chain of waiting transactions. -/
theorem Ranked.increases {rank : K → L} {s : State ι D K V E α} (hs : Ranked rank s) {i j : ι}
    (h : Relation.TransGen (Waits s) i j) {k k' : K} (hk : Wants s i k) (hk' : Wants s j k') :
    rank k < rank k' := by
  -- one link: the lock asked for is among those the next one holds
  have link : ∀ {i j : ι} {k k' : K}, Waits s i j → Wants s i k → Wants s j k' →
      rank k < rank k' := by
    intro i j k k' hw hk hk'
    obtain ⟨k₁, t, b, hst, hown, -⟩ := hw
    obtain rfl : k = k₁ := hk.unique ⟨t, b, hst⟩
    obtain ⟨t', b', hst'⟩ := hk'
    exact hs j k' t' b' hst' k hown
  induction h generalizing k' with
  | single hw => exact link hw hk hk'
  | tail _ hw ih =>
    have hw' := hw
    obtain ⟨k₁, t, b, hst, -, -⟩ := hw'
    exact (ih ⟨t, b, hst⟩).trans (link hw ⟨t, b, hst⟩ hk')

/-- **Ranked locks leave no cycle.** -/
theorem no_cycle {rank : K → L} {s : State ι D K V E α} (hs : Ranked rank s) (i : ι) :
    ¬ Relation.TransGen (Waits s) i i := by
  intro h
  obtain ⟨j, ⟨k, t, b, hst, -, -⟩, -⟩ := Relation.TransGen.head'_iff.mp h
  exact lt_irrefl _ (hs.increases h ⟨t, b, hst⟩ ⟨t, b, hst⟩)

/-! ### The discipline of one body -/

/-- The body asks for each lock holding only locks of lower rank, whatever
others do in between, and returns with `Q`. -/
def ordered (R : Rely K D V) (rank : D → K → L) :
    Tx D K V E α → (α → Set K → List (D → D) → D → Prop) → Set K → List (D → D) → D → Prop
  | .ret a, Q, h, b, d => Q a h b d
  | .fail _, _, _, _, _ => True
  | .ask f, Q, h, b, d => ∀ v, R.answers v → ordered R rank (f v) Q h b d
  | .read f, Q, h, b, d => ∀ d', R.rel h d d' → ordered R rank (f (flush b d')) Q h b d'
  | .lock k t, Q, h, b, d => ∀ d', R.rel h d d' →
      (∀ k' ∈ h, rank d' k' < rank d' k) ∧ ordered R rank t Q (insert k h) b d'
  | .write w t, Q, h, b, d => ordered R rank t Q h (w :: b) d

theorem stepwise_ordered (R : Rely K D V) (rank : D → K → L)
    (Q : α → Set K → List (D → D) → D → Prop) :
    Stepwise R fun (t : Tx D K V E α) h b d => ordered R rank t Q h b d where
  ask v hv ht := ht v hv
  read hd ht := ht _ hd
  lock hd ht := (ht _ hd).2
  write ht := ht

section Rules

variable {R : Rely K D V} {rank : D → K → L} {h : Set K} {b : List (D → D)} {d : D}
variable {Q : β → Set K → List (D → D) → D → Prop}

/-- Sequencing: what `t` returns is handed to `g`. -/
theorem ordered_bind {t : Tx D K V E α} {g : α → Tx D K V E β}
    (ht : ordered R rank t (fun a h b d => ordered R rank (g a) Q h b d) h b d) :
    ordered R rank (t >>= g) Q h b d := by
  show ordered R rank (t.bind g) Q h b d
  induction t generalizing h b d with
  | ret a => exact ht
  | fail e => exact ht
  | ask f ih => exact fun v hv => ih v (ht v hv)
  | read f ih => exact fun d' hd => ih _ (ht d' hd)
  | lock k t ih => exact fun d' hd => ⟨(ht d' hd).1, ih (ht d' hd).2⟩
  | write w t ih => exact ih ht

/-- Consequence. -/
theorem ordered_mono {t : Tx D K V E α} {Q Q' : α → Set K → List (D → D) → D → Prop}
    (hQ : ∀ a h b d, Q a h b d → Q' a h b d) (ht : ordered R rank t Q h b d) :
    ordered R rank t Q' h b d := by
  induction t generalizing h b d with
  | ret a => exact hQ _ _ _ _ ht
  | fail e => exact ht
  | ask f ih => exact fun v hv => ih v (ht v hv)
  | read f ih => exact fun d' hd => ih _ (ht d' hd)
  | lock k t ih => exact fun d' hd => ⟨(ht d' hd).1, ih (ht d' hd).2⟩
  | write w t ih => exact ih ht

theorem ordered_pure {a : β} (hQ : Q a h b d) :
    ordered R rank (pure a : Tx D K V E β) Q h b d := hQ

theorem ordered_query {f : D → α} {g : α → Tx D K V E β}
    (hg : ∀ d', R.rel h d d' → ordered R rank (g (f (flush b d'))) Q h b d') :
    ordered R rank (Tx.query f >>= g) Q h b d := hg

theorem ordered_outside {f : V → α} {g : α → Tx D K V E β}
    (hg : ∀ v, R.answers v → ordered R rank (g (f v)) Q h b d) :
    ordered R rank (Tx.outside f >>= g) Q h b d := hg

theorem ordered_acquire {k : K} {g : Unit → Tx D K V E β}
    (hk : ∀ d', R.rel h d d' → ∀ k' ∈ h, rank d' k' < rank d' k)
    (hg : ∀ d', R.rel h d d' → ordered R rank (g ()) Q (insert k h) b d') :
    ordered R rank (Tx.acquire k >>= g) Q h b d :=
  fun d' hd => ⟨hk d' hd, hg d' hd⟩

theorem ordered_stage {w : D → D} {g : Unit → Tx D K V E β}
    (hg : ordered R rank (g ()) Q h (w :: b) d) :
    ordered R rank (Tx.stage w >>= g) Q h b d := hg

theorem ordered_failIf {c : Prop} [Decidable c] {e : E} {g : Unit → Tx D K V E β}
    (hg : ¬ c → ordered R rank (g ()) Q h b d) :
    ordered R rank (Tx.failIf c e >>= g) Q h b d := by
  by_cases hc : c
  · rw [Tx.failIf, if_pos hc]
    trivial
  · rw [Tx.failIf, if_neg hc]
    exact hg hc

theorem ordered_ofExcept {x : Except E α} {g : α → Tx D K V E β}
    (hg : ∀ a, x = .ok a → ordered R rank (g a) Q h b d) :
    ordered R rank (Tx.ofExcept x >>= g) Q h b d := by
  rcases x with e | a
  · trivial
  · exact hg a rfl

theorem ordered_whenElse {c : Prop} [Decidable c] {t : Tx D K V E α} {a : α}
    {g : α → Tx D K V E β} (hpos : c → ordered R rank (t >>= g) Q h b d)
    (hneg : ¬ c → ordered R rank (g a) Q h b d) :
    ordered R rank (Tx.whenElse c t a >>= g) Q h b d := by
  by_cases hc : c
  · rw [Tx.whenElse, if_pos hc]
    exact hpos hc
  · rw [Tx.whenElse, if_neg hc]
    exact hneg hc

end Rules

/-! ### Soundness for every schedule -/

/-- **Bodies that keep the discipline never deadlock.** -/
theorem no_deadlock [DecidableEq ι] [DecidableEq K] {W : Workload ι D K V E α} (C : Contract W)
    (rank : D → K → L)
    (hbody : ∀ i d, C.inv d → ordered C.rely rank (W.body i) (fun _ _ _ _ => True)
      {k | k ∈ W.token i} [] d)
    {d : D} (hd : C.inv d) (ms : ℕ → Move ι V) (n : ℕ) (i : ι) :
    ¬ Relation.TransGen (Waits (trace W d ms n)) i i := by
  have hranked : Ranked (rank (trace W d ms n).db) (trace W d ms n) := by
    intro j k t b hst k' hk'
    obtain ⟨d₁, hd₁, ht⟩ :=
      C.at_trace (fun _ => stepwise_ordered C.rely rank _) hbody hd ms n j _ _ hst
    exact (ht _ hd₁).1 k' hk'
  exact no_cycle hranked i

end Transaction
