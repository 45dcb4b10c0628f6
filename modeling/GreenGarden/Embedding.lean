/-
GreenGarden/Embedding.lean

Transactions of one database run inside a larger one, again as a library.

An `Embedding` says where the smaller database lies in the larger one, what
its locks are called there, what it is answered and how its errors are raised.
`Tx.into` carries a body over: it reads its own part, writes its own part and
leaves the rest alone.

A triple of the body is a triple of the body carried over (`wp_into`), with
the same locks, the same staged writes and the same part looked at, as soon as
what others may do to the larger database is something they may do to the part.
-/
import GreenGarden.RelyGuarantee

namespace Transaction

/-- A database `D` inside a database `D'`. -/
structure Embedding (D K V E D' K' V' E' : Type) where
  get : D' → D
  put : D → D' → D'
  key : K → K'
  answer : V' → V
  error : E → E'
  get_put : ∀ d d', get (put d d') = d
  key_injective : Function.Injective key

variable {D K V E D' K' V' E' α β : Type}

namespace Embedding

variable (e : Embedding D K V E D' K' V' E')

/-- A write of the part. -/
def onPart (w : D → D) (d' : D') : D' := e.put (w (e.get d')) d'

@[simp] theorem get_onPart (w : D → D) (d' : D') : e.get (e.onPart w d') = w (e.get d') :=
  e.get_put _ _

/-- The part of a database with staged writes on top. -/
theorem get_flush (b : List (D → D)) (d' : D') :
    e.get (flush (b.map e.onPart) d') = flush b (e.get d') := by
  induction b with
  | nil => rfl
  | cons w b ih =>
    show e.get (e.onPart w (flush (b.map e.onPart) d')) = w (flush b (e.get d'))
    rw [get_onPart, ih]

/-- What writes of the part leave alone. -/
theorem flush_frame {γ : Type} {f : D' → γ} (hf : ∀ d d', f (e.put d d') = f d')
    (b : List (D → D)) (d' : D') : f (flush (b.map e.onPart) d') = f d' := by
  induction b with
  | nil => rfl
  | cons w b ih =>
    show f (e.put _ (flush (b.map e.onPart) d')) = f d'
    rw [hf, ih]

/-- The locks of the part among those that are held. -/
def locks (h : Set K') : Set K := Set.preimage e.key h

@[simp] theorem mem_locks {h : Set K'} {k : K} : k ∈ e.locks h ↔ e.key k ∈ h := Iff.rfl

theorem locks_insert (k : K) (h : Set K') :
    e.locks (insert (e.key k) h) = insert k (e.locks h) := by
  ext k'
  simp [e.key_injective.eq_iff]

end Embedding

namespace Tx

/-- A body carried over into the larger database. -/
def into (e : Embedding D K V E D' K' V' E') : Tx D K V E α → Tx D' K' V' E' α
  | ret a => ret a
  | fail x => fail (e.error x)
  | ask f => ask fun v => (f (e.answer v)).into e
  | read f => read fun d => (f (e.get d)).into e
  | lock k t => lock (e.key k) (t.into e)
  | write w t => write (e.onPart w) (t.into e)

variable (e : Embedding D K V E D' K' V' E')

theorem into_bind (t : Tx D K V E α) (g : α → Tx D K V E β) :
    (t >>= g).into e = t.into e >>= fun a => (g a).into e := by
  show (t.bind g).into e = (t.into e).bind fun a => (g a).into e
  induction t with
  | ret a => rfl
  | fail x => rfl
  | ask f ih => exact congrArg ask (funext fun v => ih _)
  | read f ih => exact congrArg read (funext fun d => ih _)
  | lock k t ih => exact congrArg (lock (e.key k)) ih
  | write w t ih => exact congrArg (write (e.onPart w)) ih

@[simp] theorem into_pure (a : α) : (pure a : Tx D K V E α).into e = pure a := rfl

@[simp] theorem into_query (f : D → α) :
    (query f : Tx D K V E α).into e = query fun d => f (e.get d) := rfl

end Tx

/-- **A triple carried over.** -/
theorem wp_into (e : Embedding D K V E D' K' V' E') {R : Rely K D V} {R' : Rely K' D' V'}
    {F : E → D → Prop} {F' : E' → D' → Prop} {t : Tx D K V E α}
    {Q : α → Set K → List (D → D) → D → Prop}
    (hrel : ∀ h d₁ d₂, R'.rel h d₁ d₂ → R.rel (e.locks h) (e.get d₁) (e.get d₂))
    (hanswers : ∀ v, R'.answers v → R.answers (e.answer v))
    (hF : ∀ x d, F x (e.get d) → F' (e.error x) d)
    {h : Set K'} {b : List (D → D)} {d : D'} (ht : wp R F t Q (e.locks h) b (e.get d)) :
    wp R' F' (t.into e)
      (fun a h b' d => ∃ b, b' = b.map e.onPart ∧ Q a (e.locks h) b (e.get d))
      h (b.map e.onPart) d := by
  induction t generalizing h b d with
  | ret a => exact ⟨b, rfl, ht⟩
  | fail x => exact hF x d ht
  | ask f ih => exact fun v hv => ih _ (ht _ (hanswers v hv))
  | read f ih =>
    intro d' hd'
    show wp R' F' ((f (e.get (flush (b.map e.onPart) d'))).into e) _ h (b.map e.onPart) d'
    rw [e.get_flush]
    exact ih _ (ht _ (hrel h d d' hd'))
  | lock k t ih =>
    intro d' hd'
    have hnext := ht _ (hrel h d d' hd')
    rw [← e.locks_insert] at hnext
    exact ih hnext
  | write w t ih => exact ih (b := w :: b) ht

end Transaction
