/-
GreenGarden/Guarantee.lean

One triple per request, and the contract of the whole shop.

`Request.post` is what a request commits, `Request.failure` why it can fail.
`shopContract` puts the triples side by side: within a scope whose relation
every commit respects, they hold for any family of requests under any
schedule.  The claims about runs instantiate the scope and use the invariant
rule of the contract.
-/
import GreenGarden.Editing
import GreenGarden.Moving
import GreenGarden.Settling

namespace GreenGarden

open Transaction

/-- Why a checkout can fail: before the order, or while placing it. -/
def CheckoutFailure (S : Scope) (payload : StorefrontOrderCreate) : Error → Db → Prop
  | .botSignalRejected _, _ => verifyBotSignals payload.toBotSignals ≠ .ok ()
  | .bankTransferUnavailable, _ => payload.paymentMethod = .bankTransfer
  | .checkoutRateLimited _, d => ∃ now, checkoutPhoneLimit ≤
      (ordersSince d (normalizeVnPhone payload.phone) (now - checkoutPhoneWindow)).length
  | e, d => OrderFailure S payload.draft e d

/-- What an order request commits. -/
def OrderPost (S : Scope) (now : Instant) (draft : OrderDraft) (id : UUID) (h : Set Key)
    (b : List (Db → Db)) (d : Db) : Prop :=
  (∃ order, Placed S now draft id order h d (flush b d)) ∧ Change S.serialized h d (flush b d)

/-- What a request commits. -/
def Request.post (S : Scope) (site : Deployment) :
    Request → Reply → Set Key → List (Db → Db) → Db → Prop
  | .createOrder draft, reply, h, b, d =>
      ∃ id, reply = .row id ∧ ∃ now, OrderPost S now draft id h b d
  | .postStorefrontOrder payload, reply, h, b, d =>
      ∃ id, reply = .row id ∧ ∃ now, OrderPost S now payload.draft id h b d
  | .updateOrderStatus id target, reply, h, b, d =>
      ∃ id', reply = .row id' ∧ StatusPost S id target h b d
  | .processSepayWebhook payload, reply, h, b, d =>
      ∃ status, reply = .webhook status ∧ WebhookPost S site.caseMap payload status h b d
  | .createPlant _, reply, h, b, d => ∃ id, reply = .row id ∧ CataloguePost S (fun p => p) h b d
  | .updatePlant _ patch, reply, h, b, d =>
      ∃ id, reply = .row id ∧ CataloguePost S patch.apply h b d
  | .setPlantStatus _ isActive, reply, h, b, d =>
      ∃ id, reply = .row id ∧ CataloguePost S (Plant.activated isActive) h b d
  | .createCustomer phone name email, reply, h, b, d =>
      ∃ id, reply = .row id ∧ CustomerPost S (.create ⟨phone, name, email, true⟩) h b d
  | .updateCustomer id patch, reply, h, b, d =>
      ∃ id', reply = .row id' ∧ CustomerPost S (.edit id patch.apply) h b d
  | .setCustomerStatus id isActive, reply, h, b, d =>
      ∃ id', reply = .row id' ∧ CustomerPost S (.edit id (Customer.activated isActive)) h b d

/-- Why a request can fail. -/
def Request.failure (S : Scope) : Request → Error → Db → Prop
  | .createOrder draft => OrderFailure S draft
  | .postStorefrontOrder payload => CheckoutFailure S payload
  | .updateOrderStatus id target => StatusFailure S id target
  | .processSepayWebhook payload => WebhookFailure S payload
  | _ => EditFailure

/-- Whatever a request commits is a change under the locks it holds. -/
theorem Request.post_change {S : Scope} {site : Deployment} {request : Request} {reply : Reply}
    {h : Set Key} {b : List (Db → Db)} {d : Db} (hp : request.post S site reply h b d) :
    Change S.serialized h d (flush b d) := by
  cases request with
  | createOrder => obtain ⟨_, -, _, -, hc⟩ := hp; exact hc
  | postStorefrontOrder => obtain ⟨_, -, _, -, hc⟩ := hp; exact hc
  | updateOrderStatus => obtain ⟨_, -, -, hc⟩ := hp; exact hc
  | processSepayWebhook => obtain ⟨_, -, -, hc⟩ := hp; exact hc
  | createPlant | updatePlant | setPlantStatus => obtain ⟨_, -, -, hc⟩ := hp; exact hc
  | createCustomer | updateCustomer | setCustomerStatus => obtain ⟨_, -, -, hc⟩ := hp; exact hc

section Triples

variable {S : Scope} {site : Deployment} {h : Set Key} {d : Db}

theorem wp_replyRow {F : Error → Db → Prop} {t : Session UUID}
    {P : UUID → Set Key → List (Db → Db) → Db → Prop}
    {P' : Reply → Set Key → List (Db → Db) → Db → Prop}
    (himp : ∀ id h b d, P id h b d → P' (.row id) h b d)
    (ht : wp S.rely F t (Stable S.rely P) h [] d) :
    wp S.rely F (replyRow t) (Stable S.rely P') h [] d := by
  rw [replyRow]
  exact wp_bind (wp_mono (fun _ _ hf => hf)
    (fun id h b d hq => wp_pure fun d' hd' => himp id h b d' (hq d' hd')) ht)

theorem OrderFailure.checkout {payload : StorefrontOrderCreate} {e : Error}
    (hf : OrderFailure S payload.draft e d) : CheckoutFailure S payload e d := by
  cases e <;> first | exact hf | exact hf.elim

theorem wp_checkCheckoutPhoneLimit {β : Type} {payload : StorefrontOrderCreate} {now : Instant}
    {g : Unit → Session β} {Q : β → Set Key → List (Db → Db) → Db → Prop}
    (hg : ∀ d', S.rely.rel h d d' → wp S.rely (CheckoutFailure S payload) (g ()) Q h [] d') :
    wp S.rely (CheckoutFailure S payload)
      (checkCheckoutPhoneLimit now payload.phone >>= g) Q h [] d := by
  rw [checkCheckoutPhoneLimit, bind_assoc]
  refine wp_query fun d' hd' => ?_
  -- the query reads no more rows than the limit
  have hlen : ∀ l : List Instant, (l.take checkoutPhoneLimit).length < checkoutPhoneLimit ↔
      l.length < checkoutPhoneLimit := by
    intro l
    rw [List.length_take]
    omega
  rw [flush_nil]
  refine wp_failIf (fun hfull => ?_) fun _ => hg d' hd'
  rw [hlen, not_lt] at hfull
  exact ⟨now, hfull⟩

theorem wp_postStorefrontOrder (payload : StorefrontOrderCreate) (hinv : S.inv d) :
    wp S.rely (CheckoutFailure S payload) (postStorefrontOrder site.settings payload)
      (Stable S.rely fun id h b d => ∃ now, OrderPost S now payload.draft id h b d) h [] d := by
  rw [postStorefrontOrder]
  refine wp_ofExcept (fun e he => ?_) fun _ _ => ?_
  · have hne : verifyBotSignals payload.toBotSignals ≠ .ok () := by rw [he]; nofun
    unfold verifyBotSignals at he
    split_ifs at he <;> cases he <;> exact hne
  refine wp_failIf (fun hunavailable => hunavailable.1) fun _ => wp_outside fun v _ => ?_
  refine wp_checkCheckoutPhoneLimit fun d₁ hd₁ => ?_
  exact wp_mono (fun e d hf => hf.checkout) (fun id h b d hq d' hd' => ⟨v.now, hq d' hd'⟩)
    (wp_createOrderAt (S.keeps hd₁.2 hinv))

/-- **Every request meets its triple.** -/
theorem Request.triple (request : Request) (hinv : S.inv d) :
    wp S.rely (request.failure S) (request.body site) (Stable S.rely (request.post S site))
      {k | k ∈ if S.serialized = true then request.token else []} [] d := by
  cases request with
  | createOrder draft =>
    refine wp_replyRow (fun id h b d hp => ⟨id, rfl, hp⟩) ?_
    rw [GreenGarden.createOrder]
    refine wp_outside fun v _ => wp_mono (fun _ _ hf => hf) (fun id h b d hq d' hd' => ?_)
      (wp_createOrderAt hinv)
    exact ⟨v.now, hq d' hd'⟩
  | postStorefrontOrder payload =>
    exact wp_replyRow (fun id h b d hp => ⟨id, rfl, hp⟩) (wp_postStorefrontOrder payload hinv)
  | updateOrderStatus id target =>
    refine wp_replyRow (fun id' h b d hp => ⟨id', rfl, hp⟩)
      (wp_updateOrderStatus hinv fun hs => ?_)
    rw [if_pos hs]
    exact List.mem_singleton.mpr rfl
  | processSepayWebhook payload =>
    exact wp_bind (wp_mono (fun _ _ hf => hf)
      (fun status h b d hq => wp_pure fun d' hd' => ⟨status, rfl, hq d' hd'⟩)
      (wp_processSepayWebhook hinv))
  | createPlant plant =>
    exact wp_replyRow (fun id h b d hp => ⟨id, rfl, hp⟩) (wp_createPlant plant hinv)
  | updatePlant id patch =>
    exact wp_replyRow (fun id h b d hp => ⟨id, rfl, hp⟩) (wp_updatePlant patch hinv)
  | setPlantStatus id isActive =>
    exact wp_replyRow (fun id h b d hp => ⟨id, rfl, hp⟩) (wp_setPlantStatus isActive hinv)
  | createCustomer phone name email =>
    exact wp_replyRow (fun id h b d hp => ⟨id, rfl, hp⟩) (wp_createCustomer phone name email)
  | updateCustomer id patch =>
    exact wp_replyRow (fun id h b d hp => ⟨id, rfl, hp⟩) (wp_updateCustomer patch)
  | setCustomerStatus id isActive =>
    exact wp_replyRow (fun id h b d hp => ⟨id, rfl, hp⟩) (wp_setCustomerStatus isActive)

end Triples

/-- **The contract of the shop**, for any family of requests whose commits
respect the scope. -/
def shopContract {ι : Type} (S : Scope) (site : Deployment) (requests : ι → Request)
    (hanswers : ∀ v, S.answers v)
    (hrel : ∀ i reply h b d, S.inv d → (requests i).post S site reply h b d →
      S.rel d (flush b d)) :
    Contract (shop site S.serialized requests) where
  rely := S.rely
  inv := S.inv
  post i := (requests i).post S site
  error i := (requests i).failure S
  answers := hanswers
  triple i _ hinv := (requests i).triple hinv
  keeps i reply h b d hp hinv := S.keeps (hrel i reply h b d hinv hp) hinv
  respects i reply h _ b d hp hinv hdisj :=
    ⟨(Request.post_change hp).mono (Set.subset_compl_iff_disjoint_right.mpr hdisj),
      hrel i reply h b d hinv hp⟩

/-! ### What commits do to the orders -/

/-- The order a request places, if it places one. -/
def Request.draft? : Request → Option OrderDraft
  | .createOrder draft => some draft
  | .postStorefrontOrder payload => some payload.draft
  | _ => none

/-- A commit adds one order, or leaves every order as it was placed. -/
theorem Request.orders_cases {S : Scope} {site : Deployment} {request : Request} {reply : Reply}
    {h : Set Key} {b : List (Db → Db)} {d : Db} (hp : request.post S site reply h b d) :
    (∃ draft now id order, request.draft? = some draft ∧ reply = .row id ∧
      Placed S now draft id order h d (flush b d)) ∨
    (flush b d).orders.rows.map Order.placed = d.orders.rows.map Order.placed := by
  cases request with
  | createOrder draft =>
    obtain ⟨id, hr, now, ⟨order, hplaced⟩, -⟩ := hp
    exact .inl ⟨draft, now, id, order, rfl, hr, hplaced⟩
  | postStorefrontOrder payload =>
    obtain ⟨id, hr, now, ⟨order, hplaced⟩, -⟩ := hp
    exact .inl ⟨payload.draft, now, id, order, rfl, hr, hplaced⟩
  | updateOrderStatus id target =>
    obtain ⟨_, -, rfl | ⟨-, seen, old, order, hm⟩, -⟩ := hp
    · exact .inr rfl
    · refine .inr ?_
      rw [hm.orders, Table.map_rows_modify]
      exact fun _ _ => rfl
  | processSepayWebhook payload =>
    obtain ⟨status, -, hw, -⟩ := hp
    cases status with
    | none =>
      obtain ⟨rfl, -⟩ := hw
      exact .inr rfl
    | some status =>
      obtain ⟨tid, amount, orderId, hs⟩ := hw
      obtain ⟨writes, hsettle, horders⟩ := hs.settlement
      rw [horders]
      refine .inr ?_
      cases hsettle with
      | ignored | unmatched | alreadyPaid | amountMismatch => rfl
      | matched => exact Table.map_rows_modify _ _ _ _ fun _ _ => rfl
  | createPlant | updatePlant | setPlantStatus =>
    obtain ⟨_, -, he, -⟩ := hp
    exact .inr (by rw [he.orders])
  | createCustomer | updateCustomer | setCustomerStatus =>
    obtain ⟨_, -, he, -⟩ := hp
    exact .inr (by rw [he.orders])

/-- A condition on single orders that does not look at status or payment is
kept by every commit that keeps it for the orders it adds. -/
theorem forall_orders_of_placed {P : Order → Prop} (hP : ∀ o, P o ↔ P o.placed) {d d' : Db}
    (h : d'.orders.rows.map Order.placed = d.orders.rows.map Order.placed)
    (hd : ∀ o ∈ d.orders.rows, P o) : ∀ o ∈ d'.orders.rows, P o := by
  intro o ho
  have hmem : o.placed ∈ d.orders.rows.map Order.placed := by
    rw [← h]
    exact List.mem_map_of_mem ho
  obtain ⟨o', ho', heq⟩ := List.mem_map.mp hmem
  rw [hP, ← heq, ← hP]
  exact hd o' ho'

theorem orderNumbers_of_placed {d d' : Db}
    (h : d'.orders.rows.map Order.placed = d.orders.rows.map Order.placed) :
    d'.orderNumbers = d.orderNumbers := by
  have := congrArg (List.map Order.orderNumber) h
  rwa [List.map_map, List.map_map] at this

theorem Placed.orderNumbers {S : Scope} {now : Instant} {draft : OrderDraft} {id : UUID}
    {order : Order} {h : Set Key} {d d' : Db} (hp : Placed S now draft id order h d d') :
    d'.orderNumbers = d.orderNumbers ++ [order.orderNumber] := by
  rw [Db.orderNumbers, hp.orders, Table.rows_insert hp.fresh, List.map_append]
  rfl

theorem Placed.mem_rows {S : Scope} {now : Instant} {draft : OrderDraft} {id : UUID}
    {order : Order} {h : Set Key} {d d' : Db} (hp : Placed S now draft id order h d d')
    {o : Order} : o ∈ d'.orders.rows ↔ o ∈ d.orders.rows ∨ o = order := by
  rw [hp.orders, Table.rows_insert hp.fresh, List.mem_append, List.mem_singleton]

end GreenGarden
