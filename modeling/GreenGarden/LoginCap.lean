/-
GreenGarden/LoginCap.lean

How many failing password checks fit into one window?

The counters only know the failures already recorded.  A check in progress may
record one later, so the limit holds where no check starts while the recorded
failures and the checks in progress already reach it (`Uncrowded`): that is
`failures_capped`, over every run.  The code tests the recorded failures alone,
and two logins tested before either is recorded both have their passwords
checked (`both_checked`).  A login that nobody overlaps starts its check
uncrowded by that test alone (`uncrowded_alone`).

The invariant is kept for one start `t` of a window at a time (`Counting`):
recorded failures of checks started since `t` are among the hits since `t`,
and with the checks still in progress they leave room for the older hits.
-/
import GreenGarden.Login

namespace GreenGarden

open RateLimit

variable {ι σ : Type}

/-! ### What a phase says about the check -/

namespace LoginPhase

/-- When the password check started, unless it ended without a failure. -/
def start? : LoginPhase → Option ℕ
  | .checking start | .recording start _ _ | .refused start _ => some start
  | _ => none

/-- When a failing check started and when it completed. -/
def failure? : LoginPhase → Option (ℕ × ℕ)
  | .recording start finish _ | .refused start finish => some (start, finish)
  | _ => none

/-- A failure may still be recorded against the limit. -/
def MayRecord (item : RateLimitItem) : LoginPhase → Prop
  | .checking _ => True
  | .recording _ _ todo => item ∈ todo
  | _ => False

instance (item : RateLimitItem) : DecidablePred (MayRecord item)
  | .checking _ => inferInstanceAs (Decidable True)
  | .recording _ _ todo => inferInstanceAs (Decidable (item ∈ todo))
  | .idle | .testing _ | .refused _ _ | .rateLimited _ | .loggedIn | .broken =>
    inferInstanceAs (Decidable False)

/-- The check started at `t` or later. -/
def Since (t : ℕ) (phase : LoginPhase) : Prop := ∃ start ∈ phase.start?, t ≤ start

/-- A check that fails within the window that starts at `t`. -/
def FailsWithin (t w : ℕ) (phase : LoginPhase) : Prop :=
  ∃ e ∈ phase.failure?, t ≤ e.1 ∧ e.2 ≤ t + w

theorem FailsWithin.since {t w : ℕ} {phase : LoginPhase} (h : phase.FailsWithin t w) :
    phase.Since t := by
  obtain ⟨e, he, ht, -⟩ := h
  cases phase with
  | recording start finish todo | refused start finish =>
    cases he
    exact ⟨start, rfl, ht⟩
  | idle | testing | checking | rateLimited | loggedIn | broken => cases he

end LoginPhase

/-- The logins for one email, however it is typed. -/
def SameEmail (site : LoginSite σ) (emails : ι → Text) (email : Text) (i : ι) : Prop :=
  normalizeEmail site.lower (emails i) = normalizeEmail site.lower email

namespace LoginState

/-- At most `amount` checks that fail for the email start and complete within
one window. -/
def FailuresCapped (site : LoginSite σ) (emails : ι → Text) (email : Text) (item : RateLimitItem)
    (s : LoginState ι σ) : Prop :=
  ∀ t, ∀ logins : Finset ι,
    (∀ i ∈ logins, SameEmail site emails email i ∧ (s.phase i).FailsWithin t item.expiry) →
      logins.card ≤ item.amount

/-- The recorded failures and the checks in progress are fewer than the limit. -/
def Uncrowded (site : LoginSite σ) (emails : ι → Text) (email : Text) (item : RateLimitItem)
    (s : LoginState ι σ) : Prop :=
  ∀ logins : Finset ι,
    (∀ i ∈ logins, SameEmail site emails email i ∧ (s.phase i).MayRecord item) →
      site.window.recorded s.storage item (site.loginEmailIdentifiers email) s.now + logins.card
        < item.amount

/-- Wherever the move starts a check for the email, the limit is not reached by
recorded failures and checks in progress. -/
def StartsUncrowded (site : LoginSite σ) (emails : ι → Text) (email : Text)
    (item : RateLimitItem) (s : LoginState ι σ) : LoginMove ι → Prop
  | .tick _ => True
  | .step i _ =>
      s.phase i = .testing [] → SameEmail site emails email i →
        s.Uncrowded site emails email item

/-- Every check of the run starts uncrowded. -/
def RunUncrowded [DecidableEq ι] (site : LoginSite σ) (emails : ι → Text) (email : Text)
    (item : RateLimitItem) (s : LoginState ι σ) : List (LoginMove ι) → Prop
  | [] => True
  | m :: ms =>
      s.StartsUncrowded site emails email item m ∧
        (s.next site emails m).RunUncrowded site emails email item ms

section Enter

variable [DecidableEq ι] {s : LoginState ι σ} {i j : ι} {phase : LoginPhase}

theorem enter_phase_self : (s.enter i phase).phase i = phase := Function.update_self i _ _

theorem enter_phase_of_ne (hj : j ≠ i) : (s.enter i phase).phase j = s.phase j :=
  Function.update_of_ne hj _ _

/-- What holds of a phase held of it before, if it did where a phase is entered. -/
theorem of_enter {P : LoginPhase → Prop} (hi : P phase → P (s.phase i))
    (h : P ((s.enter i phase).phase j)) : P (s.phase j) := by
  rcases eq_or_ne j i with rfl | hji
  · rw [enter_phase_self] at h
    exact hi h
  · rwa [enter_phase_of_ne hji] at h

end Enter

end LoginState

/-! ### The invariant -/

section Invariant

variable {site : LoginSite σ} {emails : ι → Text} {email : Text} {item : RateLimitItem} {t : ℕ}
variable {s s' : LoginState ι σ}

/-- The hits of the email and the checks started since `t`. -/
structure Counting (site : LoginSite σ) (emails : ι → Text) (email : Text) (item : RateLimitItem)
    (t : ℕ) (s : LoginState ι σ) : Prop where
  recorded : ∀ logins : Finset ι, (∀ i ∈ logins, SameEmail site emails email i ∧
    (s.phase i).Since t ∧ ¬ (s.phase i).MayRecord item) →
      logins.card ≤ site.window.recent s.storage item (site.loginEmailIdentifiers email) t
  room : ∀ logins : Finset ι, logins.Nonempty → (∀ i ∈ logins, SameEmail site emails email i ∧
    (s.phase i).Since t) →
      logins.card + site.window.recorded s.storage item (site.loginEmailIdentifiers email) s.now ≤
        item.amount + site.window.recent s.storage item (site.loginEmailIdentifiers email) t

/-- Checks start in the past, the hits are counted for the window that starts at
`t` until it is over, and the cap holds in it. -/
structure LoginGood (site : LoginSite σ) (emails : ι → Text) (email : Text) (item : RateLimitItem)
    (t : ℕ) (s : LoginState ι σ) : Prop where
  started : ∀ i, ∀ start ∈ (s.phase i).start?, start ≤ s.now
  counting : s.now ≤ t + item.expiry → Counting site emails email item t s
  capped : ∀ logins : Finset ι,
    (∀ i ∈ logins, SameEmail site emails email i ∧ (s.phase i).FailsWithin t item.expiry) →
      logins.card ≤ item.amount

/-- Within the window the count implies the cap. -/
theorem Counting.capped (h : Counting site emails email item t s)
    (hnow : s.now ≤ t + item.expiry) (logins : Finset ι)
    (hlogins : ∀ i ∈ logins, SameEmail site emails email i ∧
      (s.phase i).FailsWithin t item.expiry) : logins.card ≤ item.amount := by
  rcases logins.eq_empty_or_nonempty with rfl | hne
  · exact Nat.zero_le _
  · have hroom := h.room logins hne fun i hi => ⟨(hlogins i hi).1, (hlogins i hi).2.since⟩
    -- the hits since `t` are among those of the window that ends now
    have hrecent : site.window.recent s.storage item (site.loginEmailIdentifiers email) t ≤
        site.window.recorded s.storage item (site.loginEmailIdentifiers email) s.now :=
      site.window.recent_anti _ _ _ (by omega)
    omega

/-- A move that neither starts a check nor touches the counter. -/
theorem Counting.frame (h : Counting site emails email item t s)
    (hsince : ∀ i, (s'.phase i).Since t → (s.phase i).Since t)
    (hmay : ∀ i, SameEmail site emails email i → (s'.phase i).Since t →
      (s.phase i).MayRecord item → (s'.phase i).MayRecord item)
    (hrecent : site.window.recent s.storage item (site.loginEmailIdentifiers email) t ≤
      site.window.recent s'.storage item (site.loginEmailIdentifiers email) t)
    (hrecorded : site.window.recorded s'.storage item (site.loginEmailIdentifiers email) s'.now ≤
      site.window.recorded s.storage item (site.loginEmailIdentifiers email) s.now) :
    Counting site emails email item t s' where
  recorded logins hlogins := by
    refine le_trans (h.recorded logins fun i hi => ?_) hrecent
    obtain ⟨hsame, hsi, hm⟩ := hlogins i hi
    exact ⟨hsame, hsince i hsi, fun hmi => hm (hmay i hsame hsi hmi)⟩
  room logins hne hlogins := by
    have hroom := h.room logins hne fun i hi => ⟨(hlogins i hi).1, hsince i (hlogins i hi).2⟩
    omega

variable [DecidableEq ι]

/-- A check that starts uncrowded. -/
theorem Counting.start (h : Counting site emails email item t s) {i : ι}
    (hidle : ¬ (s.phase i).Since t)
    (hcrowd : SameEmail site emails email i → s.Uncrowded site emails email item) :
    Counting site emails email item t (s.enter i (.checking s.now)) := by
  refine ⟨fun logins hlogins => ?_, fun logins hne hlogins => ?_⟩
  · refine h.recorded logins fun j hj => ?_
    have hji : j ≠ i := by
      rintro rfl
      have hmay := (hlogins j hj).2.2
      rw [LoginState.enter_phase_self] at hmay
      exact hmay trivial
    have hj' := hlogins j hj
    rwa [LoginState.enter_phase_of_ne hji] at hj'
  · have hrest : ∀ j ∈ logins.erase i, SameEmail site emails email j ∧ (s.phase j).Since t := by
      intro j hj
      have hj' := hlogins j (Finset.mem_of_mem_erase hj)
      rwa [LoginState.enter_phase_of_ne (Finset.ne_of_mem_erase hj)] at hj'
    by_cases hi : i ∈ logins
    · -- the others are recorded, or still in progress
      have hprogress := hcrowd (hlogins i hi).1
        ((logins.erase i).filter fun j => (s.phase j).MayRecord item) fun j hj =>
          ⟨(hrest j (Finset.mem_filter.mp hj).1).1, (Finset.mem_filter.mp hj).2⟩
      have hrecorded := h.recorded
        ((logins.erase i).filter fun j => ¬ (s.phase j).MayRecord item) fun j hj =>
          ⟨(hrest j (Finset.mem_filter.mp hj).1).1, (hrest j (Finset.mem_filter.mp hj).1).2,
            (Finset.mem_filter.mp hj).2⟩
      have hsplit := Finset.card_filter_add_card_filter_not (s := logins.erase i)
        fun j => (s.phase j).MayRecord item
      have hcard := Finset.card_erase_add_one hi
      show logins.card + site.window.recorded s.storage item _ s.now ≤ _
      change _ ≤ item.amount + site.window.recent s.storage item _ t
      omega
    · rw [Finset.erase_eq_of_notMem hi] at hrest
      exact h.room logins hne hrest

section Hit

variable {i : ι} {start finish : ℕ} {head : RateLimitItem} {todo : List RateLimitItem}

/-- A hit does not start a check. -/
theorem since_of_hit (hphase : s.phase i = .recording start finish (head :: todo)) {j : ι}
    (h : (((s.hit site (emails i) head).enter i (.recording start finish todo)).phase j).Since t) :
    (s.phase j).Since t := by
  refine LoginState.of_enter (P := fun phase => phase.Since t) (fun hi => ?_) h
  show (s.phase i).Since t
  rwa [hphase]

/-- A hit of another counter. -/
theorem Counting.hit_other (h : Counting site emails email item t s)
    (hphase : s.phase i = .recording start finish (head :: todo))
    (hkey : (item, site.loginEmailIdentifiers email) ≠
      (head, site.loginEmailIdentifiers (emails i))) :
    Counting site emails email item t
      ((s.hit site (emails i) head).enter i (.recording start finish todo)) := by
  have hsame := fun since =>
    site.window.recent_hit_of_ne s.storage head _ s.now item _ since hkey
  refine h.frame (fun j => since_of_hit hphase) (fun j hj _ hm => ?_) (hsame t).ge (hsame _).le
  rcases eq_or_ne j i with rfl | hji
  · have hids : site.loginEmailIdentifiers email = site.loginEmailIdentifiers (emails j) := by
      rw [LoginSite.loginEmailIdentifiers, LoginSite.loginEmailIdentifiers, hj]
    rw [LoginState.enter_phase_self]
    rw [hphase] at hm
    rcases List.mem_cons.mp hm with rfl | hmem
    · exact (hkey (Prod.ext rfl hids)).elim
    · exact hmem
  · rwa [LoginState.enter_phase_of_ne hji]

/-- A hit that is remembered is in the window too. -/
theorem Counting.hit_room (h : Counting site emails email item t s)
    (hnow : s.now ≤ t + item.expiry) (hstarted : ∀ j, (s.phase j).Since t → t ≤ s.now)
    (hphase : s.phase i = .recording start finish (item :: todo))
    (hids : site.loginEmailIdentifiers email = site.loginEmailIdentifiers (emails i))
    (hfree : site.window.recorded s.storage item (site.loginEmailIdentifiers email) s.now <
      item.amount) :
    Counting site emails email item t
      ((s.hit site (emails i) item).enter i (.recording start finish todo)) := by
  set s' := (s.hit site (emails i) item).enter i (.recording start finish todo) with hs'
  have hstorage : s'.storage =
      site.window.hit s.storage item (site.loginEmailIdentifiers email) s.now := by
    rw [hids]
    rfl
  have hadded : t ≤ s.now → site.window.recent s'.storage item
      (site.loginEmailIdentifiers email) t = site.window.recent s.storage item
        (site.loginEmailIdentifiers email) t + 1 := by
    intro ht
    rw [hstorage]
    exact MovingWindow.recent_hit_room hfree (by omega) ht
  have hmore : site.window.recorded s'.storage item (site.loginEmailIdentifiers email) s'.now
      ≤ site.window.recorded s.storage item (site.loginEmailIdentifiers email) s.now + 1 := by
    rw [hstorage]
    exact MovingWindow.recorded_hit_le s.now
  refine ⟨fun logins hlogins => ?_, fun logins hne hlogins => ?_⟩
  · rcases logins.eq_empty_or_nonempty with rfl | ⟨j, hj⟩
    · exact Nat.zero_le _
    · -- all but the login that hits were recorded before
      have hle : (logins.erase i).card ≤ _ := h.recorded _ fun j hj => by
        have hj' := hlogins j (Finset.mem_of_mem_erase hj)
        rwa [hs', LoginState.enter_phase_of_ne (Finset.ne_of_mem_erase hj)] at hj'
      have hcard := Finset.pred_card_le_card_erase (s := logins) (a := i)
      rw [hadded (hstarted j (since_of_hit hphase (hlogins j hj).2.1))]
      omega
  · have hle := h.room logins hne fun j hj =>
      ⟨(hlogins j hj).1, since_of_hit hphase (hlogins j hj).2⟩
    obtain ⟨j, hj⟩ := hne
    rw [hadded (hstarted j (since_of_hit hphase (hlogins j hj).2))]
    omega

/-- A hit that is lost: the older hits fill the window. -/
theorem Counting.hit_full (h : Counting site emails email item t s)
    (hnow : s.now ≤ t + item.expiry)
    (hphase : s.phase i = .recording start finish (item :: todo))
    (hids : site.loginEmailIdentifiers email = site.loginEmailIdentifiers (emails i))
    (hfull : item.amount ≤
      site.window.recorded s.storage item (site.loginEmailIdentifiers email) s.now) :
    Counting site emails email item t
      ((s.hit site (emails i) item).enter i (.recording start finish todo)) := by
  set s' := (s.hit site (emails i) item).enter i (.recording start finish todo)
  have hstorage : s'.storage =
      site.window.hit s.storage item (site.loginEmailIdentifiers email) s.now := by
    rw [hids]
    rfl
  have hsame : site.window.recent s'.storage item (site.loginEmailIdentifiers email) t =
      site.window.recent s.storage item (site.loginEmailIdentifiers email) t := by
    rw [hstorage]
    exact MovingWindow.recent_hit_full hfull (by omega)
  have hnone : site.window.recorded s'.storage item (site.loginEmailIdentifiers email) s'.now
      = site.window.recorded s.storage item (site.loginEmailIdentifiers email) s.now := by
    rw [hstorage]
    exact MovingWindow.recent_hit_full hfull le_rfl
  have hroom : ∀ logins : Finset ι, logins.Nonempty → (∀ j ∈ logins,
      SameEmail site emails email j ∧ (s'.phase j).Since t) → _ :=
    fun logins hne hlogins => h.room logins hne fun j hj =>
      ⟨(hlogins j hj).1, since_of_hit hphase (hlogins j hj).2⟩
  refine ⟨fun logins hlogins => ?_, fun logins hne hlogins => ?_⟩
  · rcases logins.eq_empty_or_nonempty with rfl | hne
    · exact Nat.zero_le _
    · have hle := hroom logins hne fun j hj => ⟨(hlogins j hj).1, (hlogins j hj).2.1⟩
      rw [hsame]
      omega
  · rw [hsame, hnone]
    exact hroom logins hne hlogins

/-- A hit against the limit, by a login for this email or for another one. -/
theorem Counting.hit (h : Counting site emails email item t s)
    (hnow : s.now ≤ t + item.expiry) (hstarted : ∀ j, (s.phase j).Since t → t ≤ s.now)
    (hphase : s.phase i = .recording start finish (head :: todo)) :
    Counting site emails email item t
      ((s.hit site (emails i) head).enter i (.recording start finish todo)) := by
  by_cases hkey : (item, site.loginEmailIdentifiers email) =
      (head, site.loginEmailIdentifiers (emails i))
  · obtain ⟨rfl, hids⟩ := Prod.mk.inj hkey
    rcases lt_or_ge (site.window.recorded s.storage item (site.loginEmailIdentifiers email) s.now)
      item.amount with hfree | hfull
    · exact h.hit_room hnow hstarted hphase hids hfree
    · exact h.hit_full hnow hphase hids hfull
  · exact h.hit_other hphase hkey

end Hit

/-! ### One move -/

/-- What a move can do. -/
inductive LoginStep (site : LoginSite σ) (emails : ι → Text) (s : LoginState ι σ) :
    LoginMove ι → LoginState ι σ → Prop
  | waits (m : LoginMove ι) (d : ℕ) : LoginStep site emails s m { s with now := s.now + d }
  | starts {i : ι} {outcome : CheckOutcome} (hphase : s.phase i = .testing []) :
      LoginStep site emails s (.step i outcome) (s.enter i (.checking s.now))
  | fails {m : LoginMove ι} {i : ι} {start : ℕ} (hphase : s.phase i = .checking start) :
      LoginStep site emails s m (s.enter i (.recording start s.now site.items))
  | hits {m : LoginMove ι} {i : ι} {start finish : ℕ} {head : RateLimitItem}
      {todo : List RateLimitItem} (hphase : s.phase i = .recording start finish (head :: todo)) :
      LoginStep site emails s m
        ((s.hit site (emails i) head).enter i (.recording start finish todo))
  | refuses {m : LoginMove ι} {i : ι} {start finish : ℕ}
      (hphase : s.phase i = .recording start finish []) :
      LoginStep site emails s m (s.enter i (.refused start finish))
  | quiet (m : LoginMove ι) (i : ι) {phase : LoginPhase} (hnone : phase.start? = none) :
      LoginStep site emails s m (s.enter i phase)

theorem loginStep_next (m : LoginMove ι) :
    LoginStep site emails s m (s.next site emails m) := by
  cases m with
  | tick d => exact .waits _ d
  | step i outcome =>
    rw [LoginState.next]
    split
    · exact .quiet _ i rfl
    · split
      · exact .quiet _ i rfl
      · exact .quiet _ i rfl
    · rename_i hphase
      exact .starts hphase
    · rename_i start hphase
      cases outcome with
      | authenticated => exact .quiet _ i rfl
      | invalidCredentials => exact .fails hphase
      | raised => exact .quiet _ i rfl
    · rename_i hphase
      exact .hits hphase
    · rename_i hphase
      exact .refuses hphase
    all_goals exact .waits _ 0

omit [DecidableEq ι] in
/-- A window that is over gets no new failures. -/
theorem LoginGood.of_counting (h : LoginGood site emails email item t s)
    (hstarted : ∀ i, ∀ start ∈ (s'.phase i).start?, start ≤ s'.now)
    (hcounting : s'.now ≤ t + item.expiry → Counting site emails email item t s')
    (hfails : t + item.expiry < s'.now → ∀ i, (s'.phase i).FailsWithin t item.expiry →
      (s.phase i).FailsWithin t item.expiry) : LoginGood site emails email item t s' where
  started := hstarted
  counting := hcounting
  capped logins hlogins := by
    rcases le_or_gt s'.now (t + item.expiry) with hnow | hover
    · exact (hcounting hnow).capped hnow logins hlogins
    · exact h.capped logins fun i hi =>
        ⟨(hlogins i hi).1, hfails hover i (hlogins i hi).2⟩

/-- A login enters a phase of which the check, if any, started when it did
before; the counters are left alone. -/
theorem LoginGood.enter (h : LoginGood site emails email item t s) {i : ι} {phase : LoginPhase}
    (hstart : ∀ start ∈ phase.start?, start ∈ (s.phase i).start?)
    (hmay : phase.start? ≠ none → (s.phase i).MayRecord item → phase.MayRecord item)
    (hfails : t + item.expiry < s.now → phase.FailsWithin t item.expiry →
      (s.phase i).FailsWithin t item.expiry) :
    LoginGood site emails email item t (s.enter i phase) := by
  refine h.of_counting (fun j start hj => ?_) (fun hnow => ?_) fun hover j => ?_
  · exact h.started j start
      (LoginState.of_enter (P := fun phase => start ∈ phase.start?) (hstart start) hj)
  · refine (h.counting hnow).frame (fun j => ?_) (fun j _ hj hm => ?_) le_rfl le_rfl
    · apply LoginState.of_enter (P := fun phase => phase.Since t)
      rintro ⟨start, hmem, ht⟩
      exact ⟨start, hstart start hmem, ht⟩
    · rcases eq_or_ne j i with rfl | hji
      · rw [LoginState.enter_phase_self] at hj ⊢
        obtain ⟨start, hmem, -⟩ := hj
        exact hmay (by rw [Option.mem_def.mp hmem]; simp) hm
      · rwa [LoginState.enter_phase_of_ne hji]
  · exact LoginState.of_enter (P := fun phase => phase.FailsWithin t item.expiry) (hfails hover)

/-- **Every move keeps the count**, if checks start uncrowded. -/
theorem LoginGood.step (h : LoginGood site emails email item t s) (hitem : item ∈ site.items)
    {m : LoginMove ι} (hstep : LoginStep site emails s m s')
    (hm : s.StartsUncrowded site emails email item m) :
    LoginGood site emails email item t s' := by
  cases hstep with
  | waits m d =>
    refine h.of_counting (fun i start hi => (h.started i start hi).trans (Nat.le_add_right _ _))
      (fun hnow => ?_) fun _ _ hi => hi
    exact (h.counting (le_trans (Nat.le_add_right _ _) hnow)).frame (fun _ hi => hi)
      (fun _ _ _ hmi => hmi) le_rfl (MovingWindow.recorded_anti (Nat.le_add_right _ _))
  | @starts i outcome hphase =>
    have hidle : ¬ (s.phase i).Since t := by
      rw [hphase]
      rintro ⟨start, hstart, -⟩
      cases hstart
    refine h.of_counting (fun j start hj => ?_) (fun hnow => (h.counting hnow).start hidle
      (hm hphase)) fun _ j => ?_
    · rcases eq_or_ne j i with rfl | hji
      · rw [LoginState.enter_phase_self] at hj
        cases hj
        exact le_rfl
      · rw [LoginState.enter_phase_of_ne hji] at hj
        exact h.started j start hj
    · apply LoginState.of_enter (P := fun phase => phase.FailsWithin t item.expiry)
      rintro ⟨e, he, -⟩
      cases he
  | @fails m i start hphase =>
    -- the check completes now, so no window that is over sees it
    refine h.enter (fun start' hstart' => ?_) (fun _ _ => hitem) fun hover hf => ?_
    · rw [hphase]
      exact hstart'
    · obtain ⟨e, he, -, hend⟩ := hf
      cases he
      exact absurd hend (not_le.mpr hover)
  | @hits m i start finish head todo hphase =>
    refine h.of_counting (fun j start' hj => h.started j start' ?_) (fun hnow =>
      (h.counting hnow).hit hnow (fun j hj => ?_) hphase) fun _ j => ?_
    · refine LoginState.of_enter (P := fun phase => start' ∈ phase.start?) (fun hi => ?_) hj
      show start' ∈ (s.phase i).start?
      rwa [hphase]
    · obtain ⟨start', hstart', ht⟩ := hj
      exact ht.trans (h.started j start' hstart')
    · apply LoginState.of_enter (P := fun phase => phase.FailsWithin t item.expiry)
      show _ → (s.phase i).FailsWithin t item.expiry
      rw [hphase]
      exact id
  | @refuses m i start finish hphase =>
    refine h.enter (fun start' hstart' => ?_) (fun _ hmay => ?_) fun _ hf => ?_
    · rw [hphase]
      exact hstart'
    · rw [hphase] at hmay
      exact absurd hmay List.not_mem_nil
    · rw [hphase]
      exact hf
  | @quiet m i phase hnone =>
    refine h.enter (fun start' hstart' => ?_) (fun hsome => absurd hnone hsome) fun _ hf => ?_
    · rw [hnone] at hstart'
      cases hstart'
    · obtain ⟨start', hstart', -⟩ := hf.since
      rw [hnone] at hstart'
      cases hstart'

theorem LoginGood.run (hitem : item ∈ site.items) (h : LoginGood site emails email item t s)
    (ms : List (LoginMove ι)) (hms : s.RunUncrowded site emails email item ms) :
    LoginGood site emails email item t (s.run site emails ms) := by
  induction ms generalizing s with
  | nil => exact h
  | cons m ms ih => exact ih (h.step hitem (loginStep_next m) hms.1) hms.2

omit [DecidableEq ι] in
theorem loginGood_initial (now : ℕ) (storage : σ) :
    LoginGood site emails email item t (LoginState.initial now storage : LoginState ι σ) := by
  have never : ∀ i, ¬ ((LoginState.initial now storage : LoginState ι σ).phase i).Since t := by
    rintro i ⟨start, hstart, -⟩
    cases hstart
  have empty : ∀ logins : Finset ι, (∀ i ∈ logins,
      ((LoginState.initial now storage : LoginState ι σ).phase i).Since t) → logins = ∅ :=
    fun logins hlogins => Finset.eq_empty_of_forall_notMem fun i hi => never i (hlogins i hi)
  refine ⟨fun i start hstart => ?_, fun _ => ⟨fun logins hlogins => ?_,
    fun logins hne hlogins => ?_⟩, fun logins hlogins => ?_⟩
  · cases hstart
  · rw [empty logins fun i hi => (hlogins i hi).2.1]
    exact Nat.zero_le _
  · exact absurd (empty logins fun i hi => (hlogins i hi).2) hne.ne_empty
  · rw [empty logins fun i hi => (hlogins i hi).2.since]
    exact Nat.zero_le _

end Invariant

/-- **Failures are capped where checks start uncrowded.**  For every limit of
the setting, every email and every run of any logins, from any counters: if no
check for the email starts while recorded failures and checks in progress reach
the limit, then no window sees more failing checks than the limit allows. -/
theorem failures_capped {ι σ : Type} [DecidableEq ι] (site : LoginSite σ) (emails : ι → Text)
    (email : Text) (item : RateLimitItem) (hitem : item ∈ site.items) (now : ℕ) (storage : σ)
    (ms : List (LoginMove ι))
    (hrun : (LoginState.initial now storage).RunUncrowded site emails email item ms) :
    ((LoginState.initial now storage).run site emails ms).FailuresCapped site emails email item :=
  fun _ => ((loginGood_initial now storage).run hitem ms hrun).capped

/-! ### A login that nobody overlaps -/

section Alone

variable [DecidableEq ι] {site : LoginSite σ} {emails : ι → Text} {email : Text}
variable {item : RateLimitItem} {s : LoginState ι σ} {i : ι}

/-- The limits have been tested. -/
def LoginPhase.Tested : LoginPhase → Prop
  | .idle | .testing _ => False
  | _ => True

/-- A login is not tested again. -/
theorem tested_run (h : (s.phase i).Tested) (outcomes : List CheckOutcome) :
    ((s.run site emails (outcomes.map (.step i))).phase i).Tested := by
  induction outcomes generalizing s with
  | nil => exact h
  | cons outcome outcomes ih =>
    refine ih ?_
    rw [LoginState.next]
    split
    · rename_i hphase
      rw [hphase] at h
      cases h
    · rename_i hphase
      rw [hphase] at h
      cases h
    · rename_i hphase
      rw [hphase] at h
      cases h
    · rw [LoginState.enter_phase_self]
      cases outcome <;> trivial
    · rw [LoginState.enter_phase_self]
      trivial
    · rw [LoginState.enter_phase_self]
      trivial
    all_goals exact h

/-- Moving alone to the end of its tests, a login leaves the rest of the state as it was and has
found room under each limit that it still had to test. -/
theorem tests_alone {s' : LoginState ι σ} (outcomes : List CheckOutcome)
    {todo : List RateLimitItem} (hphase : s.phase i = .testing todo)
    (hroom : item ∈ todo ∨
      site.window.recorded s.storage item (site.loginEmailIdentifiers (emails i)) s.now
        < item.amount)
    (hrun : s.run site emails (outcomes.map (.step i)) = s') (hend : s'.phase i = .testing []) :
    (∀ j ≠ i, s'.phase j = s.phase j) ∧
      site.window.recorded s'.storage item (site.loginEmailIdentifiers (emails i)) s'.now
        < item.amount := by
  induction outcomes generalizing s todo with
  | nil =>
    obtain rfl : s = s' := hrun
    obtain rfl := LoginPhase.testing.inj (hphase.symm.trans hend)
    exact ⟨fun _ _ => rfl, hroom.resolve_left List.not_mem_nil⟩
  | cons outcome outcomes ih =>
    change (s.next site emails (.step i outcome)).run site emails (outcomes.map (.step i)) = s'
      at hrun
    -- a login that is through with its tests does not come back to them
    have hpassed : ∀ phase : LoginPhase, phase.Tested →
        s.next site emails (.step i outcome) ≠ s.enter i phase := by
      intro phase htested hnext
      have hlater : (((s.enter i phase).run site emails (outcomes.map (.step i))).phase i).Tested :=
        tested_run (by rwa [LoginState.enter_phase_self]) outcomes
      rw [← hnext, hrun, hend] at hlater
      exact hlater
    rcases todo with - | ⟨first, todo⟩
    · exact absurd (by rw [LoginState.next, hphase]) (hpassed (.checking s.now) trivial)
    by_cases htest : site.window.test s.storage first
        (site.loginEmailIdentifiers (emails i)) s.now = true
    · have hnext : s.next site emails (.step i outcome) = s.enter i (.testing todo) := by
        rw [LoginState.next, hphase]
        exact if_pos htest
      have hrest : item ∈ todo ∨ site.window.recorded s.storage item
          (site.loginEmailIdentifiers (emails i)) s.now < item.amount := by
        rcases hroom with hmem | hroom
        · rcases List.mem_cons.mp hmem with rfl | hmem
          · exact .inr ((site.window.test_iff _ _ _ _).mp htest)
          · exact .inl hmem
        · exact .inr hroom
      rw [hnext] at hrun
      obtain ⟨hothers, hlast⟩ := ih LoginState.enter_phase_self hrest hrun
      exact ⟨fun j hj => (hothers j hj).trans (LoginState.enter_phase_of_ne hj), hlast⟩
    · refine absurd ?_ (hpassed (.rateLimited (loginRetryAfter s.now (site.window.resetTime
        s.storage first (site.loginEmailIdentifiers (emails i)) s.now))) trivial)
      rw [LoginState.next, hphase]
      exact if_neg htest

/-- **Nobody in between, nobody crowded.**  A login that is tested while no check for the email is
in progress, and moves alone until it starts its own, starts that uncrowded. -/
theorem uncrowded_alone (hitem : item ∈ site.items) (hsame : SameEmail site emails email i)
    (hphase : s.phase i = .testing site.items)
    (hnone : ∀ j, SameEmail site emails email j → ¬ (s.phase j).MayRecord item)
    (outcomes : List CheckOutcome)
    (hend : (s.run site emails (outcomes.map (.step i))).phase i = .testing []) :
    (s.run site emails (outcomes.map (.step i))).Uncrowded site emails email item := by
  obtain ⟨hothers, hroom⟩ := tests_alone outcomes hphase (.inl hitem) rfl hend
  have hids : site.loginEmailIdentifiers email = site.loginEmailIdentifiers (emails i) := by
    rw [LoginSite.loginEmailIdentifiers, LoginSite.loginEmailIdentifiers, hsame]
  intro logins hlogins
  have hempty : logins = ∅ := by
    refine Finset.eq_empty_of_forall_notMem fun j hj => ?_
    obtain ⟨hj', hmay⟩ := hlogins j hj
    rcases eq_or_ne j i with rfl | hne
    · rw [hend] at hmay
      exact hmay
    · rw [hothers j hne] at hmay
      exact hnone j hj' hmay
  rw [hempty, Finset.card_empty, hids]
  exact hroom

end Alone

/-! ### Two logins -/

instance (site : LoginSite σ) (emails : ι → Text) (email : Text) :
    DecidablePred (SameEmail site emails email) :=
  fun _ => inferInstanceAs (Decidable (_ = _))

instance [Fintype ι] [DecidableEq ι] (site : LoginSite σ) (emails : ι → Text) (email : Text)
    (item : RateLimitItem) (s : LoginState ι σ) : Decidable (s.Uncrowded site emails email item) :=
  inferInstanceAs (Decidable (∀ logins : Finset ι, (∀ i ∈ logins,
    SameEmail site emails email i ∧ (s.phase i).MayRecord item) → _ < _))

instance decidableStartsUncrowded [Fintype ι] [DecidableEq ι] (site : LoginSite σ)
    (emails : ι → Text) (email : Text) (item : RateLimitItem) (s : LoginState ι σ) :
    DecidablePred (s.StartsUncrowded site emails email item)
  | .tick _ => inferInstanceAs (Decidable True)
  | .step _ _ => inferInstanceAs (Decidable (_ = _ → _ → _))

instance decidableRunUncrowded [Fintype ι] [DecidableEq ι] (site : LoginSite σ)
    (emails : ι → Text) (email : Text) (item : RateLimitItem) (s : LoginState ι σ) :
    (ms : List (LoginMove ι)) → Decidable (s.RunUncrowded site emails email item ms)
  | [] => inferInstanceAs (Decidable True)
  | m :: ms =>
      have := decidableRunUncrowded site emails email item (s.next site emails m) ms
      inferInstanceAs (Decidable (_ ∧ _))

/-- One failure an hour. -/
def hourly : RateLimitItem := ⟨1, 1, 3600⟩

/-- One email, and its digest. -/
def oneEmail : LoginSite (HitLog LoginKey) where
  window := .log
  enabled := true
  rateLimitLoginEmailFailures := some [hourly]
  lower := List.map Char.toLower
  sha256 _ := "09a4a01508501d5483ba89a6c03b024a03a22c656eda55a69be359ed941a6dd2".toList

/-- The email as two people type it. -/
def typed : Bool → Text
  | false => "an@shop.vn".toList
  | true => " An@Shop.vn".toList

/-- The next part of a login with a wrong password. -/
def wrong (i : Bool) : LoginMove Bool := .step i .invalidCredentials

/-- One after the other: the second login is turned away. -/
theorem failures_capped_in_turn :
    ((LoginState.initial 0 []).run oneEmail typed
      (List.replicate 6 (wrong false) ++ List.replicate 2 (wrong true))).FailuresCapped oneEmail
        typed (typed false) hourly :=
  failures_capped oneEmail typed (typed false) hourly (by decide) 0 [] _ (by decide +kernel)

/-- Both are tested before either is recorded, and both passwords are checked. -/
theorem both_checked :
    ¬ ∀ (site : LoginSite (HitLog LoginKey)) (emails : Bool → Text) (email : Text),
      ∀ item ∈ site.items, ∀ (now : ℕ) (storage : HitLog LoginKey) (ms : List (LoginMove Bool)),
        ((LoginState.initial now storage).run site emails ms).FailuresCapped site emails email
          item := by
  intro h
  have hcap := h oneEmail typed (typed false) hourly (by decide) 0 []
    (List.replicate 3 (wrong false) ++ List.replicate 6 (wrong true) ++
      List.replicate 3 (wrong false)) 0 Finset.univ
  have hfails : ∀ i, SameEmail oneEmail typed (typed false) i ∧
      ∃ e ∈ (((LoginState.initial 0 []).run oneEmail typed
        (List.replicate 3 (wrong false) ++ List.replicate 6 (wrong true) ++
          List.replicate 3 (wrong false))).phase i).failure?,
        0 ≤ e.1 ∧ e.2 ≤ 0 + hourly.expiry := by decide +kernel
  exact absurd (hcap fun i _ => hfails i) (by decide)

end GreenGarden
