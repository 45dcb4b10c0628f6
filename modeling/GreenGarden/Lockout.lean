/-
GreenGarden/Lockout.lean

Can the admin panel be locked out?

A request keeps every active admin active, except the one it is asked to
deactivate, who is never its caller (`AdminCall.triple`).  So a commit keeps
the panel open wherever the caller is still active by then: `stays_open` is
the invariant over whole runs.  The caller was active at the authentication,
but nothing holds that until the commit: two admins who deactivate one another
at the same time leave nobody (`mutual_deactivation`).  Where nobody else
commits in between, the caller is still active (`callerActive_alone`).
-/
import GreenGarden.Admins
import GreenGarden.Observing

namespace GreenGarden

open Transaction

/-- An admin who may use the panel. -/
def IsActiveAdmin (db : AdminDb) (id : UUID) : Prop :=
  ∃ admin ∈ db.admins.get id, admin.isActive = true

/-- Somebody may use the panel. -/
def AdminDb.Open (db : AdminDb) : Prop := ∃ id, IsActiveAdmin db id

/-- The admin whom a request is asked to deactivate. -/
def AdminRequest.deactivates : AdminRequest → Option UUID
  | .patchAdmin id payload => if payload.isActive = some false then some id else none
  | .patchAdminStatus id isActive => if isActive = false then some id else none
  | .createAdmin .. | .patchAdminPassword .. => none

/-- A call that deactivates somebody has a caller who is active. -/
def CallerActive (db : AdminDb) (call : AdminCall) : Prop :=
  call.request.deactivates ≠ none → IsActiveAdmin db call.caller

/-- Who is active stays active, except the one whom the call deactivates. -/
def KeepsActive (call : AdminCall) (d d' : AdminDb) : Prop :=
  ∀ id, IsActiveAdmin d id →
    IsActiveAdmin d' id ∨ call.request.deactivates = some id ∧ id ≠ call.caller

theorem KeepsActive.refl (call : AdminCall) (d : AdminDb) : KeepsActive call d d :=
  fun _ h => .inl h

/-- A caller is not the one who is deactivated. -/
theorem KeepsActive.opens {call : AdminCall} {d d' : AdminDb} (h : KeepsActive call d d')
    (hcaller : CallerActive d call) (hopen : d.Open) : d'.Open := by
  obtain ⟨id, hid⟩ := hopen
  rcases h id hid with hkept | ⟨hdeactivates, -⟩
  · exact ⟨id, hkept⟩
  · have hactive : IsActiveAdmin d call.caller := hcaller (by simp [hdeactivates])
    rcases h call.caller hactive with hkept | ⟨-, hne⟩
    · exact ⟨call.caller, hkept⟩
    · exact absurd rfl hne

/-! ### What each request writes -/

/-- A new row. -/
theorem keepsActive_insert (call : AdminCall) (d : AdminDb) (id : UUID) (admin : Admin) :
    KeepsActive call d { d with admins := d.admins.insert id admin } := by
  rintro id' ⟨row, hrow, hactive⟩
  exact .inl ⟨row, Table.get_insert_of_get hrow, hactive⟩

/-- An edit of a row, which switches it off only if that is asked for. -/
theorem keepsActive_update {call : AdminCall} (d : AdminDb) {id : UUID} {loaded edited : Admin}
    (hedit : edited.isActive = loaded.isActive ∨ edited.isActive = true ∨
      call.request.deactivates = some id ∧ id ≠ call.caller) :
    KeepsActive call d { d with admins := d.admins.modify id (Admin.update loaded edited) } := by
  rintro id' ⟨row, hrow, hactive⟩
  rcases eq_or_ne id' id with rfl | hne
  · have hget : (d.admins.modify id' (Admin.update loaded edited)).get id' =
        some (Admin.update loaded edited row) := by
      rw [Table.get_modify_self, Option.mem_def.mp hrow, Option.map_some]
    rcases hedit with hsame | hon | hoff
    · refine .inl ⟨_, hget, ?_⟩
      show changed loaded.isActive edited.isActive row.isActive = true
      rw [changed, if_pos hsame]
      exact hactive
    · refine .inl ⟨_, hget, ?_⟩
      show changed loaded.isActive edited.isActive row.isActive = true
      rw [changed, hon]
      split
      · exact hactive
      · rfl
    · exact .inr hoff
  · exact .inl ⟨row, (Table.get_modify_of_ne d.admins hne _).trans hrow, hactive⟩

section Triples

variable {call : AdminCall} {letters : Letters} {h : Set AdminKey}
variable {b : List (AdminDb → AdminDb)} {d : AdminDb} {α : Type}

/-- Every database the staged writes may meet keeps its active admins. -/
def Harmless (call : AdminCall) (b : List (AdminDb → AdminDb)) : Prop :=
  ∀ d, KeepsActive call d (flush b d)

/-- The body ends, if at all, with writes that are harmless. -/
abbrev Meets (call : AdminCall) (t : AdminSession α) (h : Set AdminKey)
    (b : List (AdminDb → AdminDb)) (d : AdminDb) : Prop :=
  wp Rely.any (fun _ _ => True) t (fun _ _ b _ => Harmless call b) h b d

theorem harmless_nil (call : AdminCall) : Harmless call [] := fun d => .refl call d

theorem meets_pure {a : α} (hb : Harmless call b) :
    Meets call (pure a : AdminSession α) h b d := hb

/-- A new entry of the index on emails. -/
theorem meets_claimEmail {email : Text} {g : Unit → AdminSession α}
    (hg : ∀ h d, Meets call (g ()) h b d) : Meets call (claimEmail email >>= g) h b d := by
  rw [claimEmail, bind_assoc]
  refine wp_acquire fun d₁ _ => ?_
  rw [bind_assoc]
  exact wp_query fun d₂ _ => wp_failIf (fun _ => trivial) fun _ => hg _ _

theorem meets_flushAdmin {id : UUID} {loaded edited : Admin} {a : α}
    (hedit : edited.isActive = loaded.isActive ∨ edited.isActive = true ∨
      call.request.deactivates = some id ∧ id ≠ call.caller) :
    Meets call (flushAdmin id loaded edited >>= fun _ => pure a) h [] d := by
  rw [flushAdmin]
  refine wp_whenElse (fun _ => ?_) fun _ => meets_pure (harmless_nil call)
  have last : ∀ {h d}, Meets call
      ((Tx.stage fun db : AdminDb =>
        { db with admins := db.admins.modify id (Admin.update loaded edited) }) >>=
          fun _ => pure a) h [] d := by
    intro h d
    exact wp_stage (meets_pure fun d => keepsActive_update d hedit)
  rw [bind_assoc]
  refine wp_acquire fun d₁ _ => ?_
  rw [bind_assoc]
  exact wp_whenElse (fun _ => meets_claimEmail fun _ _ => last) fun _ => last

theorem meets_createAdminAccount {name email password : Text} :
    Meets call (createAdminAccount letters name email password) h [] d := by
  refine wp_ofExcept (fun _ _ => trivial) fun _ _ => wp_query fun d₁ _ => ?_
  refine wp_failIf (fun _ => trivial) fun _ => wp_outside fun v _ => wp_outside fun v' _ => ?_
  refine wp_acquire fun d₂ _ => wp_query fun d₃ _ => wp_failIf (fun _ => trivial) fun _ => ?_
  refine meets_claimEmail fun _ _ => wp_stage (meets_pure fun d => ?_)
  exact keepsActive_insert call d v'.uuid _

/-- Whatever the row was when it was loaded, it is the target's. -/
theorem meets_getAdmin {me : LoadedAdmin} {id : UUID} {g : LoadedAdmin → AdminSession α}
    (hg : ∀ row d, Meets call (g ⟨id, row⟩) h b d) :
    Meets call (getAdmin me id >>= g) h b d := by
  rw [getAdmin, bind_assoc]
  refine wp_query fun d₁ _ => ?_
  rcases (flush b d₁).admins.get id with - | row
  · trivial
  · by_cases hid : id = me.id
    · subst hid
      simp only [if_true]
      exact hg me.row d₁
    · simp only [if_neg hid]
      exact hg row d₁

theorem meets_updateAdmin {me : LoadedAdmin} {id : UUID} {patch : AdminPatch}
    (hme : me.id = call.caller)
    (hoff : patch.isActive = some false → call.request.deactivates = some id) :
    Meets call (updateAdmin letters me id patch) h [] d := by
  refine meets_getAdmin fun row d₁ => ?_
  have rest : ∀ {d}, Meets call
      (Tx.failIf (id = me.id ∧ patch.isActive = some false) AdminError.selfDeactivation >>=
        fun _ => flushAdmin id row (patch.apply letters row) >>= fun _ => pure id) h [] d := by
    intro d
    refine wp_failIf (fun _ => trivial) fun hself => meets_flushAdmin ?_
    show patch.isActive.getD row.isActive = row.isActive ∨
      patch.isActive.getD row.isActive = true ∨ _
    match hactive : patch.isActive with
    | none => exact .inl rfl
    | some true => exact .inr (.inl rfl)
    | some false => exact .inr (.inr ⟨hoff hactive, fun hid => hself ⟨hid.trans hme.symm, hactive⟩⟩)
  refine wp_whenElse (fun _ => ?_) fun _ => rest
  rw [bind_assoc, getAdminByEmail]
  exact wp_query fun d₂ _ => wp_failIf (fun _ => trivial) fun _ => rest

theorem meets_changeAdminPassword {me : LoadedAdmin} {id : UUID} {password : Text} :
    Meets call (changeAdminPassword letters me id password) h [] d := by
  refine wp_ofExcept (fun _ _ => trivial) fun _ _ => meets_getAdmin fun row d₁ => ?_
  exact wp_outside fun v _ => meets_flushAdmin (.inl rfl)

/-- **Every call is harmless**, whatever the others do meanwhile. -/
theorem AdminCall.triple (call : AdminCall) (letters : Letters) (h : Set AdminKey) (d : AdminDb) :
    Meets call (call.body letters) h [] d := by
  refine wp_bind (wp_query fun d₁ _ => ?_)
  rcases (flush [] d₁).admins.get call.caller with - | admin
  · trivial
  · dsimp only
    split
    · refine wp_pure ?_
      rcases hreq : call.request with _ | ⟨id, payload⟩ | ⟨id, isActive⟩ | _
      · exact meets_createAdminAccount
      · exact meets_updateAdmin rfl fun hoff => by rw [hreq, AdminRequest.deactivates, if_pos hoff]
      · refine meets_updateAdmin rfl fun hoff => ?_
        rw [hreq, AdminRequest.deactivates, if_pos (Option.some.inj hoff)]
      · exact meets_changeAdminPassword
    · trivial

end Triples

/-! ### Whole runs -/

/-- The panel, with nothing assumed of the order of moves. -/
def adminContract {ι : Type} [DecidableEq ι] (letters : Letters) (calls : ι → AdminCall) :
    Contract (adminPanel letters calls) where
  rely := .any
  inv _ := True
  post i _ _ b _ := Harmless (calls i) b
  error _ _ _ := True
  answers _ := trivial
  triple i d _ := wp_mono (fun _ _ _ => trivial) (fun _ _ _ _ hb _ _ => hb)
    ((calls i).triple letters _ d)
  keeps _ _ _ _ _ _ _ := trivial
  respects _ _ _ _ _ _ _ _ _ := trivial

/-- **The panel stays open where callers stay active.**  In every run of any
family of calls, from any table with an active admin: if whenever a call that
deactivates somebody commits its caller is still active, then some admin is
active in every database reached. -/
theorem stays_open {ι : Type} [DecidableEq ι] (letters : Letters) (calls : ι → AdminCall)
    (d : AdminDb) (hopen : d.Open) (ms : List (Move ι AdminOutside))
    (hactive : Contract.CommitsMeet (adminPanel letters calls)
      (fun db i _ => CallerActive db (calls i)) (initial d) ms) :
    (moves (adminPanel letters calls) (initial d) ms).db.Open :=
  (adminContract letters calls).invariant_moves
    (fun _ _ _ _ d _ hb hcaller hopen => (hb d).opens hcaller hopen)
    ((adminContract letters calls).good_initial trivial) hopen ms hactive

/-- **Nobody in between, the caller is active.**  A call from whose start to
whose commit nobody else commits has an active caller, by its own authentication. -/
theorem callerActive_alone {ι : Type} [DecidableEq ι] {letters : Letters} {calls : ι → AdminCall}
    {d : AdminDb} {ms : ℕ → Move ι AdminOutside} {m n : ℕ} {i : ι} {reply : UUID}
    {b : List (AdminDb → AdminDb)}
    (hidle : (trace (adminPanel letters calls) d ms m).status i = .idle) (hmn : m ≤ n)
    (hstill : ∀ j, m ≤ j → j ≤ n → (trace (adminPanel letters calls) d ms j).db
      = (trace (adminPanel letters calls) d ms n).db)
    (hc : Commits (trace (adminPanel letters calls) d ms n)
      (trace (adminPanel letters calls) d ms (n + 1)) i reply b) :
    CallerActive (trace (adminPanel letters calls) d ms n).db (calls i) := by
  refine observed_alone (Q := fun _ _ => CallerActive _ (calls i)) hidle hmn hstill ?_ hc
  show wp _ _ ((calls i).body letters) _ _ _ _
  rw [AdminCall.body, getCurrentAdmin, bind_assoc]
  refine wp_query fun d' hd' => ?_
  rw [flush_nil, hd' rfl]
  rcases hget : (trace (adminPanel letters calls) d ms n).db.admins.get (calls i).caller with
    - | admin
  · trivial
  · dsimp only
    split
    · rename_i hactive
      exact wp_always (fun _ _ => trivial) fun _ _ _ _ _ => ⟨admin, hget, hactive⟩
    · trivial

/-! ### Two at a time -/

/-- The ASCII letters, as they are. -/
def plainLetters : Letters := ⟨fun text => text, Char.isAlpha, Char.isDigit⟩

/-- Two active admins. -/
def twoAdmins : AdminDb where
  admins := (Table.empty.insert 1 ⟨"An".toList, "an@shop.vn".toList, [], true⟩).insert 2
    ⟨"Binh".toList, "binh@shop.vn".toList, [], true⟩

/-- Each deactivates the other one. -/
def duel : Bool → AdminCall
  | false => ⟨1, .patchAdminStatus 2 false⟩
  | true => ⟨2, .patchAdminStatus 1 false⟩

/-- The next move of a call; nothing is needed from outside. -/
def adminStep {ι : Type} (i : ι) : Move ι AdminOutside := .step i ⟨0, []⟩

instance (db : AdminDb) (id : UUID) : Decidable (IsActiveAdmin db id) :=
  inferInstanceAs (Decidable (∃ admin ∈ db.admins.get id, admin.isActive = true))

instance (db : AdminDb) (call : AdminCall) : Decidable (CallerActive db call) :=
  inferInstanceAs (Decidable (_ → _))

/-- Three active admins. -/
def threeAdmins : AdminDb where
  admins := twoAdmins.admins.insert 3 ⟨"Chi".toList, "chi@shop.vn".toList, [], true⟩

/-- The first deactivates the second, who deactivates the third. -/
def chain : Bool → AdminCall
  | false => ⟨1, .patchAdminStatus 2 false⟩
  | true => ⟨2, .patchAdminStatus 3 false⟩

/-- Both are authenticated before either of them commits, and the second admin
commits before being deactivated. -/
def lastIn : List (Move Bool AdminOutside) :=
  [.start false, .start true, adminStep false, adminStep true] ++
    List.replicate 4 (adminStep true) ++ List.replicate 4 (adminStep false)

/-- Two of them overlap, each still active at the own commit. -/
theorem stays_open_overlapping :
    (moves (adminPanel plainLetters chain) (initial threeAdmins) lastIn).db.Open :=
  stays_open plainLetters chain threeAdmins ⟨1, by decide +kernel⟩ lastIn (by decide +kernel)

/-- Both are authenticated before either of them commits. -/
def bothIn : List (Move Bool AdminOutside) :=
  [.start false, .start true, adminStep false, adminStep true] ++
    List.replicate 4 (adminStep false) ++ List.replicate 4 (adminStep true)

/-- Nobody is left. -/
theorem mutual_deactivation :
    ¬ ∀ (letters : Letters) (calls : Bool → AdminCall) (d : AdminDb), d.Open →
      ∀ ms : List (Move Bool AdminOutside),
        (moves (adminPanel letters calls) (initial d) ms).db.Open := by
  intro h
  obtain ⟨id, admin, hget, hactive⟩ :=
    h plainLetters duel twoAdmins ⟨1, by decide +kernel⟩ bothIn
  have hoff : ∀ admin ∈ (moves (adminPanel plainLetters duel) (initial twoAdmins)
      bothIn).db.admins.rows, admin.isActive = false := by
    decide +kernel
  rw [hoff admin (Table.mem_rows_of_get hget)] at hactive
  cases hactive

end GreenGarden
