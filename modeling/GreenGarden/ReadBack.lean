/-
GreenGarden/ReadBack.lean

Calls in the documented form are read back.  An invocation is matched up to its
own closing tag, or up to the end of the text where that has been cut off, and
a parameter wherever its closing tag is there, so the parser returns the calls
in their order with the parameters that are whole (`callsOf_invocations`), and
what it writes as arguments is read as those parameters (`loads_arguments`).

The one spelling it does not read is a parameter whose name is empty: the
pattern asks for a character (`empty_name_dropped`).  Main result:
`parse_reads_back`.
-/
import GreenGarden.DsmlFormat

namespace GreenGarden

open Pattern

namespace Dsml

/-! ### Parameters -/

section Parameters

variable {rest : Text}

theorem parameter_sharp : '<' ∉ "parameter".toList ∧ '>' ∉ "parameter".toList := by decide

theorem invoke_sharp : '<' ∉ "invoke".toList ∧ '>' ∉ "invoke".toList := by decide

theorem open_paramRe : paramRe.Open := by
  simp [paramRe, openingRe, closingRe, dsmlLead, bars, spaces, oneOrMore, word, attributeRe, opt,
    lazily, cat, Open]

theorem open_closingRe : (cat (closingRe "invoke".toList)).Open := by
  simp [closingRe, dsmlLead, bars, spaces, oneOrMore, word, cat, Open]

theorem paramRe_eq : paramRe = cat (openingRe "parameter".toList ++ ([attributeRe] ++ (spaces ++
    (word ['>'] ++ ([group 3 lazily] ++ closingRe "parameter".toList))))) := by
  rw [paramRe]
  simp only [List.append_assoc]

theorem invokeRe_eq : invokeRe = cat (openingRe "invoke".toList ++ (spaces ++ (word ['>'] ++
    ([group 2 lazily] ++ [alt (cat (closingRe "invoke".toList)) stop])))) := by
  rw [invokeRe]
  simp only [List.append_assoc]

/-- No opening tag begins in a closing one. -/
theorem quiet_opening_closing (closing : Closing) {tag w : Text} (hw : '<' ∉ w)
    (pieces : List (Pattern Char)) (rest : Text) :
    (cat (openingRe tag ++ pieces)).Quiet (closing.text w) rest := by
  obtain ⟨u, hu, hsharp⟩ := closing.open_eq hw
  have hfails : (cat (openingRe tag ++ pieces)).Fails (closing.text w ++ rest) := by
    rw [Closing.text, Closing.open]
    simp only [List.append_assoc, List.cons_append]
    exact opening_fails_closing _ closing.before _
  have htext : closing.text w = '<' :: (u ++ ['>']) := by rw [Closing.text, hu, List.cons_append]
  rw [htext] at hfails ⊢
  exact quiet_opening_tag hfails (by simp [hsharp])

/-- A closing tag begins and ends with a bracket. -/
theorem brackets_of_matches {tag x rest : Text} (h : (cat (closingRe tag)).Matches x rest) :
    ∃ t, x = '<' :: t ∧ '>' ∈ t := by
  rw [closingRe] at h
  obtain ⟨y, z, rfl, hy, hz⟩ := exists_of_matches_append h
  simp only [List.append_assoc] at hy
  obtain ⟨opening, y, rfl, hopening, -⟩ := exists_of_matches_append hy
  rw [eq_of_matches_word hz, eq_of_matches_word hopening]
  exact ⟨y ++ ['>'], by simp⟩

theorem bracket_of_matches {tag x rest : Text} (h : (cat (openingRe tag)).Matches x rest) :
    ∃ t, x = '<' :: t := by
  rw [openingRe] at h
  simp only [List.append_assoc] at h
  obtain ⟨opening, y, rfl, hopening, -⟩ := exists_of_matches_append h
  rw [eq_of_matches_word hopening]
  exact ⟨y, rfl⟩

/-- Behind the last opening bracket of a text there is what follows any of them. -/
theorem mem_of_bracket {u c y t s : Text} (hu : '<' ∉ u) (h : u ++ c = y ++ '<' :: (t ++ s))
    {d : Char} (hd : d ∈ t) : d ∈ c := by
  rcases List.append_eq_append_iff.mp h with ⟨w, rfl, rfl⟩ | ⟨w, rfl, hw⟩
  · simp [hd]
  · cases w with
    | nil =>
      rw [List.nil_append] at hw
      rw [← hw]
      simp [hd]
    | cons e w =>
      rw [List.cons_append, List.cons.injEq] at hw
      rw [← hw.1] at hu
      simp at hu

/-- A parameter whose closing tag is cut is none. -/
theorem quiet_cut_parameter (p : Parameter) (hraw : '<' ∉ p.value.raw) {cut : Text}
    (hcut : cut <+: p.head ++ p.closing.open "parameter".toList) : paramRe.Quiet cut [] := by
  obtain ⟨u, hhead, hu⟩ := p.head_eq hraw
  obtain ⟨tail, htail⟩ := hcut
  cases cut with
  | nil => exact quiet_nil _ _
  | cons c cut =>
    rw [hhead, List.cons_append, List.cons_append, List.cons.injEq] at htail
    obtain ⟨rfl, htail⟩ := htail
    apply Quiet.cons
    · rw [List.append_nil]
      rintro x rest hx hmatch
      rw [paramRe_eq] at hmatch
      obtain ⟨y, x', rfl, hy, hx'⟩ := exists_of_matches_append hmatch
      simp only [← List.append_assoc] at hx'
      obtain ⟨v, z, rfl, -, hz⟩ := exists_of_matches_append hx'
      obtain ⟨y, rfl⟩ := bracket_of_matches hy
      obtain ⟨t, rfl, hbracket⟩ := brackets_of_matches hz
      have hcut : cut = (y ++ v) ++ '<' :: (t ++ rest) := by
        simpa [List.append_assoc] using hx
      have hsplit : u ++ p.closing.open "parameter".toList =
          (y ++ v) ++ '<' :: (t ++ (rest ++ tail)) := by
        rw [← htail, hcut]
        simp [List.append_assoc]
      exact p.closing.open_sharp parameter_sharp.2 (mem_of_bracket hu hsplit hbracket)
    · have hall : paramRe.Quiet (cut ++ (tail ++ ['>'])) [] := by
        rw [← List.append_assoc, htail, List.append_assoc, paramRe_eq]
        exact (quiet_opening hu).append
          (quiet_opening_closing p.closing parameter_sharp.1 _ [])
      exact hall.of_append open_paramRe

/-- The parameters that are whole are found, and no others. -/
theorem finditer_parameters {parameters : List (Parameter × Blank)}
    (hnames : ∀ p ∈ parameters, p.1.opening.name ≠ [])
    (hraw : ∀ p ∈ parameters, '<' ∉ p.1.value.raw) (closing : Closing) {cut : Text}
    (hcut : cut <+: Invocation.parametersText parameters ++ closing.text "invoke".toList) :
    finditer paramRe cut = (Invocation.whole parameters cut).map Parameter.groups := by
  induction parameters generalizing cut with
  | nil =>
    obtain ⟨tail, htail⟩ := hcut
    apply finditer_of_quiet
    have hquiet : paramRe.Quiet (cut ++ tail) [] := by
      rw [htail, paramRe_eq]
      exact quiet_opening_closing closing invoke_sharp.1 _ []
    exact hquiet.of_append open_paramRe
  | cons p parameters ih =>
    obtain ⟨p, blank⟩ := p
    have hp := hraw _ List.mem_cons_self
    have htext : Invocation.parametersText ((p, blank) :: parameters) ++
        closing.text "invoke".toList = p.text ++ (blank.1 ++
          (Invocation.parametersText parameters ++ closing.text "invoke".toList)) := by
      simp [Invocation.parametersText, List.append_assoc]
    rw [htext] at hcut
    by_cases hwhole : p.text <+: cut
    · obtain ⟨cut, rfl⟩ := hwhole
      have hcut := List.prefix_append_right_inj p.text |>.mp hcut
      have hne : p.text ≠ [] := by simp [Parameter.text, Closing.text]
      have hmatch := matchAt_parameter p (hnames _ List.mem_cons_self) hp cut
      rw [Invocation.whole, if_pos (List.prefix_append _ _), List.drop_left,
        finditer_match hne hmatch, List.map_cons]
      have htake : '<' ∉ cut.take blank.1.length := by
        have hblank := hcut.take blank.1.length
        rw [List.take_left] at hblank
        exact fun hmem => sharp_left.blank blank (hblank.subset hmem)
      have hdrop := hcut.drop blank.1.length
      rw [List.drop_left] at hdrop
      have hquiet : paramRe.Quiet (cut.take blank.1.length) (cut.drop blank.1.length) := by
        rw [paramRe_eq]
        exact quiet_opening htake
      congr 1
      calc finditer paramRe cut
          = finditer paramRe (cut.take blank.1.length ++ cut.drop blank.1.length) := by
            rw [List.take_append_drop]
        _ = finditer paramRe (cut.drop blank.1.length) := finditer_append hquiet
        _ = _ := ih (fun q hq => hnames q (List.mem_cons_of_mem _ hq))
            (fun q hq => hraw q (List.mem_cons_of_mem _ hq)) hdrop
    · rw [Invocation.whole, if_neg hwhole]
      apply finditer_of_quiet
      apply quiet_cut_parameter p hp
      rcases List.prefix_or_prefix_of_prefix hcut (List.prefix_append p.text _) with hle | hle
      · rw [Parameter.text, Closing.text, ← List.append_assoc] at hle hwhole
        rcases List.prefix_concat_iff.mp hle with heq | hle
        · exact absurd (heq ▸ List.prefix_rfl) hwhole
        · exact hle
      · exact absurd hle hwhole

end Parameters

/-! ### Invocations -/

section Invocations

/-- No closing tag of an invocation is inside it. -/
theorem quiet_parameters {parameters : List (Parameter × Blank)}
    (hraw : ∀ p ∈ parameters, '<' ∉ p.1.value.raw) (rest : Text) :
    (cat (closingRe "invoke".toList)).Quiet (Invocation.parametersText parameters) rest := by
  induction parameters with
  | nil => exact quiet_nil _ _
  | cons p parameters ih =>
    obtain ⟨p, blank⟩ := p
    have htext : Invocation.parametersText ((p, blank) :: parameters) =
        p.head ++ (p.closing.text "parameter".toList ++ (blank.1 ++
          Invocation.parametersText parameters)) := by
      simp [Invocation.parametersText, Parameter.text, List.append_assoc]
    rw [htext]
    apply Quiet.append
    · obtain ⟨u, hhead, hu⟩ := p.head_eq (hraw _ List.mem_cons_self)
      have hfails : ∀ rest, (cat (closingRe "invoke".toList)).Fails (p.head ++ rest) := by
        intro rest
        rw [Parameter.head, Opening.text]
        simp only [List.append_assoc, List.cons_append]
        exact closing_fails_opening _ p.opening.before p.opening.lead _
      rw [hhead] at hfails ⊢
      exact quiet_closing_tag (hfails _) hu
    apply Quiet.append
    · obtain ⟨u, hopen, hu⟩ := p.closing.open_eq parameter_sharp.1
      have hfails : ∀ rest, (cat (closingRe "invoke".toList)).Fails
          (p.closing.text "parameter".toList ++ rest) := by
        intro rest
        exact closing_fails_word leads_invoke p.closing leads_parameter
          (by rintro ⟨t, ht⟩; cases ht)
      have htag : p.closing.text "parameter".toList = '<' :: (u ++ ['>']) := by
        rw [Closing.text, hopen, List.cons_append]
      rw [htag] at hfails ⊢
      exact quiet_closing_tag (hfails _) (by simp [hu])
    apply Quiet.append
    · exact quiet_closing (sharp_left.blank blank)
    · exact ih fun q hq => hraw q (List.mem_cons_of_mem _ hq)

theorem quiet_body (inv : Invocation) (hraw : ∀ p ∈ inv.parameters, '<' ∉ p.1.value.raw)
    (rest : Text) : (cat (closingRe "invoke".toList)).Quiet inv.body rest :=
  (quiet_closing (sharp_left.blank inv.inner)).append (quiet_parameters hraw rest)

/-- Nor in an invocation whose own closing tag is cut. -/
theorem quiet_cut_body (inv : Invocation) (hraw : ∀ p ∈ inv.parameters, '<' ∉ p.1.value.raw)
    {cut : Text} (hcut : cut <+: inv.body ++ inv.closing.open "invoke".toList) :
    (cat (closingRe "invoke".toList)).Quiet cut [] := by
  rcases List.prefix_or_prefix_of_prefix hcut (List.prefix_append inv.body _) with
    ⟨tail, htail⟩ | ⟨cut, rfl⟩
  · have hbody := quiet_body inv hraw []
    rw [← htail] at hbody
    exact hbody.of_append open_closingRe
  · have htag := (List.prefix_append_right_inj inv.body).mp hcut
    apply (quiet_body inv hraw _).append
    cases cut with
    | nil => exact quiet_nil _ _
    | cons c cut =>
      have hsharp : '>' ∉ c :: cut := fun hmem =>
        inv.closing.open_sharp invoke_sharp.2 (htag.subset hmem)
      obtain ⟨u, hopen, hu⟩ := inv.closing.open_eq invoke_sharp.1
      rw [hopen, List.cons_prefix_cons] at htag
      obtain ⟨rfl, hbegins⟩ := htag
      apply quiet_closing_tag
      · rintro x rest hx hmatch
        obtain ⟨t, rfl, hbracket⟩ := brackets_of_matches hmatch
        apply hsharp
        rw [← List.append_nil cut, hx]
        simp [hbracket]
      · exact fun hmem => hu (hbegins.subset hmem)

/-- The groups of an invocation. -/
def Invocation.groups (inv : Invocation) (body : Text) : Groups Char :=
  [(2, body), (1, inv.opening.name)]

theorem quiet_end {u rest : Text} (h : (cat (closingRe "invoke".toList)).Quiet u rest) :
    (cat [alt (cat (closingRe "invoke".toList)) stop]).Quiet u rest :=
  fun x y hxy hy => fails_alt_stop (h x y hxy hy) (by simp [hy])

/-- An invocation is matched up to where its closing tag is, or the text ends. -/
theorem matchAt_head (inv : Invocation) (hname : inv.opening.name ≠ []) {body rest rest' : Text}
    (hquiet : (cat (closingRe "invoke".toList)).Quiet body rest)
    (hend : (cat [alt (cat (closingRe "invoke".toList)) stop]).run (inv.groups body) rest
      (fun g rest => some (g, rest)) = some (inv.groups body, rest')) :
    invokeRe.matchAt (inv.head ++ (body ++ rest)) = some (inv.groups body, rest') := by
  rw [matchAt, invokeRe_eq, Invocation.head]
  simp only [List.append_assoc, List.singleton_append]
  rw [run_opening inv.opening hname leads_invoke, run_spaces inv.behind
    ((leads_bracket []).refuses_space _) (leads_bracket _).not_space, run_char]
  exact cat_group_few (quiet_end hquiet) (fun c hc => rfl) hend

theorem matchAt_invocation (inv : Invocation) (hname : inv.opening.name ≠ [])
    (hraw : ∀ p ∈ inv.parameters, '<' ∉ p.1.value.raw) (rest : Text) :
    invokeRe.matchAt (inv.text ++ rest) = some (inv.groups inv.body, rest) := by
  rw [Invocation.text]
  simp only [List.append_assoc]
  apply matchAt_head inv hname (quiet_body inv hraw _)
  apply Option.or_eq_some_iff.mpr
  left
  rw [← List.append_nil (closingRe _), run_closing inv.closing leads_invoke]
  rfl

theorem matchAt_cut_invocation (inv : Invocation) (hname : inv.opening.name ≠ [])
    (hraw : ∀ p ∈ inv.parameters, '<' ∉ p.1.value.raw) {cut : Text}
    (hcut : cut <+: inv.body ++ inv.closing.open "invoke".toList) :
    invokeRe.matchAt (inv.head ++ cut) = some (inv.groups cut, []) := by
  have hfails : (cat (closingRe "invoke".toList)).Fails [] := fails_nil _ _
  have hmatch := matchAt_head inv hname (quiet_cut_body inv hraw hcut) (run_alt_stop hfails)
  rwa [List.append_nil] at hmatch

/-- Invocations one after the other are found one after the other. -/
theorem finditer_invocations {invocations : List (Invocation × Blank)}
    (hnames : ∀ inv ∈ invocations, inv.1.opening.name ≠ [])
    (hraw : ∀ inv ∈ invocations, ∀ p ∈ inv.1.parameters, '<' ∉ p.1.value.raw) (rest : Text) :
    finditer invokeRe ((invocations.flatMap fun inv => inv.1.text ++ inv.2.1) ++ rest) =
      invocations.map (fun inv => inv.1.groups inv.1.body) ++ finditer invokeRe rest := by
  induction invocations with
  | nil => rfl
  | cons inv invocations ih =>
    have hne : inv.1.text ≠ [] := by simp [Invocation.text, Closing.text]
    have hmatch := matchAt_invocation inv.1 (hnames inv List.mem_cons_self)
      (hraw inv List.mem_cons_self) (inv.2.1 ++
        ((invocations.flatMap fun inv => inv.1.text ++ inv.2.1) ++ rest))
    have hquiet : ∀ rest, invokeRe.Quiet inv.2.1 rest := by
      intro rest
      rw [invokeRe_eq]
      exact quiet_opening (sharp_left.blank inv.2)
    rw [List.flatMap_cons, List.append_assoc, List.append_assoc, finditer_match hne hmatch,
      finditer_append (hquiet _), ih (fun q hq => hnames q (List.mem_cons_of_mem _ hq))
        fun q hq => hraw q (List.mem_cons_of_mem _ hq)]
    rfl

/-- Up to some invocations of a document these are found, and then what is behind them. -/
theorem finditer_upTo (doc : Document) {invocations : List (Invocation × Blank)}
    (hnames : ∀ inv ∈ invocations, inv.1.opening.name ≠ [])
    (hraw : ∀ inv ∈ invocations, ∀ p ∈ inv.1.parameters, '<' ∉ p.1.value.raw) (rest : Text) :
    finditer invokeRe (doc.upTo invocations ++ rest) =
      invocations.map (fun inv => inv.1.groups inv.1.body) ++ finditer invokeRe rest := by
  -- the tag around the calls is none of them
  obtain ⟨u, hu, hsharp, hhead⟩ : ∃ u, '<' :: (doc.before.1 ++ (doc.lead.text ++
      ("function_calls".toList ++ (doc.behind.1 ++ ('>' :: doc.inner.1))))) = '<' :: u ∧ '<' ∉ u ∧
      ∀ rest, invokeRe.Fails ('<' :: (u ++ rest)) := by
    refine ⟨_, rfl, ?_, ?_⟩
    · simp only [List.mem_append, List.mem_cons, not_or]
      exact ⟨sharp_left.blank _, sharp_left.lead _, by decide, sharp_left.blank _, by decide,
        sharp_left.blank _⟩
    · intro rest
      have hleads : Leads "function_calls".toList :=
        ⟨'f', "unction_calls".toList, rfl, by decide, by decide⟩
      rw [invokeRe_eq]
      simp only [List.append_assoc]
      exact opening_fails_word leads_invoke hleads (by rintro ⟨t, ht⟩; cases ht)
  have htext : doc.upTo invocations ++ rest = ('<' :: u) ++
      ((invocations.flatMap fun inv => inv.1.text ++ inv.2.1) ++ rest) := by
    rw [← hu, Document.upTo]
    simp [List.append_assoc]
  have hquiet : invokeRe.Quiet ('<' :: u)
      ((invocations.flatMap fun inv => inv.1.text ++ inv.2.1) ++ rest) := by
    have hfails := hhead ((invocations.flatMap fun inv => inv.1.text ++ inv.2.1) ++ rest)
    rw [invokeRe_eq] at hfails ⊢
    exact quiet_opening_tag hfails hsharp
  rw [htext, finditer_append hquiet, finditer_invocations hnames hraw]

end Invocations

/-! ### Arguments -/

theorem strip_around (front back : Blank) (s : Text) :
    strip (front ++ (s ++ back)) = strip s := by
  have hback : ∀ t : Text, (t ++ back.1).rdropWhile isSpace = t.rdropWhile isSpace := by
    intro t
    rw [List.rdropWhile, List.rdropWhile, List.reverse_append,
      List.dropWhile_append_of_pos fun c hc => back.2 c (List.mem_reverse.mp hc)]
  rw [strip, strip, List.dropWhile_append_of_pos front.2, List.dropWhile_append]
  cases hs : s.dropWhile isSpace with
  | nil =>
    have hempty := List.dropWhile_eq_nil_iff.mpr back.2
    show (back.1.dropWhile isSpace).rdropWhile isSpace = _
    rw [hempty]
  | cons c rest =>
    rw [if_neg (by simp), hback]

/-- A parameter is read as its entry. -/
theorem argument_groups {py : Python} {p : Parameter} (hgood : p.value.Good py) :
    argument py p.groups = .ok p.entry := by
  obtain ⟨opening, value, behind, closing⟩ := p
  cases value with
  | plain front back s =>
    show Except.ok (opening.key, Json.string (strip (front ++ (s ++ back)))) = _
    rw [strip_around, hgood.1]
    rfl
  | string gap front back s =>
    show Except.ok (opening.key, Json.string (strip (front ++ (s ++ back)))) = _
    rw [strip_around, hgood.1]
    rfl
  | json gap text v =>
    have hvalue : parameterValue py text (some "false".toList) = .ok v := by
      rw [parameterValue, if_pos rfl, hgood.2.1]
    show (do Except.ok (opening.key, ← parameterValue py text (some "false".toList))) = _
    rw [hvalue]
    rfl

theorem Value.Good.held {py : Python} {value : Value} (h : value.Good py) :
    value.value.AllHeld ∧ value.value.FloatFree := by
  cases value with
  | plain front back s =>
    exact ⟨fun w hw => by cases hw; trivial, fun numeral hw => by cases hw⟩
  | string gap front back s =>
    exact ⟨fun w hw => by cases hw; trivial, fun numeral hw => by cases hw⟩
  | json gap text v => exact ⟨Json.held_of_loads h.2.1, h.2.2⟩

theorem mapM_ok {α β : Type} {f : α → Except JsonError β} {g : α → β} {l : List α}
    (h : ∀ a ∈ l, f a = .ok (g a)) : l.mapM f = .ok (l.map g) := by
  induction l with
  | nil => rfl
  | cons a l ih =>
    rw [List.mapM_cons, h a List.mem_cons_self, ih fun b hb => h b (List.mem_cons_of_mem a hb)]
    rfl

/-- The keys of a call are distinct and its values good. -/
structure Sound (py : Python) (parameters : List Parameter) : Prop where
  keys : (parameters.map fun p => p.opening.key).Nodup
  values : ∀ p ∈ parameters, p.value.Good py
  depth : (Invocation.argumentsOf parameters).depth ≤ py.encodeLimit

theorem whole_isPrefix (parameters : List (Parameter × Blank)) (cut : Text) :
    Invocation.whole parameters cut <+: parameters.map Prod.fst := by
  induction parameters generalizing cut with
  | nil => exact List.prefix_rfl
  | cons p parameters ih =>
    obtain ⟨p, blank⟩ := p
    rw [Invocation.whole]
    split
    · rw [List.map_cons, List.prefix_cons_inj]
      exact ih _
    · exact List.nil_prefix

theorem whole_all (parameters : List (Parameter × Blank)) (rest : Text) :
    Invocation.whole parameters (Invocation.parametersText parameters ++ rest) =
      parameters.map Prod.fst := by
  induction parameters with
  | nil => rfl
  | cons p parameters ih =>
    obtain ⟨p, blank⟩ := p
    have htext : Invocation.parametersText ((p, blank) :: parameters) ++ rest =
        p.text ++ (blank.1 ++ (Invocation.parametersText parameters ++ rest)) := by
      simp [Invocation.parametersText, List.append_assoc]
    rw [htext, Invocation.whole, if_pos (List.prefix_append _ _), List.drop_left, List.drop_left,
      ih]
    rfl

theorem Invocation.Good.sound {py : Python} {inv : Invocation} (h : inv.Good py)
    {parameters : List Parameter} (hparameters : parameters <+: inv.parameters.map Prod.fst) :
    Sound py parameters := by
  have hmem : ∀ p ∈ parameters, p ∈ inv.parameters.map Prod.fst := fun p hp =>
    hparameters.subset hp
  refine ⟨?_, ?_, ?_⟩
  · have hkeys : ((inv.parameters.map Prod.fst).map fun p => p.opening.key).Nodup := by
      rw [List.map_map]
      exact h.keys
    exact hkeys.sublist (hparameters.sublist.map _)
  · intro p hp
    obtain ⟨q, hq, rfl⟩ := List.mem_map.mp (hmem p hp)
    exact h.values q hq
  · have hdepth := h.depth
    rw [Invocation.call, Invocation.argumentsOf, Json.depth] at hdepth
    rw [Invocation.argumentsOf, Json.depth]
    refine le_trans (Nat.succ_le_succ (Json.depthMembers_le fun m hm => ?_)) hdepth
    obtain ⟨p, hp, rfl⟩ := List.mem_map.mp hm
    exact Json.depth_le_depthMembers (List.mem_map_of_mem (hmem p hp))

section Arguments

variable {py : Python} {parameters : List Parameter} (h : Sound py parameters)

include h

/-- What is written as arguments is read as the parameters. -/
theorem Sound.loads_arguments {limit : ℕ}
    (hlimit : (Invocation.argumentsOf parameters).depth ≤ limit) :
    Json.loads limit ((Invocation.argumentsOf parameters).render py.floatRepr) =
      .ok (Invocation.argumentsOf parameters) := by
  have hvalue : ∀ p ∈ parameters, p.value.value.AllHeld ∧ p.value.value.FloatFree :=
    fun p hp => (h.values p hp).held
  apply Json.loads_render hlimit
  · intro w hw
    cases hw with
    | self =>
      show ((parameters.map Parameter.entry).map Prod.fst).Nodup
      rw [List.map_map]
      exact h.keys
    | member hm hpart =>
      obtain ⟨p, hp, heq⟩ := List.mem_map.mp hm
      have hw := (hvalue p hp).1 w
      rw [show p.value.value = _ from congrArg Prod.snd heq] at hw
      exact hw hpart
  · intro numeral hw
    cases hw with
    | member hm hpart =>
      obtain ⟨p, hp, heq⟩ := List.mem_map.mp hm
      have hfree := (hvalue p hp).2 numeral
      rw [show p.value.value = _ from congrArg Prod.snd heq] at hfree
      exact hfree hpart

/-- The call of an invocation. -/
theorem Sound.invokeCall (inv : Invocation) (hname : inv.opening.key ≠ []) {body : Text}
    (hbody : finditer paramRe body = parameters.map Parameter.groups) :
    invokeCall py (inv.groups body) =
      .ok (some (inv.opening.key, (Invocation.argumentsOf parameters).render py.floatRepr)) := by
  have hpairs : (parameters.map Parameter.groups).mapM (argument py) =
      .ok (parameters.map Parameter.entry) := by
    rw [List.mapM_map]
    exact mapM_ok fun p hp => argument_groups (h.values p hp)
  have hdict : Json.dictOf (parameters.map Parameter.entry) = parameters.map Parameter.entry := by
    apply Json.dictOf_of_nodup
    rw [List.map_map]
    exact h.keys
  have hdumps : Json.dumps py.floatRepr py.encodeLimit (Invocation.argumentsOf parameters) =
      .ok ((Invocation.argumentsOf parameters).render py.floatRepr) := if_pos h.depth
  show (if inv.opening.key = [] then _ else do
    let pairs ← (finditer paramRe body).mapM (argument py)
    Except.ok (some (inv.opening.key,
      ← Json.dumps py.floatRepr py.encodeLimit (.object (Json.dictOf pairs))))) = _
  rw [if_neg hname, hbody, hpairs]
  show (do Except.ok (some (inv.opening.key, ← Json.dumps py.floatRepr py.encodeLimit
    (.object (Json.dictOf (parameters.map Parameter.entry)))))) = _
  rw [hdict, show Json.object (parameters.map Parameter.entry) =
    Invocation.argumentsOf parameters from rfl, hdumps]
  rfl

end Arguments

/-! ### Documents -/

/-- A call of that name whose arguments are read as these, however deep they may be nested. -/
def Reads (call : ParsedToolCall) (expected : Text × Json) : Prop :=
  call.name = expected.1 ∧
    ∀ limit, expected.2.depth ≤ limit → Json.loads limit call.arguments = .ok expected.2

/-- The name and the arguments where the text is cut behind the opening tag. -/
def Invocation.cutCall (inv : Invocation) (cut : Text) : Text × Json :=
  (inv.opening.key, argumentsOf (whole inv.parameters (cut.drop inv.inner.1.length)))

section Documents

variable {py : Python}

/-- The parameters in a beginning of what stands behind the opening tag. -/
theorem finditer_body (inv : Invocation) (hnames : ∀ p ∈ inv.parameters, p.1.opening.name ≠ [])
    (hraw : ∀ p ∈ inv.parameters, '<' ∉ p.1.value.raw) {cut : Text}
    (hcut : cut <+: inv.body ++ inv.closing.text "invoke".toList) :
    finditer paramRe cut = (Invocation.whole inv.parameters
      (cut.drop inv.inner.1.length)).map Parameter.groups := by
  rw [Invocation.body, List.append_assoc] at hcut
  have htake : '<' ∉ cut.take inv.inner.1.length := by
    have hinner := hcut.take inv.inner.1.length
    rw [List.take_left] at hinner
    exact fun hmem => sharp_left.blank inv.inner (hinner.subset hmem)
  have hdrop := hcut.drop inv.inner.1.length
  rw [List.drop_left] at hdrop
  have hquiet : paramRe.Quiet (cut.take inv.inner.1.length) (cut.drop inv.inner.1.length) := by
    rw [paramRe_eq]
    exact quiet_opening htake
  calc finditer paramRe cut
      = finditer paramRe (cut.take inv.inner.1.length ++ cut.drop inv.inner.1.length) := by
        rw [List.take_append_drop]
    _ = finditer paramRe (cut.drop inv.inner.1.length) := finditer_append hquiet
    _ = _ := finditer_parameters hnames hraw inv.closing hdrop

/-- The call of an invocation that is cut. -/
theorem invokeCall_cut {inv : Invocation} (hgood : inv.Good py)
    (hnames : ∀ p ∈ inv.parameters, p.1.opening.name ≠ []) {cut : Text}
    (hcut : cut <+: inv.body ++ inv.closing.text "invoke".toList) :
    invokeCall py (inv.groups cut) =
      .ok (some ((inv.cutCall cut).1, (inv.cutCall cut).2.render py.floatRepr)) :=
  (hgood.sound (whole_isPrefix _ _)).invokeCall inv hgood.name
    (finditer_body inv hnames (fun p hp => (hgood.values p hp).raw_sharp) hcut)

theorem cutCall_body (inv : Invocation) (rest : Text) :
    inv.cutCall (inv.body ++ rest) = inv.call := by
  rw [Invocation.cutCall, Invocation.body, List.append_assoc, List.drop_left, whole_all]
  rfl

theorem invokeCall_body {inv : Invocation} (hgood : inv.Good py)
    (hnames : ∀ p ∈ inv.parameters, p.1.opening.name ≠ []) :
    invokeCall py (inv.groups inv.body) =
      .ok (some (inv.call.1, inv.call.2.render py.floatRepr)) := by
  have hcut := invokeCall_cut hgood hnames (List.prefix_append inv.body _)
  have hcall := cutCall_body inv []
  rw [List.append_nil] at hcall
  rwa [hcall] at hcut

theorem name_ne_nil {inv : Invocation} (hgood : inv.Good py) : inv.opening.name ≠ [] := by
  intro hname
  apply hgood.name
  rw [Opening.key, hname]
  rfl

theorem finditer_whole {text : Text} {g : Groups Char} (hne : text ≠ [])
    (h : invokeRe.matchAt text = some (g, [])) : finditer invokeRe text = [g] := by
  rw [← List.append_nil text] at h ⊢
  exact finditer_match hne h

/-- An invocation at the end of the text, its closing tag cut or not. -/
theorem finditer_last {inv : Invocation} (hgood : inv.Good py) {cut : Text}
    (hcut : cut <+: inv.body ++ inv.closing.text "invoke".toList) :
    ∃ body, finditer invokeRe (inv.head ++ cut) = [inv.groups body] ∧
      body <+: inv.body ++ inv.closing.text "invoke".toList ∧
      inv.cutCall body = inv.cutCall cut := by
  have hname := name_ne_nil hgood
  have hraw : ∀ p ∈ inv.parameters, '<' ∉ p.1.value.raw :=
    fun p hp => (hgood.values p hp).raw_sharp
  have hne : inv.head ++ cut ≠ [] := by simp [Invocation.head]
  have hsplit : inv.body ++ inv.closing.text "invoke".toList =
      (inv.body ++ inv.closing.open "invoke".toList) ++ ['>'] := by
    rw [Closing.text, List.append_assoc]
  rw [hsplit] at hcut
  rcases List.prefix_concat_iff.mp hcut with hwhole | hopen
  · have hmatch := matchAt_invocation inv hname hraw []
    rw [List.append_nil, Invocation.text, hsplit, ← hwhole] at hmatch
    refine ⟨inv.body, finditer_whole hne hmatch, List.prefix_append _ _, ?_⟩
    have hbody := cutCall_body inv []
    rw [List.append_nil] at hbody
    rw [hwhole, List.append_assoc, hbody, cutCall_body]
  · refine ⟨cut, finditer_whole hne (matchAt_cut_invocation inv hname hraw hopen), ?_, rfl⟩
    rw [hsplit]
    exact hopen.trans (List.prefix_append _ _)

/-- The calls that the matches stand for. -/
theorem parse_of_found {text : Text} {found : List (Groups Char)} {calls : List (Text × Json)}
    (newId : ℕ → Text) (hfound : finditer invokeRe text = found) (hne : calls ≠ [])
    (hcalls : found.mapM (invokeCall py) =
      .ok (calls.map fun call => some (call.1, call.2.render py.floatRepr)))
    (hreads : ∀ call ∈ calls, ∀ limit, call.2.depth ≤ limit →
      Json.loads limit (call.2.render py.floatRepr) = .ok call.2) :
    ∃ parsed, parseDsmlToolCalls py newId (some text) = .ok parsed ∧
      List.Forall₂ Reads parsed calls := by
  refine ⟨withIds newId (calls.map fun call => (call.1, call.2.render py.floatRepr)), ?_, ?_⟩
  · have hsome : callsOf (invokeCall py) found =
        .ok (calls.map fun call => (call.1, call.2.render py.floatRepr)) := by
      rw [callsOf, hcalls]
      show Except.ok (List.filterMap id _) = _
      rw [List.filterMap_map]
      exact congrArg Except.ok (congrFun List.filterMap_eq_map' calls)
    rw [parseDsmlToolCalls, hfound, hsome]
    exact if_pos (by simpa using hne)
  · have hfrom : ∀ (n : ℕ) (calls : List (Text × Json)),
        (∀ call ∈ calls, ∀ limit, call.2.depth ≤ limit →
          Json.loads limit (call.2.render py.floatRepr) = .ok call.2) →
        List.Forall₂ Reads
          (((calls.map fun call => (call.1, call.2.render py.floatRepr)).zipIdx n).map
            fun c => ⟨newId c.2, c.1.1, c.1.2⟩) calls := by
      intro n calls hreads
      induction calls generalizing n with
      | nil => exact List.Forall₂.nil
      | cons call calls ih =>
        refine List.Forall₂.cons ⟨rfl, hreads call List.mem_cons_self⟩ ?_
        exact ih (n + 1) fun c hc => hreads c (List.mem_cons_of_mem _ hc)
    exact hfrom 0 calls hreads

/-- A document in the documented form: the claim of reading back holds of it. -/
def ReadsBack (py : Python) (newId : ℕ → Text) (doc : Document) : Prop :=
  (∃ calls, parseDsmlToolCalls py newId (some doc.text) = .ok calls ∧
    List.Forall₂ Reads calls (doc.invocations.map fun inv => inv.1.call)) ∧
  ∀ earlier last, doc.invocations = earlier ++ [last] →
    ∀ cut, cut <+: last.1.body ++ last.1.closing.text "invoke".toList →
      ∃ calls,
        parseDsmlToolCalls py newId (some (doc.upTo earlier ++ (last.1.head ++ cut))) = .ok calls ∧
        List.Forall₂ Reads calls
          (earlier.map (fun inv => inv.1.call) ++ [last.1.cutCall cut])

/-- Calls with parameters that all have a name are read back, and so is what a cut leaves. -/
theorem parse_reads_back (py : Python) (newId : ℕ → Text) (doc : Document)
    (hne : doc.invocations ≠ []) (hgood : ∀ inv ∈ doc.invocations, inv.1.Good py)
    (hnames : ∀ inv ∈ doc.invocations, ∀ p ∈ inv.1.parameters, p.1.opening.name ≠ []) :
    ReadsBack py newId doc := by
  have hcalls : ∀ invocations : List (Invocation × Blank),
      (∀ inv ∈ invocations, inv ∈ doc.invocations) →
      (invocations.map fun inv => inv.1.groups inv.1.body).mapM (invokeCall py) =
        .ok (invocations.map fun inv =>
          some (inv.1.call.1, inv.1.call.2.render py.floatRepr)) := by
    intro invocations hmem
    rw [List.mapM_map]
    exact mapM_ok fun inv hinv =>
      invokeCall_body (hgood inv (hmem inv hinv)) (hnames inv (hmem inv hinv))
  have hfound : ∀ (invocations : List (Invocation × Blank)) (rest : Text),
      (∀ inv ∈ invocations, inv ∈ doc.invocations) →
      finditer invokeRe (doc.upTo invocations ++ rest) =
        invocations.map (fun inv => inv.1.groups inv.1.body) ++ finditer invokeRe rest :=
    fun invocations rest hmem => finditer_upTo doc
      (fun inv hinv => name_ne_nil (hgood inv (hmem inv hinv)))
      (fun inv hinv p hp => ((hgood inv (hmem inv hinv)).values p hp).raw_sharp) rest
  have hreads : ∀ inv ∈ doc.invocations, ∀ limit, inv.1.call.2.depth ≤ limit →
      Json.loads limit (inv.1.call.2.render py.floatRepr) = .ok inv.1.call.2 :=
    fun inv hinv limit hlimit =>
      ((hgood inv hinv).sound List.prefix_rfl).loads_arguments hlimit
  constructor
  · have hend : finditer invokeRe (doc.closing.text "function_calls".toList) = [] := by
      apply finditer_of_quiet
      rw [invokeRe_eq]
      exact quiet_opening_closing doc.closing (by decide) _ []
    have hall : finditer invokeRe doc.text =
        doc.invocations.map fun inv => inv.1.groups inv.1.body := by
      rw [Document.text, hfound _ _ fun inv hinv => hinv, hend, List.append_nil]
    apply parse_of_found newId hall
    · simpa using hne
    · rw [hcalls _ fun inv hinv => hinv, List.map_map]
      rfl
    · intro call hcall
      obtain ⟨inv, hinv, rfl⟩ := List.mem_map.mp hcall
      exact hreads inv hinv
  · rintro earlier last hsplit cut hcut
    have hlast : last ∈ doc.invocations := by simp [hsplit]
    have hearlier : ∀ inv ∈ earlier, inv ∈ doc.invocations := by
      intro inv hinv
      simp [hsplit, hinv]
    obtain ⟨body, hbody, hprefix, hcall⟩ := finditer_last (hgood last hlast) hcut
    have hcutCall := invokeCall_cut (hgood last hlast) (hnames last hlast) hprefix
    apply parse_of_found newId
      ((hfound earlier (last.1.head ++ cut) hearlier).trans (congrArg _ hbody))
    · simp
    · rw [List.mapM_append, hcalls earlier hearlier]
      show (do
        let more ← [last.1.groups body].mapM (invokeCall py)
        Except.ok (_ ++ more)) = _
      rw [List.mapM_cons, hcutCall, hcall]
      simp [List.map_append, List.map_map, Function.comp_def]
      rfl
    · intro call hmem
      rcases List.mem_append.mp hmem with hmem | hmem
      · obtain ⟨inv, hinv, rfl⟩ := List.mem_map.mp hmem
        exact hreads inv (hearlier inv hinv)
      · rw [List.mem_singleton.mp hmem]
        intro limit hlimit
        exact ((hgood last hlast).sound (whole_isPrefix _ _)).loads_arguments hlimit

end Documents

/-! ### Two documents -/

/-- No whitespace. -/
def noBlank : Blank := ⟨[], by simp⟩

/-- A line break. -/
def newline : Blank := ⟨['\n'], by simp [isSpace]⟩

/-- One blank between the parts of a tag. -/
def oneSpace : Gap := ⟨[' '], by simp, by simp [isSpace]⟩

/-- One full-width bar. -/
def oneBar : Bars := ⟨['｜'], by simp, by simp [isBar]⟩

/-- `｜DSML｜`, without whitespace. -/
def plainLead : Lead := ⟨oneBar, noBlank, noBlank, oneBar, noBlank⟩

/-- A closing tag without whitespace. -/
def plainClosing : Closing := ⟨noBlank, noBlank, plainLead, noBlank⟩

/-- An opening tag without whitespace. -/
def plainOpening (name : Text) (h : ∀ c ∈ name, c ≠ '"' ∧ c ≠ '<') : Opening :=
  ⟨noBlank, plainLead, oneSpace, name, h⟩

/-- A parameter without any whitespace. -/
def plainParameter (name : Text) (h : ∀ c ∈ name, c ≠ '"' ∧ c ≠ '<') (value : Value) : Parameter :=
  ⟨plainOpening name h, value, noBlank, plainClosing⟩

/-- Calls on lines of their own, with the parameters of each. -/
def plainDocument (calls : List (Opening × List Parameter)) : Document :=
  ⟨noBlank, plainLead, noBlank, newline,
    calls.map fun call =>
      (⟨call.1, noBlank, noBlank, call.2.map fun p => (p, noBlank), plainClosing⟩, newline),
    plainClosing⟩

/-- An interpreter that knows ASCII words and reads eight levels. -/
def asciiPython : Python := ⟨Char.isAlphanum, id, 8, 8⟩

/-- A search with a string and a number, and the price of a plant. -/
def searchAndPrice : Document :=
  plainDocument
    [(plainOpening "search_plants".toList (by simp),
      [plainParameter "query".toList (by simp) (.string oneSpace newline noBlank "fern".toList),
        plainParameter "limit".toList (by simp) (.json oneSpace ['3'] (.int 3))]),
     (plainOpening "get_plant_price".toList (by simp),
      [plainParameter "plant_query".toList (by simp) (.plain noBlank noBlank "Moss".toList)])]

theorem good_searchAndPrice : ∀ inv ∈ searchAndPrice.invocations, inv.1.Good asciiPython := by
  simp only [searchAndPrice, plainDocument, List.map_cons, List.map_nil, List.forall_mem_cons,
    List.not_mem_nil, false_implies, implies_true, and_true]
  refine ⟨⟨by decide +kernel, by decide +kernel, ?_, by decide +kernel⟩,
    ⟨by decide +kernel, by decide +kernel, ?_, by decide +kernel⟩⟩
  · simp only [List.forall_mem_cons, List.not_mem_nil, false_implies, implies_true, and_true]
    refine ⟨⟨by decide +kernel, by decide⟩, by decide, rfl, fun numeral hpart => ?_⟩
    cases hpart
  · simp only [List.forall_mem_cons, List.not_mem_nil, false_implies, implies_true, and_true]
    exact ⟨by decide +kernel, by decide⟩

/-- Two calls, one of them with two parameters. -/
theorem parse_reads_back_calls :
    searchAndPrice.text = ("<｜DSML｜function_calls>\n<｜DSML｜invoke name=\"search_plants\">" ++
      "<｜DSML｜parameter name=\"query\" string=\"true\">\nfern</｜DSML｜parameter>" ++
      "<｜DSML｜parameter name=\"limit\" string=\"false\">3</｜DSML｜parameter>" ++
      "</｜DSML｜invoke>\n<｜DSML｜invoke name=\"get_plant_price\">" ++
      "<｜DSML｜parameter name=\"plant_query\">Moss</｜DSML｜parameter>" ++
      "</｜DSML｜invoke>\n</｜DSML｜function_calls>").toList ∧
    ReadsBack asciiPython (fun _ => []) searchAndPrice :=
  ⟨by decide +kernel, parse_reads_back asciiPython _ searchAndPrice (by decide +kernel)
    good_searchAndPrice (by decide +kernel)⟩

/-- A parameter whose name is empty. -/
def emptyName : Document :=
  plainDocument [(plainOpening ['f'] (by simp),
    [plainParameter [] (by simp) (.plain noBlank noBlank ['x'])])]

/-- A parameter with an empty name is dropped. -/
theorem empty_name_dropped :
    emptyName.invocations ≠ [] ∧ (∀ inv ∈ emptyName.invocations, inv.1.Good asciiPython) ∧
      ¬ ReadsBack asciiPython (fun _ => []) emptyName := by
  refine ⟨by simp [emptyName, plainDocument], ?_, ?_⟩
  · intro inv hinv
    rw [List.mem_singleton.mp hinv]
    refine ⟨by decide +kernel, by decide +kernel, fun p hp => ?_, by decide +kernel⟩
    rw [List.mem_singleton.mp hp]
    exact ⟨by decide +kernel, by decide⟩
  · rintro ⟨⟨calls, hparse, hreads⟩, -⟩
    have hdropped : parseDsmlToolCalls asciiPython (fun _ => []) (some emptyName.text) =
        .ok [⟨[], ['f'], "\x7b\x7d".toList⟩] := by
      decide +kernel
    rw [hdropped, Except.ok.injEq] at hparse
    rw [← hparse] at hreads
    obtain ⟨⟨-, hargs⟩, -⟩ := List.forall₂_cons.mp hreads
    cases hargs 8 (by decide)

end Dsml

end GreenGarden
