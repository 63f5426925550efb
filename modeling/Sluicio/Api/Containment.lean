import Sluicio.Api.IntegrationWrites

/-!
# Requests within what the caller manages

What a request may ask of an integration, so that it opens no row of a service outside the
caller's managed set `M`.  The routes and the handlers see to the members.  They do not look at
the sources, at who finds the new name, or at what the matchers select below an anchor.
-/

namespace Sluicio.Api.IntegrationWrites

open Identity Lib
open Integrations (Matcher GroupedMatcher RuleMatch Source acceptSources
  servicesForIntegration)
open Tracecompletion (trimSpace)

section Contained

variable {F : Type} (c : Cell F) (M : Finset String)

/-- The source reads services of `M` only. -/
def Cell.SourceWithin (src : Source) : Prop :=
  ∀ n ∈ src.origin.services c.systemMembers, n ∈ M

def Cell.SourcesWithin (r : IntegrationRow) : Prop := ∀ src ∈ r.sources, c.SourceWithin M src

def Cell.LogSourcesWithin (r : IntegrationRow) : Prop :=
  ∀ src ∈ r.sources, src.signal = .logs → c.SourceWithin M src

/-- A policy that names integrations by a pattern accepts the new name only if it accepted the
old one, and a request finds the new name only if it found the old one. -/
def Cell.NameKept (old new : String) : Prop :=
  (∀ q ∈ c.base.identity.policies, ∀ expr, q.kind = .integration → q.targetIntegrationID = none →
    q.conditions = some expr → c.base.identity.AcceptsName expr new →
      c.base.identity.AcceptsName expr old) ∧
    (Askable new → Askable old)

/-- With these matchers the integration is not read for the first time, unless its sources are
within `M`. -/
def Cell.MembersContained (r : IntegrationRow) (ms : List (UUID × GroupedMatcher)) : Prop :=
  r.services ≠ [] ∨ c.select ms = [] ∨ c.SourcesWithin M r

/-- These matchers do not select what is below an anchor, unless the log sources are within
`M`. -/
def Cell.BelowContained (r : IntegrationRow) (ms : List (UUID × GroupedMatcher)) : Prop :=
  (∀ m ∈ ms, m.2.includeDescendants = false) ∨ c.LogSourcesWithin M r

/-- What a request for the row has to keep to. -/
def Cell.EditContained (r : IntegrationRow) : Edit → Prop
  | .updateIntegration name ruleMatch =>
    ((∀ n ∈ r.services, n ∈ M) ∧ c.SourcesWithin M r ∨ c.NameKept r.name (trimSpace name)) ∧
      (ruleMatch.getD r.ruleMatch = r.ruleMatch ∨ c.BelowContained M r r.matchers)
  | .addMatcher id m =>
    c.MembersContained M r (r.matchers ++ readMatchers [(id, m)]) ∧
      c.BelowContained M r (r.matchers ++ readMatchers [(id, m)])
  | .replaceMatchers ms _ =>
    c.MembersContained M r (readMatchers ms) ∧ c.BelowContained M r (readMatchers ms)
  | .removeMatcher id => c.BelowContained M r (r.matchers.filter fun m => m.1 ≠ id)
  | .removeServiceFromIntegration name =>
    c.BelowContained M r (r.matchers.filter fun m => !ties name m.2)
  | .putIntegrationSources sources =>
    ∀ src ∈ sources, src.trimmed ∈ r.sources ∨ c.SourceWithin M src.trimmed

/-- An edit keeps to the condition for the row that it names. -/
def Cell.Contained (s : State) : Request → Prop
  | .edit id e => ∀ r ∈ s.rows, r.id = id → c.EditContained M r e
  | _ => True

/-! ## What a step does to a row -/

/-- Everything that the integration covers is within `M`. -/
structure Cell.Within (r : IntegrationRow) : Prop where
  selected : ∀ n ∈ c.select r.matchers, n ∈ M
  services : ∀ n ∈ r.services, n ∈ M
  sources : c.SourcesWithin M r

/-- The row that a request asks for, beside the one that there is. -/
structure Cell.Asks (r asked : IntegrationRow) : Prop where
  id : asked.id = r.id
  services : asked.services = r.services
  selected : ∀ n ∈ c.select asked.matchers, n ∈ M
  sources : ∀ src ∈ asked.sources, src ∈ r.sources ∨ c.SourceWithin M src
  members : r.services ≠ [] ∨ c.select asked.matchers = [] ∨ c.SourcesWithin M asked
  below : asked.matchers = r.matchers ∧ asked.ruleMatch = r.ruleMatch ∨
    (∀ m ∈ asked.matchers, m.2.includeDescendants = false) ∨ c.LogSourcesWithin M asked
  name : (∀ n ∈ r.services, n ∈ M) ∧ c.SourcesWithin M asked ∨ c.NameKept r.name asked.name

/-- A row that was edited: outside `M` it opens nothing. -/
structure Cell.Narrows (r row : IntegrationRow) : Prop where
  id : row.id = r.id
  selected : ∀ n ∈ c.select row.matchers, n ∈ M
  services : (∀ n ∈ row.services, n ∈ M) ∨
    row.services = r.services ∧ row.matchers = [] ∧ r.matchers = []
  sources : ∀ src ∈ row.sources, src ∈ r.sources ∨ c.SourceWithin M src
  members : r.services ≠ [] ∨ row.services = [] ∨ c.SourcesWithin M row
  below : row.services = r.services ∧ row.matchers = r.matchers ∧ row.ruleMatch = r.ruleMatch ∨
    (∀ m ∈ row.matchers, m.2.includeDescendants = false) ∨ c.LogSourcesWithin M row
  name : (∀ n ∈ row.services, n ∈ M) ∧ c.SourcesWithin M row ∨ c.NameKept r.name row.name

/-- Every row is one that a pass leaves as it is, or covers nothing outside `M`. -/
def Cell.Settled (s : State) : Prop := ∀ r ∈ s.rows, c.reconciled r = r ∨ c.Within M r

/-- The integrations of `s'` are settled, and those that cover something outside `M` are
integrations of `s`, as they were or narrowed. -/
def Cell.Follows (s s' : State) : Prop :=
  ∀ row ∈ s'.rows, c.Within M row ∨
    c.reconciled row = row ∧ (row ∈ s.rows ∨ ∃ r ∈ s.rows, c.Narrows M r row)

end Contained

section Rows

variable {F : Type} {c : Cell F} {M : Finset String} {r asked : IntegrationRow}

theorem within_reconciled (h : c.Within M r) : c.Within M (c.reconciled r) := by
  constructor
  · rw [reconciled_matchers]
    exact h.selected
  · rw [reconciled_services]
    split
    · exact h.services
    · exact h.selected
  · unfold Cell.SourcesWithin
    rw [reconciled_sources]
    exact h.sources

/-- What a request asks for, of a row that covers nothing outside `M`, covers nothing there. -/
theorem within_of_asks (hr : c.Within M r) (h : c.Asks M r asked) : c.Within M asked := by
  constructor
  · exact h.selected
  · rw [h.services]
    exact hr.services
  · intro src hsrc
    rcases h.sources src hsrc with hold | hnew
    · exact hr.sources src hold
    · exact hnew

theorem narrows_of_asks (hmanage : ∀ n ∈ c.select r.matchers, n ∈ M) (hsettled : c.reconciled r = r)
    (h : c.Asks M r asked) : c.Narrows M r (c.reconciled asked) := by
  rw [reconciled_eq_iff] at hsettled
  have hservices : (∀ n ∈ (c.reconciled asked).services, n ∈ M) ∨
      (c.reconciled asked).services = r.services ∧ asked.matchers = [] ∧ r.matchers = [] := by
    rw [reconciled_services, h.services]
    split
    · next hnone =>
      by_cases hold : r.matchers = []
      · exact .inr ⟨rfl, hnone, hold⟩
      · -- the last matcher goes, and what it selected stays stored
        rw [hsettled hold]
        exact .inl hmanage
    · exact .inl h.selected
  constructor
  · rw [c.reconciled_id, h.id]
  · rw [reconciled_matchers]
    exact h.selected
  · rw [reconciled_matchers]
    exact hservices
  · rw [reconciled_sources]
    exact h.sources
  · unfold Cell.SourcesWithin
    rw [reconciled_services, reconciled_sources, h.services]
    rcases h.members with hsome | hnone | hwithin
    · exact .inl hsome
    · split
      · by_cases hempty : r.services = []
        · exact .inr (.inl hempty)
        · exact .inl hempty
      · exact .inr (.inl hnone)
    · exact .inr (.inr hwithin)
  · unfold Cell.LogSourcesWithin
    rw [reconciled_services, reconciled_matchers, reconciled_ruleMatch, reconciled_sources,
      h.services]
    rcases h.below with ⟨hmatchers, hmode⟩ | hbelow
    · refine .inl ⟨?_, hmatchers, hmode⟩
      rw [hmatchers]
      split
      · rfl
      · next hne => exact (hsettled hne).symm
    · exact .inr hbelow
  · unfold Cell.SourcesWithin
    rw [reconciled_sources, reconciled_name]
    rcases h.name with ⟨hold, hwithin⟩ | hname
    · refine .inl ⟨?_, hwithin⟩
      rcases hservices with hnow | ⟨hsame, _⟩
      · exact hnow
      · rw [hsame]
        exact hold
    · exact .inr hname

end Rows

/-! ## What the checks let pass -/

section Passed

variable {F : Type} {c : Cell F} {M : Finset String} {s : State} {p : Principal}

theorem select_of_canManage (hM : (c.handlers s).managedServiceFilter p = some M) {id : UUID}
    {r : IntegrationRow} (hr : s.integration id = some r)
    (h : (c.handlers s).canManageIntegration p id) : ∀ n ∈ c.select r.matchers, n ∈ M := by
  have hnames : (c.handlers s).identity.catalog.integrationExpander id =
      .ok (c.select r.matchers) := by
    rw [← view_matched hr]
    exact (c.base.identity.answers_over (c.view s)).integrationExpander id
  unfold Handlers.canManageIntegration at h
  rw [hM, hnames] at h
  intro n hn
  exact of_decide_eq_true (List.all_eq_true.1 h n hn)

/-- Matchers that are contained select managed services only, or name one that the catalog does
not have. -/
theorem select_of_contained (hM : (c.handlers s).managedServiceFilter p = some M)
    {ms : List (UUID × GroupedMatcher)}
    (h : (c.handlers s).matcherContainmentOK p (ms.map fun m => m.2.toMatcher)) :
    ∀ n ∈ c.select ms, n ∈ M := by
  have hnames : (c.handlers s).identity.catalog.serviceUniverse = .ok c.names :=
    (c.base.identity.answers_over (c.view s)).serviceUniverse
  unfold Handlers.matcherContainmentOK at h
  rw [hM, hnames] at h
  intro n hn
  obtain ⟨hname, m, hm, _, hmatch⟩ := Integrations.mem_servicesForIntegration.1 hn
  obtain ⟨row, hrow, rfl⟩ := List.mem_map.1 hm
  have hcontained := List.all_eq_true.1 h _ (List.mem_map_of_mem hrow)
  rw [Bool.and_eq_true] at hcontained
  have hvetted := hcontained.2
  split at hvetted
  · next hequals =>
    have hvalue : n = row.2.value := by
      simpa [Matcher.matchService, hequals] using hmatch
    rw [hvalue]
    exact of_decide_eq_true hvetted
  · have hcase := List.all_eq_true.1 hvetted n hname
    have hmatch' : row.2.matchService (c.handlers s).identity.compile n := hmatch
    simpa [hmatch'] using hcase

theorem NameKept.refl (c : Cell F) (name : String) : c.NameKept name name :=
  ⟨fun _ _ _ _ _ _ haccepts => haccepts, id⟩

section Edited

variable {r asked : IntegrationRow}

theorem members_of_fewer (hinv : c.reconciled r = r ∨ c.Within M r)
    (hfewer : ∀ n ∈ c.select asked.matchers, n ∈ c.select r.matchers)
    (hsources : ∀ src ∈ asked.sources, src ∈ r.sources ∨ c.SourceWithin M src) :
    r.services ≠ [] ∨ c.select asked.matchers = [] ∨ c.SourcesWithin M asked := by
  rcases hinv with hsettled | hwithin
  · rw [reconciled_eq_iff] at hsettled
    by_cases hservices : r.services = []
    · refine .inr (.inl (List.eq_nil_iff_forall_not_mem.2 fun n hn => ?_))
      have hn' := hfewer n hn
      by_cases hmatchers : r.matchers = []
      · rw [hmatchers] at hn'
        simp [Cell.select, servicesForIntegration] at hn'
      · rw [← hsettled hmatchers, hservices] at hn'
        cases hn'
    · exact .inl hservices
  · refine .inr (.inr fun src hsrc => ?_)
    exact (hsources src hsrc).elim (hwithin.sources src) id

theorem asks_of_filter (hmanage : ∀ n ∈ c.select r.matchers, n ∈ M)
    (hinv : c.reconciled r = r ∨ c.Within M r) (q : UUID × GroupedMatcher → Bool)
    (hbelow : c.BelowContained M r (r.matchers.filter q)) :
    c.Asks M r { r with matchers := r.matchers.filter q } where
  id := rfl
  services := rfl
  selected := fun n hn => hmanage n (select_filter q hn)
  sources := fun _ hsrc => .inl hsrc
  members := members_of_fewer hinv (fun _ hn => select_filter q hn) fun _ hsrc => .inl hsrc
  below := .inr hbelow
  name := .inr (NameKept.refl c r.name)

theorem asks_of_matchers {ms : List (UUID × GroupedMatcher)} {mode : RuleMatch}
    (hselected : ∀ n ∈ c.select ms, n ∈ M) (hmembers : c.MembersContained M r ms)
    (hbelow : c.BelowContained M r ms) :
    c.Asks M r { r with matchers := ms, ruleMatch := mode } where
  id := rfl
  services := rfl
  selected := hselected
  sources := fun _ hsrc => .inl hsrc
  members := hmembers
  below := .inr hbelow
  name := .inr (NameKept.refl c r.name)

theorem mem_of_mapM_eq_ok {α β ε : Type} {f : α → Except ε β} {l : List α} {out : List β}
    (h : l.mapM f = .ok out) {y : β} (hy : y ∈ out) : ∃ x ∈ l, f x = .ok y := by
  induction l generalizing out with
  | nil =>
    obtain rfl : [] = out := Except.ok.inj h
    cases hy
  | cons x l ih =>
    simp only [List.mapM_cons, bind_eq_ok, pure_eq_ok] at h
    obtain ⟨first, hfirst, rest, hrest, rfl⟩ := h
    rcases List.mem_cons.1 hy with rfl | hmem
    · exact ⟨x, List.mem_cons_self, hfirst⟩
    · obtain ⟨x', hx', heq⟩ := ih hrest hmem
      exact ⟨x', List.mem_cons_of_mem _ hx', heq⟩

theorem mem_of_acceptSources {compile : String → Option (String → Bool)}
    {parseFloat : String → Bool} {sources stored : List Source}
    (h : acceptSources compile parseFloat sources = .ok stored) {src : Source}
    (hsrc : src ∈ stored) : ∃ asked ∈ sources, src = asked.trimmed := by
  unfold acceptSources at h
  split at h
  · cases h
  obtain ⟨given, hgiven, hsame⟩ := mem_of_mapM_eq_ok h hsrc
  simp only [bind_eq_ok, pure_eq_ok] at hsame
  obtain ⟨_, _, rfl⟩ := hsame
  exact ⟨given, hgiven, rfl⟩

/-- **Every request that the checks let pass, and that meets its condition, asks for a row that
opens nothing outside what the caller manages.** -/
theorem asks_of_edited (hM : (c.handlers s).managedServiceFilter p = some M)
    (hmanage : ∀ n ∈ c.select r.matchers, n ∈ M) (hinv : c.reconciled r = r ∨ c.Within M r)
    {e : Edit} (hcond : c.EditContained M r e)
    (hedit : c.edited (c.handlers s) p r e = some asked) : c.Asks M r asked := by
  cases e with
  | updateIntegration name ruleMatch =>
    obtain ⟨hname, hbelow⟩ := hcond
    simp only [Cell.edited, updateIntegration, Option.ite_none_left_eq_some,
      Option.some.injEq] at hedit
    obtain ⟨_, rfl⟩ := hedit
    exact {
      id := rfl
      services := rfl
      selected := hmanage
      sources := fun _ hsrc => .inl hsrc
      members := members_of_fewer hinv (fun _ hn => hn) fun _ hsrc => .inl hsrc
      below := hbelow.imp (fun hmode => ⟨rfl, hmode⟩) id
      name := hname }
  | addMatcher id m =>
    simp only [Cell.edited, addMatcher, Option.ite_none_right_eq_some, Option.some.injEq] at hedit
    obtain ⟨haccept, rfl⟩ := hedit
    have hcontained := (Bool.and_eq_true_iff.1 haccept).1
    refine asks_of_matchers (fun n hn => ?_) hcond.1 hcond.2
    rcases select_append hn with hold | hnew
    · exact hmanage n hold
    · exact select_of_contained hM hcontained n hnew
  | replaceMatchers ms ruleMatch =>
    simp only [Cell.edited, replaceMatchers, Option.ite_none_right_eq_some,
      Option.some.injEq] at hedit
    obtain ⟨haccept, rfl⟩ := hedit
    have hcontained := (Bool.and_eq_true_iff.1 haccept).1
    exact asks_of_matchers (select_of_contained hM hcontained) hcond.1 hcond.2
  | removeMatcher id =>
    simp only [Cell.edited, removeMatcher, Option.ite_none_right_eq_some,
      Option.some.injEq] at hedit
    obtain ⟨_, rfl⟩ := hedit
    exact asks_of_filter hmanage hinv _ hcond
  | removeServiceFromIntegration name =>
    simp only [Cell.edited, removeServiceFromIntegration, Option.ite_none_right_eq_some,
      Option.some.injEq] at hedit
    obtain ⟨_, rfl⟩ := hedit
    exact asks_of_filter hmanage hinv _ hcond
  | putIntegrationSources sources =>
    simp only [Cell.edited, Cell.putIntegrationSources, Option.ite_none_right_eq_some] at hedit
    obtain ⟨_, hedit⟩ := hedit
    split at hedit
    · cases hedit
    · next stored hstored =>
      obtain rfl := Option.some.inj hedit
      have hsources : ∀ src ∈ stored, src ∈ r.sources ∨ c.SourceWithin M src := by
        intro src hsrc
        obtain ⟨given, hgiven, rfl⟩ := mem_of_acceptSources hstored hsrc
        exact hcond given hgiven
      exact {
        id := rfl
        services := rfl
        selected := hmanage
        sources := hsources
        members := members_of_fewer hinv (fun _ hn => hn) hsources
        below := .inl ⟨rfl, rfl⟩
        name := .inr (NameKept.refl c r.name) }

end Edited

end Passed

/-! ## Steps, row by row -/

section Rows

variable {F : Type} {c : Cell F} {M : Finset String} {s s₁ : State}

theorem settled_of_follows (h : c.Follows M s s₁) : c.Settled M s₁ := by
  intro row hrow
  rcases h row hrow with hwithin | ⟨hsettled, _⟩
  · exact .inr hwithin
  · exact .inl hsettled

theorem follows_refl (hinv : c.Settled M s) : c.Follows M s s := by
  intro row hrow
  rcases hinv row hrow with hsettled | hwithin
  · exact .inr ⟨hsettled, .inl hrow⟩
  · exact .inl hwithin

theorem follows_reconcile (h : c.Follows M s s₁) : c.Follows M s (c.reconcile s₁) := by
  intro row hrow
  obtain ⟨r, hr, rfl⟩ := List.mem_map.1 hrow
  rcases h r hr with hwithin | ⟨hsettled, hfrom⟩
  · exact .inl (within_reconciled hwithin)
  · rw [hsettled]
    exact .inr ⟨hsettled, hfrom⟩

variable {row asked : IntegrationRow}

theorem follows_insert (hinv : c.Settled M s) (hrow : c.Within M row) :
    c.Follows M s (s.insert row) := by
  unfold State.insert
  split
  · exact follows_refl hinv
  intro r hr
  rcases List.mem_cons.1 hr with rfl | hold
  · exact .inl hrow
  · exact follows_refl hinv r hold

theorem mem_put (h : row ∈ (s.put asked).rows) : row = asked ∨ row ∈ s.rows := by
  obtain ⟨r, hr, ⟨hid, rfl⟩ | ⟨_, rfl⟩⟩ := mem_updateWhere.1 h
  · left
    rw [of_decide_eq_true hid]
  · exact .inr hr

theorem follows_reconcile_put (hinv : c.Settled M s) {r : IntegrationRow} (hr : r ∈ s.rows)
    (hmanage : ∀ n ∈ c.select r.matchers, n ∈ M) (h : c.Asks M r asked) :
    c.Follows M s (c.reconcile (s.put asked)) := by
  intro row hrow
  obtain ⟨r₁, hr₁, rfl⟩ := List.mem_map.1 hrow
  rcases mem_put hr₁ with rfl | hold
  · rcases hinv r hr with hsettled | hwithin
    · exact .inr ⟨reconciled_reconciled r₁, .inr ⟨r, hr, narrows_of_asks hmanage hsettled h⟩⟩
    · exact .inl (within_reconciled (within_of_asks hwithin h))
  · exact follows_reconcile (follows_refl hinv) _ (List.mem_map_of_mem hold)

theorem follows_put (hinv : c.Settled M s) {r : IntegrationRow} (hr : r ∈ s.rows)
    (hmanage : ∀ n ∈ c.select r.matchers, n ∈ M) (h : c.Asks M r asked)
    (hmatchers : asked.matchers = r.matchers) : c.Follows M s (s.put asked) := by
  intro row hrow
  rcases mem_put hrow with rfl | hold
  · rcases hinv r hr with hsettled | hwithin
    · have hsame : c.reconciled row = row := by
        rw [reconciled_eq_iff] at hsettled ⊢
        rw [hmatchers, h.services]
        exact hsettled
      have hnarrows := narrows_of_asks hmanage hsettled h
      rw [hsame] at hnarrows
      exact .inr ⟨hsame, .inr ⟨r, hr, hnarrows⟩⟩
    · exact .inl (within_of_asks hwithin h)
  · exact follows_refl hinv row hold

theorem within_new (hselected : ∀ n ∈ c.select row.matchers, n ∈ M) (hservices : row.services = [])
    (hsources : row.sources = []) : c.Within M row := by
  constructor
  · exact hselected
  · rw [hservices]
    exact fun n hn => absurd hn List.not_mem_nil
  · unfold Cell.SourcesWithin
    rw [hsources]
    exact fun src hsrc => absurd hsrc List.not_mem_nil

/-- **What a request does to the integrations.**  One that meets its condition leaves every
integration as it was, or narrowed, or covering only what the caller manages. -/
theorem follows_step {caller : AuthPrincipal} {a : Request}
    (hM : (c.handlers s).managedServiceFilter caller.toPrincipal = some M)
    (hinv : c.Settled M s) (hcond : c.Contained M s a) : c.Follows M s (c.step caller s a) := by
  cases a with
  | pass => exact follows_reconcile (follows_refl hinv)
  | createIntegration id name ruleMatch ms =>
    simp only [Cell.step]
    split
    · split
      · exact follows_refl hinv
      · next row hrow =>
        simp only [createIntegration, Option.ite_none_left_eq_some, not_or, Option.some.injEq,
          Bool.not_eq_false] at hrow
        obtain ⟨⟨_, haccept⟩, rfl⟩ := hrow
        have hcontained := (Bool.and_eq_true_iff.1 haccept).1
        refine follows_reconcile (follows_insert hinv (within_new ?_ rfl rfl))
        exact select_of_contained hM hcontained
    · exact follows_refl hinv
  | cloneIntegration src id name copy =>
    simp only [Cell.step]
    split
    · split
      · exact follows_refl hinv
      · next row hrow =>
        rw [Option.bind_eq_some_iff] at hrow
        obtain ⟨r, _, hclone⟩ := hrow
        simp only [cloneIntegration, Option.ite_none_left_eq_some, not_or, Option.some.injEq,
          Bool.not_eq_false] at hclone
        obtain ⟨⟨_, hcontained⟩, rfl⟩ := hclone
        refine follows_insert hinv (within_new ?_ rfl rfl)
        rw [select_copies]
        exact select_of_contained hM hcontained
    · exact follows_refl hinv
  | edit id e =>
    simp only [Cell.step]
    split
    · next hchecks =>
      have hcan := (Bool.and_eq_true_iff.1 hchecks).2
      split
      · exact follows_refl hinv
      · next asked hasked =>
        rw [Option.bind_eq_some_iff] at hasked
        obtain ⟨r, hr, hedit⟩ := hasked
        have hrow := integration_eq_some.1 hr
        have hmanage := select_of_canManage hM hr hcan
        have hasks : c.Asks M r asked :=
          asks_of_edited hM hmanage (hinv r hrow.1) (hcond r hrow.1 hrow.2) hedit
        split
        · exact follows_reconcile_put hinv hrow.1 hmanage hasks
        · next hnone =>
          -- only the sources are written without a pass
          refine follows_put hinv hrow.1 hmanage hasks ?_
          cases e with
          | putIntegrationSources sources =>
            simp only [Cell.edited, Cell.putIntegrationSources,
              Option.ite_none_right_eq_some] at hedit
            obtain ⟨_, hedit⟩ := hedit
            split at hedit
            · cases hedit
            · obtain rfl := Option.some.inj hedit
              rfl
          | updateIntegration _ _ => exact absurd rfl hnone
          | addMatcher _ _ => exact absurd rfl hnone
          | replaceMatchers _ _ => exact absurd rfl hnone
          | removeMatcher _ => exact absurd rfl hnone
          | removeServiceFromIntegration _ => exact absurd rfl hnone
    · exact follows_refl hinv

end Rows

end Sluicio.Api.IntegrationWrites
