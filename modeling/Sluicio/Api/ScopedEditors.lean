import Sluicio.Api.Containment

/-!
# What a scoped editor opens

The integrations after a contained request show of a service outside the managed set what they
showed before, and so does a run of such requests.
-/

namespace Sluicio.Api.IntegrationWrites

open Identity Lib Integrations
open Store (Row)
open Integrations (GroupedMatcher Source SourceSignal ResolvedSource NamesExactly Selected
  attrGroupsFromMatchers resolveSources sliceScope)

section Shown

variable {F : Type} {c : Cell F} {M : Finset String} {s s' : State}

/-- What a read of an integration's metrics or logs asks for. -/
def Cell.slice (c : Cell F) (r : IntegrationRow) (signal : SourceSignal) (envs : List String) :
    Integrations.Scope :=
  sliceScope r.services (attrGroupsFromMatchers (r.matchers.map Prod.snd) r.ruleMatch)
    (resolveSources c.systemMembers signal r.sources) signal envs

variable {r : IntegrationRow} {id : UUID}

theorem integrationSignalScope_eq (hr : s.integration id = some r) {sig : Signal}
    {signal : SourceSignal} (hsig : sourceSignal sig = some signal) (envs : List String) :
    (c.handlers s).integrationSignalScope (c.telemetry s envs) id ((c.view s).attached id) sig =
      c.slice r signal envs := by
  rw [view_attached hr]
  unfold Handlers.integrationSignalScope
  rw [hsig]
  show sliceScope r.services
      (attrGroupsFromMatchers
        (((s.integration id).map fun r => r.matchers.map Prod.snd).getD [])
        (((s.integration id).map IntegrationRow.ruleMatch).getD .any))
      (resolveSources c.systemMembers signal
        (((s.integration id).map IntegrationRow.sources).getD [])) signal envs = _
  rw [hr]
  rfl

section Slice

variable {start stop : Int} {r r' : IntegrationRow} {signal : SourceSignal}
  {envs : List String} {row : Row}

theorem origin_of_selected (h : Selected c.cfg c.engine c.traces start stop
    (c.slice r signal envs) row) :
    row.serviceName ∈ r.services ∨ ∃ src ∈ r.sources, src.signal = signal ∧
      row.serviceName ∈ src.origin.services c.systemMembers := by
  rcases selected_services h with hmember | ⟨source, hsource, hname⟩
  · exact .inl hmember
  · obtain ⟨src, hsrc, hsignal, _, rfl⟩ := mem_resolveSources.1 hsource
    exact .inr ⟨src, hsrc, hsignal, hname⟩

theorem not_selected_of_within (hwithin : c.Within M r) (hrow : row.serviceName ∉ M) :
    ¬ Selected c.cfg c.engine c.traces start stop (c.slice r signal envs) row := by
  intro h
  rcases origin_of_selected h with hmember | ⟨src, hsrc, _, hname⟩
  · exact hrow (hwithin.services _ hmember)
  · exact hrow (hwithin.sources src hsrc _ hname)

/-- **An edited integration shows a row outside `M` only as it showed it.** -/
theorem slice_of_narrows (hnames : NamesExactly c.engine) (h : c.Narrows M r r')
    (hrow : row.serviceName ∉ M) (hlogs : row.table ≠ .metricAttributes → signal = .logs)
    (hsome : r'.services ≠ [])
    (hselected : Selected c.cfg c.engine c.traces start stop (c.slice r' signal envs) row) :
    (r.services ≠ [] ∧
      Selected c.cfg c.engine c.traces start stop (c.slice r signal envs) row) ∧
      c.NameKept r.name r'.name := by
  have hmember : row.serviceName ∈ r'.services →
      r'.services = r.services ∧ r'.matchers = [] ∧ r.matchers = [] := fun hin =>
    h.services.resolve_left fun hall => hrow (hall _ hin)
  have hold : ∀ src ∈ r'.sources, row.serviceName ∈ src.origin.services c.systemMembers →
      src ∈ r.sources := fun src hsrc hname =>
    (h.sources src hsrc).resolve_right fun hwithin => hrow (hwithin _ hname)
  have horigin := origin_of_selected hselected
  have hmembers : r.services ≠ [] := by
    rcases h.members with hne | hnone | hwithin
    · exact hne
    · exact absurd hnone hsome
    · rcases horigin with hin | ⟨src, hsrc, _, hname⟩
      · rw [← (hmember hin).1]
        exact hsome
      · exact absurd (hwithin src hsrc _ hname) hrow
  have hname : c.NameKept r.name r'.name := by
    refine h.name.resolve_left fun hall => ?_
    rcases horigin with hin | ⟨src, hsrc, _, hname⟩
    · exact hrow (hall.1 _ hin)
    · exact hrow (hall.2 src hsrc _ hname)
  have hnoSource : ∀ q : IntegrationRow,
      ∀ g ∈ attrGroupsFromMatchers (q.matchers.map Prod.snd) q.ruleMatch,
        ¬ Store.isSourceGroup g := fun q =>
    (attrGroupsFromMatchers_fromMatchers _ _).noSource
  have hservices : ∀ q : IntegrationRow,
      ∀ source ∈ resolveSources c.systemMembers signal q.sources, source.services ≠ [] := by
    intro q source hsource
    obtain ⟨_, _, _, hne, rfl⟩ := mem_resolveSources.1 hsource
    exact hne
  refine ⟨⟨hmembers, ?_⟩, hname⟩
  refine selected_of_changed hnames (hnoSource r) (hnoSource r') (hservices r)
    (hservices r') ?_ ?_ ?_ hselected
  · intro hin
    obtain ⟨hsame, hnone', hnone⟩ := hmember hin
    rw [hnone', hnone]
    exact ⟨hsame, rfl, rfl⟩
  · intro source hsource hin
    obtain ⟨src, hsrc, hsignal, hne, rfl⟩ := mem_resolveSources.1 hsource
    exact mem_resolveSources.2 ⟨src, hold src hsrc hin, hsignal, hne, rfl⟩
  · rintro ⟨source, hsource, hin⟩ htable hdescendants
    rcases h.below with ⟨hsame, hmatchers, hmode⟩ | hplain | hwithin
    · rw [hmatchers, hmode]
      exact ⟨hsame, rfl⟩
    · obtain ⟨m, hm, hflag⟩ := includeDescendants_of_attrGroups hdescendants
      obtain ⟨x, hx, rfl⟩ := List.mem_map.1 hm
      rw [hplain x hx] at hflag
      cases hflag
    · obtain ⟨src, hsrc, hsignal, _, rfl⟩ := mem_resolveSources.1 hsource
      rw [hlogs htable] at hsignal
      exact absurd (hwithin src hsrc hsignal _ hin) hrow

end Slice

theorem keepsName_of_nameKept {r' : IntegrationRow} (hr : s.integration id = some r)
    (hr' : s'.integration id = some r') (h : c.NameKept r.name r'.name) :
    c.base.identity.KeepsName (c.view s) (c.view s') id ∧
      KeepsAskable (c.view s) (c.view s') id := by
  constructor
  · intro name hname
    rw [mem_entities hr'] at hname
    subst hname
    exact ⟨r.name, (mem_entities hr).2 rfl, h.1⟩
  · intro name' hname' hask name hname
    rw [mem_entities hr'] at hname'
    rw [mem_entities hr] at hname
    subst hname' hname
    exact h.2 hask

theorem integration_of_mem (hr : s'.integration id = some r) (hold : r ∈ s.rows) :
    s.integration id = some r :=
  integration_eq_some.2 ⟨hold, (integration_eq_some.1 hr).2⟩

/-- **Integrations that were narrowed show no more of a row outside `M`.** -/
theorem showsNoMore_of_follows (hnames : NamesExactly c.engine) (h : c.Follows M s s')
    {row : Row} (hrow : row.serviceName ∉ M) (envs : List String) :
    c.base.ShowsNoMore (c.view s) (c.view s') (c.telemetry s envs) (c.telemetry s' envs) row where
  rows := ⟨rfl, rfl, rfl, rfl⟩
  service := by
    intro id hin
    obtain ⟨r', hr'⟩ := integration_of_matched hin
    rw [view_matched hr'] at hin
    rcases h r' (integration_eq_some.1 hr').1 with hwithin | ⟨_, hold | ⟨r, _, hnarrows⟩⟩
    · exact absurd (hwithin.selected _ hin) hrow
    · have hr := integration_of_mem hr' hold
      rw [view_matched hr]
      refine ⟨hin, fun name hname => ?_⟩
      rw [mem_entities hr'] at hname
      exact (mem_entities hr).2 hname
    · exact absurd (hnarrows.selected _ hin) hrow
  spans := by
    intro id hin
    obtain ⟨r', hr'⟩ := integration_of_attached (List.ne_nil_of_mem hin)
    rw [view_attached hr'] at hin
    rcases h r' (integration_eq_some.1 hr').1 with hwithin | ⟨_, hold | ⟨r, hr, hnarrows⟩⟩
    · exact absurd (hwithin.services _ hin) hrow
    · have hr := integration_of_mem hr' hold
      rw [view_attached hr', view_attached hr, integrationGroups_eq hr', integrationGroups_eq hr]
      exact ⟨rfl, rfl, (keepsName_of_nameKept hr hr' (NameKept.refl c r'.name)).1⟩
    · have hid := (integration_eq_some.1 hr').2
      have hr₀ : s.integration id = some r :=
        integration_eq_some.2 ⟨hr, hnarrows.id.symm.trans hid⟩
      obtain ⟨hsame, hnone', hnone⟩ :=
        hnarrows.services.resolve_left fun hall => hrow (hall _ hin)
      have hname := hnarrows.name.resolve_left fun hall => hrow (hall.1 _ hin)
      rw [view_attached hr', view_attached hr₀, integrationGroups_eq hr',
        integrationGroups_eq hr₀, hnone', hnone]
      exact ⟨hsame, rfl, (keepsName_of_nameKept hr₀ hr' hname).1⟩
  slices := by
    intro id sig signal start stop hsig hsignal hattached hselected
    obtain ⟨r', hr'⟩ := integration_of_attached hattached
    have hlogs : row.table ≠ .metricAttributes → signal = .logs := by
      intro htable
      cases row with
      | span _ =>
        rcases List.mem_pair.1 hsig with rfl | rfl
        · cases hsignal
        · cases hsignal
      | log _ =>
        rw [List.mem_singleton.1 hsig] at hsignal
        exact (Option.some.inj hsignal).symm
      | metric _ => exact absurd rfl htable
    have hselected' : Selected c.cfg c.engine c.traces start stop (c.slice r' signal envs) row := by
      rw [← integrationSignalScope_eq hr' hsignal]
      exact hselected
    rw [view_attached hr'] at hattached
    rcases h r' (integration_eq_some.1 hr').1 with hwithin | ⟨_, hold | ⟨r, hr, hnarrows⟩⟩
    · exact absurd hselected' (not_selected_of_within hwithin hrow)
    · have hr := integration_of_mem hr' hold
      refine ⟨⟨?_, ?_⟩, keepsName_of_nameKept hr hr' (NameKept.refl c r'.name)⟩
      · rw [view_attached hr]
        exact hattached
      · have hscope := integrationSignalScope_eq (c := c) hr hsignal envs
        show Selected c.cfg c.engine c.traces start stop
          ((c.handlers s).integrationSignalScope (c.telemetry s envs) id
            ((c.view s).attached id) sig) row
        rw [hscope]
        exact hselected'
    · have hid := (integration_eq_some.1 hr').2
      have hr₀ : s.integration id = some r :=
        integration_eq_some.2 ⟨hr, hnarrows.id.symm.trans hid⟩
      obtain ⟨⟨hsome, hold⟩, hname⟩ :=
        slice_of_narrows hnames hnarrows hrow hlogs hattached hselected'
      refine ⟨⟨?_, ?_⟩, keepsName_of_nameKept hr₀ hr' hname⟩
      · rw [view_attached hr₀]
        exact hsome
      · show Selected c.cfg c.engine c.traces start stop
          ((c.handlers s).integrationSignalScope (c.telemetry s envs) id
            ((c.view s).attached id) sig) row
        rw [integrationSignalScope_eq hr₀ hsignal]
        exact hold

end Shown

section Runs

variable {F : Type} {c : Cell F} {M : Finset String} {s s' : State} {p : Principal} {row : Row}

/-- Whoever reads a row outside `M` after a step that meets its condition read it before. -/
theorem canRead_of_follows (hnames : NamesExactly c.engine) (h : c.Follows M s s')
    (hrow : row.serviceName ∉ M) (hread : c.CanRead s' p row) : c.CanRead s p row := by
  rcases hread with hservice | ⟨envs, start, stop, hthrough⟩
  · have hno := showsNoMore_of_follows hnames h hrow []
    exact .inl (readsService_of_over hno.service hservice)
  · have hno := showsNoMore_of_follows hnames h hrow envs
    exact .inr ⟨envs, start, stop, readsThrough_of_over hno hthrough⟩

/-- The caller's managed set is `M` when a request is made. -/
def Cell.Managing (c : Cell F) (caller : AuthPrincipal) (M : Finset String) (s : State)
    (_ : Request) : Prop :=
  (c.handlers s).managedServiceFilter caller.toPrincipal = some M

theorem canRead_of_run (hnames : NamesExactly c.engine) {caller : AuthPrincipal} {as : List Request}
    (hrow : row.serviceName ∉ M) (hM : StepsMeet (c.step caller) (c.Managing caller M) s as)
    (hinv : c.Settled M s) (hcond : StepsMeet (c.step caller) (c.Contained M) s as)
    (hread : c.CanRead (run (c.step caller) s as) p row) : c.CanRead s p row := by
  induction as generalizing s with
  | nil => exact hread
  | cons a as ih =>
    have hfollows := follows_step hM.1 hinv hcond.1
    have hnext : c.CanRead (c.step caller s a) p row :=
      ih hM.2 (settled_of_follows hfollows) hcond.2 hread
    exact canRead_of_follows hnames hfollows hrow hnext

theorem settled_of_reconcile (h : c.reconcile s = s) : c.Settled M s := by
  have hrows : s.rows.map c.reconciled = s.rows.map id := by
    rw [List.map_id]
    exact congrArg State.rows h
  intro r hr
  exact .inl (List.map_inj_left.1 hrows r hr)

/-- **When a scoped editor widens nobody's reach.**  In a run of requests of a caller that
manages `M`, with the catalog settled, each of which is contained, every row that a principal
can read at the end and could not read at the start is of a service in `M`. -/
theorem newly_read_within_managed (c : Cell F) (caller : AuthPrincipal) (M : Finset String)
    (s : State) (as : List Request) (hnames : NamesExactly c.engine)
    (hM : StepsMeet (c.step caller) (c.Managing caller M) s as) (hcatalog : c.reconcile s = s)
    (hcond : StepsMeet (c.step caller) (c.Contained M) s as) (p : Principal) (row : Row)
    (hafter : c.CanRead (run (c.step caller) s as) p row) (hbefore : ¬ c.CanRead s p row) :
    row.serviceName ∈ M := by
  by_contra hrow
  exact hbefore (canRead_of_run hnames hrow hM (settled_of_reconcile hcatalog) hcond hafter)

end Runs

/-! An editor of the orders and of billing, and a viewer of two integrations: the order flow,
and one that has no members yet and the payroll's metrics as a source. -/

private def editor : AuthPrincipal :=
  { kind := .user, userID := some 1, role := .viewer, orgID := some 1 }

private def viewer : Principal := { kind := .user, userID := some 2, role := .viewer }

private def metricsOf (name : String) : Source := { signal := .metrics, origin := .service name }

private def onOrders : UUID × GroupedMatcher :=
  (1, { attr := "service.name", operator := .equals, value := "orders" })

private def flows : State where
  rows :=
    [{ id := 7, name := "order-flow", matchers := [onOrders], services := ["orders"] },
     { id := 8, name := "shared", sources := [metricsOf "payroll"] }]
  rowKey := by decide

private def shop : Cell Nat where
  auth :=
    { groups := [⟨1, 1⟩], groupMembers := [⟨1, .user 1, .editor⟩] }
  base :=
    { identity :=
        { policies :=
            [{ id := 1, groupID := 1, kind := .service, targetServiceName := some "orders" },
             { id := 2, groupID := 1, kind := .service, targetServiceName := some "billing" },
             { id := 3, groupID := 2, kind := .integration, targetIntegrationID := some 7 },
             { id := 4, groupID := 2, kind := .integration, targetIntegrationID := some 8 }]
          policyKey := by decide
          members := [⟨1, .user 1, .editor⟩, ⟨2, .user 2, .viewer⟩]
          shares := []
          attributes := []
          catalog :=
            { services :=
                [⟨"orders", false, "", none⟩, ⟨"billing", false, "", none⟩,
                 ⟨"payroll", false, "", none⟩]
              serviceKey := by decide
              systems := []
              integrations := []
              matched := fun _ => []
              attached := fun _ => [] }
          compile := fun _ => none } }
  cfg := ⟨"", []⟩
  engine :=
    { regex := matchesAlternatives
      parseFloat := fun _ => none
      toFloat64OrNull := fun _ => none
      compare := fun _ _ _ => false }
  traces := []
  parseFloat := fun _ => false

private def managed : Finset String := {"orders", "billing"}

private def gauge (name : String) : Row := .metric ⟨name, "queue.depth", "", [], []⟩

private theorem shop_namesExactly : NamesExactly shop.engine :=
  namesExactly_of_alternatives rfl

private theorem canRead_gauge {s : State} (id : UUID) {r : IntegrationRow} {name : String}
    (hr : s.integration id = some r) (hsome : r.services ≠ []) (hask : Askable r.name)
    (hgranted : ∃ granted, (shop.handlers s).grantedIntegrationsForSignal viewer .metrics =
      some granted ∧ id ∈ granted) (hsource : metricsOf name ∈ r.sources) :
    shop.CanRead s viewer (gauge name) := by
  have hresolved : (⟨[name], [], []⟩ : ResolvedSource) ∈
      resolveSources shop.systemMembers .metrics r.sources :=
    mem_resolveSources.2 ⟨metricsOf name, hsource, rfl, List.cons_ne_nil _ _, rfl⟩
  have hservices : ∀ source ∈ resolveSources shop.systemMembers .metrics r.sources,
      source.services ≠ [] := by
    intro source hmem
    obtain ⟨_, _, _, hne, rfl⟩ := mem_resolveSources.1 hmem
    exact hne
  have hmeets : Integrations.BySource shop.cfg shop.engine
      (resolveSources shop.systemMembers .metrics r.sources) .metrics [] (gauge name) := by
    refine ⟨_, hresolved, ?_, inEnvironments_nil _⟩
    exact meets_singleton _ |>.2 <|
      (anyOf_yes shop_namesExactly (List.cons_ne_nil name []) rfl rfl rfl).2
        (List.mem_singleton_self name)
  have hselected : Selected shop.cfg shop.engine shop.traces 0 0 (shop.slice r .metrics [])
      (gauge name) :=
    selected_of_bySource shop_namesExactly
      (attrGroupsFromMatchers_fromMatchers _ _).noSource hservices hmeets
  have hscope : (shop.handlers s).integrationSignalScope (shop.telemetry s []) id
      ((shop.view s).attached id) .metrics = shop.slice r .metrics [] :=
    integrationSignalScope_eq hr rfl []
  rw [← hscope] at hselected
  have hattached : (shop.view s).attached id ≠ [] := by
    rw [view_attached hr]
    exact hsome
  obtain ⟨scope, hscope', hrow⟩ := integrationSliceScope_over.2 ⟨hgranted, hattached, hselected⟩
  exact .inr ⟨[], 0, 0, .slice (List.mem_singleton_self _) rfl
    ((mem_entities (c := shop) hr).2 rfl) hask hscope' hrow⟩

private theorem not_canRead_gauge {name : String} (hname : name ≠ "orders") :
    ¬ shop.CanRead flows viewer (gauge name) := by
  rintro (⟨sig, hsig, hfilter⟩ | ⟨envs, start, stop, hthrough⟩)
  · have hnone : (shop.handlers flows).signalServiceFilter viewer .metrics = some ∅ := by
      decide +kernel
    rw [List.mem_singleton.1 hsig] at hfilter
    exact absurd (hfilter _ hnone) (Finset.notMem_empty _)
  · unfold gauge at hthrough
    cases hthrough with
    | slice hsig hsource hentity hask hscope hrow =>
      next sig id integration scope =>
      obtain rfl := List.mem_singleton.1 hsig
      obtain ⟨_, hattached, hselected⟩ := integrationSliceScope_over.1 ⟨scope, hscope, hrow⟩
      obtain ⟨r, hr⟩ := integration_of_attached hattached
      have hselected' : Selected shop.cfg shop.engine shop.traces start stop
          (shop.slice r .metrics envs) (gauge name) := by
        have hscope : (shop.handlers flows).integrationSignalScope (shop.telemetry flows envs) id
            ((shop.view flows).attached id) .metrics = shop.slice r .metrics envs :=
          integrationSignalScope_eq hr rfl envs
        rw [← hscope]
        exact hselected
      rw [view_attached hr] at hattached
      have hrow' := (integration_eq_some.1 hr).1
      rcases List.mem_pair.1 hrow' with rfl | rfl
      · rcases origin_of_selected hselected' with hmember | ⟨src, hsrc, _⟩
        · exact hname (List.mem_singleton.1 hmember)
        · exact absurd hsrc List.not_mem_nil
      · exact hattached rfl

private theorem flows_managed :
    (shop.handlers flows).managedServiceFilter editor.toPrincipal = some managed := by
  decide +kernel

private theorem flows_settled : shop.reconcile flows = flows := by
  ext1
  decide +kernel

private def putMetrics (name : String) : Request :=
  .edit 7 (.putIntegrationSources [metricsOf name])

private def addOrders : Request := .edit 8 (.addMatcher 2 onOrders.2)

/-- With the metrics of billing as a source, the viewer reads them; the editor manages
billing. -/
theorem newly_read_within_managed_billing :
    shop.CanRead (run (shop.step editor) flows [putMetrics "billing"]) viewer (gauge "billing") ∧
      ¬ shop.CanRead flows viewer (gauge "billing") ∧ "billing" ∈ managed := by
  have hafter : shop.CanRead (shop.step editor flows (putMetrics "billing")) viewer
      (gauge "billing") := by
    refine canRead_gauge 7
      (r := { id := 7, name := "order-flow", matchers := [onOrders], services := ["orders"],
              sources := [metricsOf "billing"] }) ?_ ?_ ?_ ?_ ?_
    · decide +kernel
    · decide
    · exact ⟨⟨"order-flow", by decide +kernel⟩, by decide, by decide⟩
    · exact ⟨{7, 8}, by decide +kernel, by decide⟩
    · exact List.mem_singleton_self _
  have hbefore : ¬ shop.CanRead flows viewer (gauge "billing") := not_canRead_gauge (by decide)
  have hcontained : shop.Contained managed flows (putMetrics "billing") := by
    have htrimmed : (metricsOf "billing").trimmed = metricsOf "billing" := by decide +kernel
    intro r _ _ src hsrc
    rw [List.mem_singleton.1 hsrc, htrimmed]
    refine .inr fun n hn => ?_
    rw [List.mem_singleton.1 hn]
    decide
  exact ⟨hafter, hbefore,
    newly_read_within_managed shop editor managed flows [putMetrics "billing"]
      shop_namesExactly ⟨flows_managed, trivial⟩ flows_settled ⟨hcontained, trivial⟩ viewer
      (gauge "billing") hafter hbefore⟩

/-- With the metrics of the payroll as a source, or with a first member of an integration that
has them as a source, the viewer reads the payroll's metrics, which the editor does not manage. -/
theorem payroll_newly_read :
    (shop.handlers flows).managedServiceFilter editor.toPrincipal = some managed ∧
      shop.reconcile flows = flows ∧ "payroll" ∉ managed ∧
      ¬ shop.CanRead flows viewer (gauge "payroll") ∧
      shop.CanRead (run (shop.step editor) flows [putMetrics "payroll"]) viewer (gauge "payroll") ∧
      shop.CanRead (run (shop.step editor) flows [addOrders]) viewer (gauge "payroll") := by
  refine ⟨flows_managed, flows_settled, by decide, not_canRead_gauge (by decide), ?_, ?_⟩
  · refine canRead_gauge 7
      (r := { id := 7, name := "order-flow", matchers := [onOrders], services := ["orders"],
              sources := [metricsOf "payroll"] }) ?_ ?_ ?_ ?_ ?_
    · decide +kernel
    · decide
    · exact ⟨⟨"order-flow", by decide +kernel⟩, by decide, by decide⟩
    · exact ⟨{7, 8}, by decide +kernel, by decide⟩
    · exact List.mem_singleton_self _
  · refine canRead_gauge 8
      (r := { id := 8, name := "shared", matchers := [(2, onOrders.2)], services := ["orders"],
              sources := [metricsOf "payroll"] }) ?_ ?_ ?_ ?_ ?_
    · decide +kernel
    · decide
    · exact ⟨⟨"shared", by decide +kernel⟩, by decide, by decide⟩
    · exact ⟨{7, 8}, by decide +kernel, by decide⟩
    · exact List.mem_singleton_self _

end Sluicio.Api.IntegrationWrites
