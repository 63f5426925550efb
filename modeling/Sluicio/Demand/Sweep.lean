import Sluicio.Demand.Reads

/-!
# The demand sweep

Once a day the sweep walks the configuration and records every key it finds, one case for
each kind of object.  A step whose listing fails is logged and the others go on; a run in
which every listing is answered, no bucket is dropped and the flush succeeds has recorded in
the ledger just what `Named` says.
-/

namespace Sluicio.Demand

open Lib
open Alerting.Store (AlertRule)

/-- The arguments of one call of `Record`. -/
structure Entry where
  signal : Signal
  service : String
  key : String
  kind : ConsumerKind

/-- The calls of `RecordKeys`, which skips the empty key. -/
def recordKeys (signal : Signal) (service : String) (keys : List String)
    (kind : ConsumerKind) : List Entry :=
  (keys.filter (· ≠ "")).map fun key => ⟨signal, service, key, kind⟩

def attrKeys (attrs : List Alerting.AttrFilter) : List String := attrs.map fun f => f.key

/-- `scopeServices`: the rule's own service, else the members of its integration, else the
whole organisation. -/
def scopeServices (catalog : Catalog) (serviceName : String) (integrationID : Option UUID) :
    List String :=
  if serviceName ≠ "" then [serviceName]
  else
    match integrationID.map catalog.integrationServices with
    | some (.ok (svc :: svcs)) => svc :: svcs
    | _ => [""]

/-- What a rule records for one service of its scope. -/
def ruleEntries (r : AlertRule) (svc : String) : List Entry :=
  match r.signal with
  | .metric =>
    [⟨.metric, svc, r.spec.metricName, .rule⟩] ++
      recordKeys .metric svc (attrKeys r.spec.attrs) .rule ++
        [⟨.metric, svc, r.spec.splitBy, .rule⟩]
  | .log =>
    ⟨.log, svc, "", .rule⟩ ::
      match r.logSpec with
      | some spec => recordKeys .log svc (attrKeys spec.attrs) .rule
      | none => []
  | .trace =>
    ⟨.trace, svc, "", .rule⟩ ::
      match r.traceErrorSpec with
      | some spec => recordKeys .trace svc (attrKeys spec.attrs) .rule
      | none => []

/-- A matcher on an attribute; one on the service's name is routing. -/
def matcherEntries (m : Integrations.Matcher) : List Entry :=
  if m.isServiceMatcher ∨ m.attr = "" then [] else [⟨.trace, "", m.attr, .matcher⟩]

/-- The span names of a completion rule. -/
def completionEntries (catalog : Catalog) (r : Completion) : List Entry :=
  (scopeServices catalog "" (some r.integrationID)).flatMap fun svc =>
    ⟨.trace, svc, r.spec.startSpanName, .completion⟩ ::
      r.spec.effectiveStages.flatMap fun st => recordKeys .trace svc st.spanNames .completion

def checkEntries (check : TemplateCheck) : List Entry :=
  match check.signal with
  | "log" => [⟨.log, "", "", .template⟩]
  | "trace" => [⟨.trace, "", "", .template⟩]
  | _ =>
    [⟨.metric, "", check.metric, .template⟩] ++ recordKeys .metric "" check.attrKeys .template ++
      [⟨.metric, "", check.splitBy, .template⟩]

/-- The payload rows of a view. -/
def viewEntries (v : View) : List Entry :=
  (v.filters.filter fun f => f.field = .payload && f.fieldPath ≠ "").map fun f =>
    ⟨.trace, "", f.fieldPath, .view⟩

def mappingEntries (m : Mapping) : List Entry :=
  if m.attributeKey = "" then [] else [⟨.trace, m.serviceName, m.attributeKey, .facet⟩]

/-- The services behind the pinned integrations, each once. -/
def dashboardServices (catalog : Catalog) (boards : List Dashboard) : List String :=
  ((boards.flatMap Dashboard.integrationIDs).flatMap fun id =>
    if id = 0 then []
    else
      match catalog.integrationServices id with
      | .ok svcs => svcs
      | .error _ => []).eraseDups

inductive Listing where
  | alertRules | matchers | completions | templates | views | facets | dashboards

variable (faults : Listing → Option String) (c : Config)

def sweepAlertRules : Except String (List Entry) := do
  let rules ← readRows faults .alertRules c.rules
  return rules.flatMap fun r =>
    (scopeServices c.catalog r.serviceName r.integrationID).flatMap (ruleEntries r)

def sweepMatchers : Except String (List Entry) := do
  let all ← readRows faults .matchers (c.integrations.flatMap Integration.matchers)
  return all.flatMap fun m => matcherEntries m.toMatcher

def sweepCompletions : Except String (List Entry) := do
  let rules ← readRows faults .completions c.completions
  return rules.flatMap (completionEntries c.catalog)

def sweepTemplates : Except String (List Entry) := do
  let tpls ← readRows faults .templates c.templates
  return tpls.flatMap fun t => t.checks.flatMap checkEntries

def sweepViews : Except String (List Entry) := do
  let views ← readRows faults .views c.views
  return views.flatMap viewEntries

def sweepFacets : Except String (List Entry) := do
  let mappings ← readRows faults .facets c.mappings
  return mappings.flatMap mappingEntries

def sweepDashboards : Except String (List Entry) := do
  let boards ← readRows faults .dashboards c.dashboards
  return (dashboardServices c.catalog boards).map fun svc => ⟨.trace, svc, "", .dashboard⟩

/-- The steps of `RunOnce`, in their order. -/
def steps : List (Except String (List Entry)) :=
  [sweepAlertRules faults c, sweepMatchers faults c, sweepCompletions faults c,
    sweepTemplates faults c, sweepViews faults c, sweepFacets faults c, sweepDashboards faults c]

/-- What a step records; a failed one nothing. -/
def stepEntries (step : Except String (List Entry)) : List Entry :=
  match step with
  | .ok entries => entries
  | .error _ => []

/-- The bucket that a call of `Record` counts. -/
def Entry.bucket (day : Nat) (e : Entry) : Bucket where
  day := day
  org := defaultOrgID
  signal := e.signal
  service := e.service
  key := e.key
  kind := e.kind

/-- The cell after the calls of the steps, before the flush. -/
def recorded (day : Nat) (cell : Cell) : Cell :=
  { cell with
    writer := cell.writer.recordAll
      (((steps faults c).flatMap stepEntries).map (Entry.bucket day)) }

/-- `RunOnce` on a day. -/
def runOnce (sent : Bool) (day : Nat) (cell : Cell) : Cell :=
  ((recorded faults c day cell).flush sent).1

/-- The run was successful: every listing was answered, no bucket was dropped, and the flush
reached the database. -/
structure Succeeds (sent : Bool) (day : Nat) (cell : Cell) : Prop where
  answered : ∀ listing, faults listing = none
  counted : (recorded faults c day cell).writer.dropped = cell.writer.dropped
  flushed : ((recorded faults c day cell).flush sent).2

/-! ## What a successful run records -/

/-- The keys a rule's case of the sweep records. -/
def ruleKeys (r : AlertRule) : List String :=
  match r.signal with
  | .metric => r.spec.metricName :: r.spec.splitBy :: (attrKeys r.spec.attrs).filter (· ≠ "")
  | .log => "" :: (attrKeys ((r.logSpec.map fun s => s.attrs).getD [])).filter (· ≠ "")
  | .trace => "" :: (attrKeys ((r.traceErrorSpec.map fun s => s.attrs).getD [])).filter (· ≠ "")

def ruleSignal (r : AlertRule) : Signal :=
  match r.signal with
  | .metric => .metric
  | .log => .log
  | .trace => .trace

/-- What a check of a template records: the logs, the traces, or the names of a metric. -/
def CheckNames (check : TemplateCheck) (signal : Signal) (key : String) : Prop :=
  (check.signal = "log" ∧ signal = .log ∧ key = "") ∨
    (check.signal = "trace" ∧ signal = .trace ∧ key = "") ∨
    (check.signal ≠ "log" ∧ check.signal ≠ "trace" ∧ signal = .metric ∧
      (key = check.metric ∨ key = check.splitBy ∨ key ∈ check.attrKeys ∧ key ≠ ""))

/-- Where the sweep looks, the configuration names the key for the service; the service `""`
is the whole organisation. -/
inductive Named : Signal → String → String → Prop
  | rule {r : AlertRule} {svc key : String} (hr : r ∈ c.rules)
      (hsvc : svc ∈ scopeServices c.catalog r.serviceName r.integrationID)
      (hkey : key ∈ ruleKeys r) : Named (ruleSignal r) svc key
  | matcher {i : Integration} {m : Integrations.GroupedMatcher} (hi : i ∈ c.integrations)
      (hm : m ∈ i.matchers) (hattr : m.isServiceMatcher = false) : Named .trace "" m.attr
  | template {t : Template} {check : TemplateCheck} {signal : Signal} {key : String}
      (ht : t ∈ c.templates) (hcheck : check ∈ t.checks) (hnames : CheckNames check signal key) :
      Named signal "" key
  | view {v : View} {f : Messageviews.Filter} (hv : v ∈ c.views) (hf : f ∈ v.filters)
      (hfield : f.field = .payload) (hpath : f.fieldPath ≠ "") : Named .trace "" f.fieldPath
  | mapping {m : Mapping} (hm : m ∈ c.mappings) (hkey : m.attributeKey ≠ "") :
      Named .trace m.serviceName m.attributeKey
  | dashboard {svc : String} (hsvc : svc ∈ dashboardServices c.catalog c.dashboards) :
      Named .trace svc ""

/-! ### The entries of one object -/

/-- Some entry names the key for the service; the key of a completion's is the name of a
span. -/
def Records (entries : List Entry) (signal : Signal) (svc key : String) : Prop :=
  ∃ e ∈ entries, e.signal = signal ∧ e.service = svc ∧ e.key = key ∧ e.kind ≠ .completion

section Records

variable {signal : Signal} {svc key : String}

theorem records_nil : ¬ Records [] signal svc key := by
  rintro ⟨e, he, _⟩
  cases he

variable {entries : List Entry} {svc' : String} {signal' : Signal}

theorem records_cons {e : Entry} :
    Records (e :: entries) signal svc key ↔
      (e.signal = signal ∧ e.service = svc ∧ e.key = key ∧ e.kind ≠ .completion) ∨
        Records entries signal svc key := by
  simp only [Records, List.mem_cons, exists_eq_or_imp]

theorem records_append {xs ys : List Entry} :
    Records (xs ++ ys) signal svc key ↔ Records xs signal svc key ∨ Records ys signal svc key := by
  simp only [Records, List.mem_append, or_and_right, exists_or]

theorem records_flatMap {α : Type} {f : α → List Entry} {xs : List α} :
    Records (xs.flatMap f) signal svc key ↔ ∃ x ∈ xs, Records (f x) signal svc key := by
  simp only [Records, List.mem_flatMap]
  constructor
  · rintro ⟨e, ⟨x, hx, he⟩, h⟩
    exact ⟨x, hx, e, he, h⟩
  · rintro ⟨x, hx, e, he, h⟩
    exact ⟨e, ⟨x, hx, he⟩, h⟩

theorem records_recordKeys (kind : ConsumerKind) (hkind : kind ≠ .completion) {keys : List String} :
    Records (recordKeys signal' svc' keys kind) signal svc key ↔
      signal' = signal ∧ svc' = svc ∧ key ∈ keys.filter (· ≠ "") := by
  simp only [Records, recordKeys, List.mem_map]
  constructor
  · rintro ⟨_, ⟨key', hkey, rfl⟩, rfl, rfl, rfl, _⟩
    exact ⟨rfl, rfl, hkey⟩
  · rintro ⟨rfl, rfl, hkey⟩
    exact ⟨_, ⟨key, hkey, rfl⟩, rfl, rfl, rfl, hkind⟩

theorem not_records_of_completion (h : ∀ e ∈ entries, e.kind = .completion) :
    ¬ Records entries signal svc key := by
  rintro ⟨e, he, _, _, _, hkind⟩
  exact hkind (h e he)

theorem records_wholeSignal (keys : List String) :
    Records (⟨signal', svc', "", .rule⟩ :: recordKeys signal' svc' keys .rule) signal svc key ↔
      signal' = signal ∧ svc' = svc ∧ key ∈ "" :: keys.filter (· ≠ "") := by
  simp only [records_cons, List.mem_cons, records_recordKeys .rule (by decide), ne_eq,
    reduceCtorEq, not_false_eq_true, and_true]
  constructor
  · rintro (⟨rfl, rfl, rfl⟩ | ⟨rfl, rfl, hkey⟩)
    · exact ⟨rfl, rfl, .inl rfl⟩
    · exact ⟨rfl, rfl, .inr hkey⟩
  · rintro ⟨rfl, rfl, rfl | hkey⟩
    · exact .inl ⟨rfl, rfl, rfl⟩
    · exact .inr ⟨rfl, rfl, hkey⟩

theorem records_ruleEntries {r : AlertRule} :
    Records (ruleEntries r svc') signal svc key ↔
      ruleSignal r = signal ∧ svc' = svc ∧ key ∈ ruleKeys r := by
  unfold ruleEntries ruleSignal ruleKeys
  cases r.signal with
  | metric =>
    simp only [records_append, records_cons, records_nil, or_false, List.mem_cons,
      records_recordKeys .rule (by decide), ne_eq, reduceCtorEq, not_false_eq_true,
      and_true]
    constructor
    · rintro ((⟨rfl, rfl, rfl⟩ | ⟨rfl, rfl, hkey⟩) | ⟨rfl, rfl, rfl⟩)
      · exact ⟨rfl, rfl, .inl rfl⟩
      · exact ⟨rfl, rfl, .inr (.inr hkey)⟩
      · exact ⟨rfl, rfl, .inr (.inl rfl)⟩
    · rintro ⟨rfl, rfl, rfl | rfl | hkey⟩
      · exact .inl (.inl ⟨rfl, rfl, rfl⟩)
      · exact .inr ⟨rfl, rfl, rfl⟩
      · exact .inl (.inr ⟨rfl, rfl, hkey⟩)
  | log =>
    cases r.logSpec with
    | none => exact records_wholeSignal []
    | some spec => exact records_wholeSignal _
  | trace =>
    cases r.traceErrorSpec with
    | none => exact records_wholeSignal []
    | some spec => exact records_wholeSignal _

theorem records_matcherEntries {m : Integrations.Matcher} :
    Records (matcherEntries m) signal svc key ↔
      signal = .trace ∧ svc = "" ∧ key = m.attr ∧ m.isServiceMatcher = false := by
  unfold matcherEntries
  split
  · rename_i hskip
    have hservice : m.isServiceMatcher := by
      rcases hskip with h | h
      · exact h
      · simp [Integrations.Matcher.isServiceMatcher, h]
    simp [records_nil, hservice]
  rename_i hkept
  simp only [not_or, Bool.not_eq_true] at hkept
  simp only [records_cons, records_nil, or_false, hkept.1, ne_eq, reduceCtorEq,
    not_false_eq_true, and_true]
  simp only [eq_comm]

theorem not_records_completionEntries {catalog : Catalog} {r : Completion} :
    ¬ Records (completionEntries catalog r) signal svc key := by
  refine not_records_of_completion fun e he => ?_
  obtain ⟨svc', _, he⟩ := List.mem_flatMap.1 he
  rcases List.mem_cons.1 he with rfl | he
  · rfl
  · obtain ⟨st, _, he⟩ := List.mem_flatMap.1 he
    obtain ⟨name, _, rfl⟩ := List.mem_map.1 he
    rfl

theorem records_checkEntries {check : TemplateCheck} :
    Records (checkEntries check) signal svc key ↔ svc = "" ∧ CheckNames check signal key := by
  unfold checkEntries CheckNames
  split
  · rename_i hlog
    simp only [hlog, records_cons, records_nil]
    aesop
  · rename_i htrace
    simp only [htrace, records_cons, records_nil]
    aesop
  · rename_i hlog htrace
    simp only [records_append, records_cons, records_nil,
      records_recordKeys .template (by decide), List.mem_filter, decide_eq_true_eq]
    aesop

theorem records_viewEntries {v : View} :
    Records (viewEntries v) signal svc key ↔ signal = .trace ∧ svc = "" ∧
      ∃ f ∈ v.filters, f.field = .payload ∧ f.fieldPath = key ∧ key ≠ "" := by
  simp only [Records, viewEntries, List.mem_map, List.mem_filter, Bool.and_eq_true,
    decide_eq_true_eq]
  constructor
  · rintro ⟨_, ⟨f, ⟨hf, hfield, hpath⟩, rfl⟩, rfl, rfl, rfl, _⟩
    exact ⟨rfl, rfl, f, hf, hfield, rfl, hpath⟩
  · rintro ⟨rfl, rfl, f, hf, hfield, rfl, hpath⟩
    exact ⟨_, ⟨f, ⟨hf, hfield, hpath⟩, rfl⟩, rfl, rfl, rfl, by simp⟩

theorem records_mappingEntries {m : Mapping} :
    Records (mappingEntries m) signal svc key ↔
      signal = .trace ∧ svc = m.serviceName ∧ key = m.attributeKey ∧ key ≠ "" := by
  unfold mappingEntries
  split
  · rename_i hempty
    simp only [records_nil, false_iff]
    rintro ⟨_, _, rfl, hkey⟩
    exact hkey hempty
  rename_i hkey
  simp only [records_cons, records_nil, or_false]
  constructor
  · rintro ⟨rfl, rfl, rfl, _⟩
    exact ⟨rfl, rfl, rfl, hkey⟩
  · rintro ⟨rfl, rfl, rfl, _⟩
    exact ⟨rfl, rfl, rfl, by decide⟩

end Records

/-! ### The whole run -/

variable {faults c}

theorem readRows_answered {α : Type} (h : ∀ listing, faults listing = none) (listing : Listing)
    (rows : α) : readRows faults listing rows = .ok rows :=
  readRows_eq_ok.2 ⟨h listing, rfl⟩

/-- The steps of a run whose listings are all answered record what `Named` says. -/
theorem records_steps (h : ∀ listing, faults listing = none) (signal : Signal) (svc key : String) :
    Records ((steps faults c).flatMap stepEntries) signal svc key ↔ Named c signal svc key := by
  simp only [steps, sweepAlertRules, sweepMatchers, sweepCompletions, sweepTemplates, sweepViews,
    sweepFacets, sweepDashboards, readRows_answered h, bind, Except.bind, pure, Except.pure,
    List.flatMap_cons, List.flatMap_nil, stepEntries, List.append_nil, records_append,
    records_flatMap, records_ruleEntries, records_matcherEntries, not_records_completionEntries,
    records_checkEntries, records_viewEntries, records_mappingEntries]
  constructor
  · rintro (⟨r, hr, svc', hsvc, rfl, rfl, hkey⟩ | ⟨m, hm, rfl, rfl, rfl, hservice⟩ |
      ⟨_, _, hfalse⟩ | ⟨t, ht, check, hcheck, rfl, hnames⟩ |
      ⟨v, hv, rfl, rfl, f, hf, hfield, rfl, hpath⟩ | ⟨m, hm, rfl, rfl, rfl, hkey⟩ | hboard)
    · exact .rule hr hsvc hkey
    · obtain ⟨i, hi, hmi⟩ := List.mem_flatMap.1 hm
      exact .matcher hi hmi hservice
    · exact hfalse.elim
    · exact .template ht hcheck hnames
    · exact .view hv hf hfield hpath
    · exact .mapping hm hkey
    · obtain ⟨_, he, rfl, rfl, rfl, _⟩ := hboard
      obtain ⟨svc', hsvc, rfl⟩ := List.mem_map.1 he
      exact .dashboard hsvc
  · intro hnamed
    cases hnamed with
    | rule hr hsvc hkey => exact .inl ⟨_, hr, _, hsvc, rfl, rfl, hkey⟩
    | matcher hi hm hattr =>
      exact .inr (.inl ⟨_, List.mem_flatMap.2 ⟨_, hi, hm⟩, rfl, rfl, rfl, hattr⟩)
    | template ht hcheck hnames =>
      exact .inr (.inr (.inr (.inl ⟨_, ht, _, hcheck, rfl, hnames⟩)))
    | view hv hf hfield hpath =>
      exact .inr (.inr (.inr (.inr (.inl ⟨_, hv, rfl, rfl, _, hf, hfield, rfl, hpath⟩))))
    | mapping hm hkey =>
      exact .inr (.inr (.inr (.inr (.inr (.inl ⟨_, hm, rfl, rfl, rfl, hkey⟩)))))
    | dashboard hsvc =>
      exact .inr (.inr (.inr (.inr (.inr (.inr ⟨_, List.mem_map_of_mem hsvc, rfl, rfl, rfl,
        by simp⟩)))))

/-- The counts hold a bucket of the organisation that names the key for the service. -/
def Counts.Demands (counts : Counts) (signal : Signal) (svc key : String) : Prop :=
  ∃ b, counts.Has b ∧ b.org = defaultOrgID ∧ b.signal = signal ∧ b.service = svc ∧
    b.key = key ∧ b.kind ≠ .completion

theorem Counts.demands_congr {xs ys : Counts} {Q : Bucket → Prop}
    (h : ∀ b, xs.Has b ↔ ys.Has b ∨ Q b) (signal : Signal) (svc key : String) :
    xs.Demands signal svc key ↔ ys.Demands signal svc key ∨
      ∃ b, Q b ∧ b.org = defaultOrgID ∧ b.signal = signal ∧ b.service = svc ∧ b.key = key ∧
        b.kind ≠ .completion := by
  simp only [Counts.Demands, h, or_and_right, exists_or]

/-- The cell has the demand already, in the ledger or in the writer's buffer. -/
def Cell.Holds (cell : Cell) (signal : Signal) (svc key : String) : Prop :=
  cell.ledger.Demands signal svc key ∨ cell.writer.buf.Demands signal svc key

/-- **What a successful run leaves in the ledger**: what the cell had, and what the
configuration names where the sweep looks. -/
theorem demands_runOnce {sent : Bool} {day : Nat} {cell : Cell}
    (h : Succeeds faults c sent day cell) (signal : Signal) (svc key : String) :
    (runOnce faults c sent day cell).ledger.Demands signal svc key ↔
      cell.Holds signal svc key ∨ Named c signal svc key := by
  have horg : ∀ b ∈ ((steps faults c).flatMap stepEntries).map (Entry.bucket day), b.org ≠ 0 := by
    intro b hb
    obtain ⟨e, _, rfl⟩ := List.mem_map.1 hb
    exact Nat.one_ne_zero
  have hflush := Cell.has_flush h.flushed
  have hbuf := Writer.has_recordAll horg h.counted
  rw [runOnce, Counts.demands_congr hflush, Cell.Holds, or_assoc]
  refine or_congr Iff.rfl ?_
  have hnew : (∃ b, b ∈ ((steps faults c).flatMap stepEntries).map (Entry.bucket day) ∧
      b.org = defaultOrgID ∧ b.signal = signal ∧ b.service = svc ∧ b.key = key ∧
        b.kind ≠ .completion) ↔ Named c signal svc key := by
    rw [← records_steps h.answered, Records]
    constructor
    · rintro ⟨_, hb, _, hmatch⟩
      obtain ⟨e, he, rfl⟩ := List.mem_map.1 hb
      exact ⟨e, he, hmatch⟩
    · rintro ⟨e, he, hmatch⟩
      exact ⟨_, List.mem_map_of_mem he, rfl, hmatch⟩
  rw [← hnew]
  exact Counts.demands_congr hbuf signal svc key

end Sluicio.Demand
