import Sluicio.Advisor.Telemetry

/-!
# What a suggested change reaches

The evaluators judge one metric, log stream or attribute at a time.  The change that they
suggest acts on all services that send a metric, on every band below a floor, and on every
attribute with a prefix.
-/

namespace Sluicio.Advisor

/-- A metric row, a log record, or an attribute of a span. -/
inductive Record where
  | metric (r : MetricRow)
  | log (r : LogRow)
  | attr (r : AttrRow)

/-- What a record is one of: a metric, a log stream, an attribute of a service. -/
inductive Item where
  | metric (name : String)
  | stream (service : String) (band : Int)
  | attr (service key : String)

namespace Record

def timestamp : Record → Time
  | .metric r => r.timestamp
  | .log r => r.timestamp
  | .attr r => r.timestamp

def item : Record → Item
  | .metric r => .metric r.name
  | .log r => .stream r.service (band r.severityNumber)
  | .attr r => .attr r.service r.key

def InUse (d : DemandSet) (cutoff : Time) : Record → Prop
  | .metric r => d.InUse "metric" "" r.name cutoff ∨ d.InUse "metric" r.service r.name cutoff
  | .log r => d.InUse "log" r.service "" cutoff
  | .attr r => d.InUse "trace" r.service r.key cutoff

end Record

/-- All that is stored. -/
def Telemetry.records (t : Telemetry) : List Record :=
  t.metrics.map .metric ++ t.logs.map .log ++ (t.spans.flatMap SpanRow.attrRows).map .attr

/-- The item is first seen inside the window. -/
def Telemetry.New (t : Telemetry) (start : Time) (item : Item) : Prop :=
  ∀ r ∈ t.records, r.item = item → start < r.timestamp

def Change.Removes : Change → Record → Prop
  | .dropMetric name, .metric r => r.name = name
  | .dropLogs service below, .log r => r.service = service ∧ r.severityNumber < below
  | .deleteKey service key, .attr r => r.service = service ∧ r.key = key
  | .deleteMatchingKeys service keyPrefix, .attr r =>
    r.service = service ∧ hasPrefix r.key keyPrefix
  | _, _ => False

def Suggests (found : List TelemetryFinding) (c : Change) : Prop :=
  ∃ f ∈ found, ∃ s, f.snippet = .ok s ∧ s.change = c

/-- What the advisor must not do: no change that it suggests takes away, of what is sent in
the window, anything that is in use or that is first seen in the window. -/
def Harmless (i : TelemetryInput) (t : Telemetry) (sampleRows : Nat) : Prop :=
  ∀ c, Suggests (evaluateTelemetry i t sampleRows) c →
    ∀ r ∈ t.records, i.window.Holds r.timestamp → c.Removes r →
      ¬ r.InUse i.demand i.window.start ∧ ¬ t.New i.window.start r.item

/-- What the evaluators do not look at, and would have to find as they find what they judge:
the services of an unused metric past the ten that are listed, the other bands below the floor
of an unviewed stream, and the other attributes with the prefix of an unused one. -/
structure OthersAlike (i : TelemetryInput) (t : Telemetry) (sampleRows : Nat) : Prop where
  metrics : ∀ m ∈ metricsSupply t i.window, UnusedMetric i m →
    ∀ r ∈ t.metrics, i.window.Holds r.timestamp → r.name = m.name → r.service ∉ m.services →
      ¬ i.demand.InUse "metric" r.service r.name i.window.start
  logs : ∀ s ∈ logStreamsSupply t i.window, UnviewedStream i s →
    ∀ b, bandFloor s.severityNumber = some b →
      ∀ r ∈ t.logs, i.window.Holds r.timestamp → r.service = s.service →
        r.severityNumber < floorNumber b.2 → band r.severityNumber ≠ s.severityNumber →
          ¬ t.New i.window.start (.stream r.service (band r.severityNumber))
  attrs : ∀ a ∈ spanAttrsSupply t i.window sampleRows, UnusedAttr i a → echoPrefix a.key ≠ "" →
    ∀ r ∈ t.spans.flatMap SpanRow.attrRows, i.window.Holds r.timestamp →
      r.service = a.service → hasPrefix r.key (echoPrefix a.key) → r.key ≠ a.key →
        ¬ i.demand.InUse "trace" r.service r.key i.window.start ∧
          ¬ t.New i.window.start (.attr r.service r.key)

/-! ## What each evaluator suggests -/

section Suggestions

variable {i : TelemetryInput} {c : Change}

theorem suggests_append {xs ys : List TelemetryFinding} :
    Suggests (xs ++ ys) c ↔ Suggests xs c ∨ Suggests ys c := by
  simp only [Suggests, List.mem_append, or_and_right, exists_or]

theorem suggests_evalUnusedMetrics {metrics : List MetricSupply} :
    Suggests (evalUnusedMetrics i metrics) c ↔
      ∃ m ∈ metrics, UnusedMetric i m ∧ c = .dropMetric m.name := by
  simp only [Suggests, evalUnusedMetrics, List.mem_map, List.mem_filter, decide_eq_true_eq]
  constructor
  · intro ⟨f, ⟨m, ⟨hm, hunused⟩, hf⟩, s, hs, hc⟩
    subst hf
    have hsnippet : s = ⟨"filter", .dropMetric m.name⟩ := (Except.ok.inj hs).symm
    exact ⟨m, hm, hunused, by rw [← hc, hsnippet]⟩
  · intro ⟨m, hm, hunused, hc⟩
    exact ⟨_, ⟨m, ⟨hm, hunused⟩, rfl⟩, ⟨"filter", .dropMetric m.name⟩, rfl, hc.symm⟩

theorem suggests_evalUnviewedLogs {streams : List LogStreamSupply} :
    Suggests (evalUnviewedLogs i streams) c ↔
      ∃ s ∈ streams, ∃ b, bandFloor s.severityNumber = some b ∧ UnviewedStream i s ∧
        c = .dropLogs s.service (floorNumber b.2) := by
  simp only [Suggests, evalUnviewedLogs, List.mem_filterMap]
  constructor
  · intro ⟨f, ⟨s, hs, hf⟩, snippet, hsnippet, hc⟩
    split at hf
    · nomatch hf
    · next bandName floor hband =>
      split_ifs at hf with hunviewed
      cases hf
      have heq : snippet = ⟨"filter", .dropLogs s.service (floorNumber floor)⟩ :=
        (Except.ok.inj hsnippet).symm
      exact ⟨s, hs, (bandName, floor), hband, hunviewed, by rw [← hc, heq]⟩
  · intro ⟨s, hs, b, hband, hunviewed, hc⟩
    refine ⟨i.withSnippet ⟨.t2, "log|" ++ s.service ++ "|" ++ b.1⟩ "service" s.service
      s.estBytesPerDay s.service (snippetLogFloor s.service b.2), ⟨s, hs, ?_⟩,
      ⟨"filter", .dropLogs s.service (floorNumber b.2)⟩, rfl, hc.symm⟩
    rw [hband]
    exact if_pos hunviewed

def AttrChange (i : TelemetryInput) (a : SpanAttrSupply) (c : Change) : Prop :=
  UnusedAttr i a ∧
    (echoPrefix a.key ≠ "" ∧ c = .deleteMatchingKeys a.service (echoPrefix a.key) ∨
      echoPrefix a.key = "" ∧ (HighCardinality a ∨ DeadWeight a) ∧ c = .deleteKey a.service a.key)

/-- All findings that the loop has come to. -/
def AttrFindings.all (f : AttrFindings) : List TelemetryFinding := f.out ++ f.echoed.map Prod.snd

/-- A family is found with the change that deletes it. -/
def AttrFindings.Families (f : AttrFindings) : Prop :=
  ∀ e ∈ f.echoed, e.2.snippet = .ok ⟨"transform", .deleteMatchingKeys e.1.1 e.1.2⟩

theorem suggests_singleton {f : TelemetryFinding} {s : Snippet} (hf : f.snippet = .ok s) :
    Suggests [f] c ↔ c = s.change := by
  constructor
  · intro ⟨f', hf', s', hs', hc⟩
    rw [List.mem_singleton.1 hf', hf] at hs'
    rw [← hc, Except.ok.inj hs']
  · intro hc
    exact ⟨f, List.mem_singleton_self f, s, hf, hc.symm⟩

theorem AttrFindings.suggests_out (f : AttrFindings) (x : TelemetryFinding) :
    Suggests (AttrFindings.mk (f.out ++ [x]) f.echoed).all c ↔
      Suggests f.all c ∨ Suggests [x] c := by
  simp only [all, suggests_append]
  exact or_right_comm

theorem AttrFindings.suggests_echoed (f : AttrFindings) (k : String × String)
    (x : TelemetryFinding) :
    Suggests (AttrFindings.mk f.out (f.echoed ++ [(k, x)])).all c ↔
      Suggests f.all c ∨ Suggests [x] c := by
  simp only [all, List.map_append, suggests_append, or_assoc]
  exact Iff.rfl

theorem AttrFindings.suggests_again {f : AttrFindings} (hf : f.Families) (k : String × String)
    (n : Nat) : let f' := AttrFindings.mk f.out (f.echoed.map fun e =>
      if e.1 = k then (e.1, { e.2 with weight := e.2.weight + n }) else e)
    f'.Families ∧ (Suggests f'.all c ↔ Suggests f.all c) := by
  have hsame : ∀ e : (String × String) × TelemetryFinding,
      (if e.1 = k then (e.1, { e.2 with weight := e.2.weight + n }) else e).1 = e.1 ∧
      (if e.1 = k then (e.1, { e.2 with weight := e.2.weight + n }) else e).2.snippet =
        e.2.snippet := by
    intro e
    split_ifs
    · exact ⟨rfl, rfl⟩
    · exact ⟨rfl, rfl⟩
  refine ⟨fun e' he' => ?_, ?_⟩
  · obtain ⟨e, he, rfl⟩ := List.mem_map.1 he'
    rw [(hsame e).1, (hsame e).2]
    exact hf e he
  · simp only [all, suggests_append]
    refine or_congr_right ?_
    simp only [Suggests, List.map_map, List.mem_map, Function.comp_def, exists_exists_and_eq_and,
      (hsame _).2]

theorem AttrFindings.next_spec {f : AttrFindings} (hf : f.Families) (a : SpanAttrSupply) :
    (f.next i a).Families ∧
      (Suggests (f.next i a).all c ↔ Suggests f.all c ∨ AttrChange i a c) := by
  unfold next AttrChange
  split_ifs with hunused hecho hknown hhigh hdead
  · -- the family has been found before, with this change
    have ⟨hfam, hsame⟩ := suggests_again (c := c) hf (a.service, echoPrefix a.key) a.estBytesPerDay
    refine ⟨hfam, hsame.trans (or_iff_left_of_imp fun h => ?_).symm⟩
    have ⟨e, he, hkey⟩ := List.any_eq_true.1 hknown
    have hkey : e.1 = (a.service, echoPrefix a.key) := of_decide_eq_true hkey
    have hc : c = .deleteMatchingKeys a.service (echoPrefix a.key) := by
      cases h.2 with
      | inl hfamily => exact hfamily.2
      | inr hsingle => exact absurd hsingle.1 hecho
    refine ⟨e.2, List.mem_append_right _ (List.mem_map_of_mem he), _, hf e he, ?_⟩
    rw [hkey, hc]
  · refine ⟨fun e he => ?_, ?_⟩
    · cases List.mem_append.1 he with
      | inl hold => exact hf e hold
      | inr hnew =>
        rw [List.mem_singleton.1 hnew]
        rfl
    · rw [suggests_echoed, suggests_singleton (s := ⟨"transform", _⟩) rfl]
      refine or_congr_right ?_
      simp [hunused, hecho]
  · refine ⟨hf, ?_⟩
    rw [suggests_out, suggests_singleton (s := ⟨"transform", _⟩) rfl]
    refine or_congr_right ?_
    simp [hunused, not_not.1 hecho, hhigh]
  · refine ⟨hf, ?_⟩
    rw [suggests_out, suggests_singleton (s := ⟨"transform", _⟩) rfl]
    refine or_congr_right ?_
    simp [hunused, not_not.1 hecho, hdead]
  · refine ⟨hf, (or_iff_left fun h => ?_).symm⟩
    cases h.2 with
    | inl hfamily => exact hecho hfamily.1
    | inr hsingle => exact hsingle.2.1.elim hhigh hdead
  · exact ⟨hf, (or_iff_left fun h => hunused h.1).symm⟩

theorem suggests_evalSpanAttributes {attrs : List SpanAttrSupply} :
    Suggests (evalSpanAttributes i attrs) c ↔ ∃ a ∈ attrs, AttrChange i a c := by
  have hloop : ∀ f : AttrFindings, f.Families →
      (Suggests (attrs.foldl (AttrFindings.next i) f).all c ↔
        Suggests f.all c ∨ ∃ a ∈ attrs, AttrChange i a c) := by
    induction attrs with
    | nil =>
      intro f _
      simp
    | cons a attrs ih =>
      intro f hf
      have ⟨hfam, hstep⟩ := AttrFindings.next_spec (c := c) (i := i) hf a
      rw [List.foldl_cons, ih _ hfam, hstep, or_assoc]
      simp
  have hstart := hloop {} fun _ he => nomatch he
  refine hstart.trans (or_iff_right fun h => ?_)
  obtain ⟨f, hf, _⟩ := h
  nomatch hf

end Suggestions

/-! ## What is judged is old -/

section Supplied

variable {i : TelemetryInput} {t : Telemetry} {n : Nat}

theorem exists_old {times : List Time} (h : ¬ i.Quarantined (firstSeen times)) :
    ∃ x ∈ times, x ≤ i.window.start := by
  have ⟨hzero, hnew⟩ := not_or.1 h
  unfold firstSeen at hzero hnew
  cases hmin : times.min? with
  | none => simp [hmin] at hzero
  | some x =>
    rw [hmin] at hnew
    exact ⟨x, List.min?_mem hmin, Nat.le_of_not_lt hnew⟩

theorem not_new {r : Record} (hr : r ∈ t.records) (hold : r.timestamp ≤ i.window.start) :
    ¬ t.New i.window.start r.item :=
  fun h => absurd (h r hr rfl) (Nat.not_lt.2 hold)

theorem metric_mem_records {r : MetricRow} : .metric r ∈ t.records ↔ r ∈ t.metrics := by
  simp [Telemetry.records]

theorem log_mem_records {r : LogRow} : .log r ∈ t.records ↔ r ∈ t.logs := by
  simp [Telemetry.records]

theorem attr_mem_records {r : AttrRow} :
    .attr r ∈ t.records ↔ r ∈ t.spans.flatMap SpanRow.attrRows := by
  simp [Telemetry.records]

theorem not_new_of_metric {m : MetricSupply} (hm : m ∈ metricsSupply t i.window)
    (hold : ¬ i.Quarantined m.firstSeen) : ¬ t.New i.window.start (.metric m.name) := by
  obtain ⟨name, _, rfl⟩ := List.mem_map.1 hm
  have ⟨x, hx, hle⟩ := exists_old hold
  obtain ⟨r, hr, rfl⟩ := List.mem_map.1 hx
  have ⟨hwindow, hname⟩ := List.mem_filter.1 hr
  have hmem := metric_mem_records.2 (List.mem_filter.1 hwindow).1
  have hname : r.name = name := of_decide_eq_true hname
  have hitem : (Record.metric r).item = .metric name := congrArg Item.metric hname
  exact hitem ▸ not_new hmem hle

theorem not_new_of_stream {s : LogStreamSupply} (hs : s ∈ logStreamsSupply t i.window)
    (hold : ¬ i.Quarantined s.firstSeen) :
    ¬ t.New i.window.start (.stream s.service s.severityNumber) := by
  obtain ⟨stream, _, rfl⟩ := List.mem_map.1 hs
  have ⟨x, hx, hle⟩ := exists_old hold
  obtain ⟨r, hr, rfl⟩ := List.mem_map.1 hx
  have ⟨hwindow, hstream⟩ := List.mem_filter.1 hr
  have hmem := log_mem_records.2 (List.mem_filter.1 hwindow).1
  have hstream : r.stream = stream := of_decide_eq_true hstream
  subst hstream
  exact not_new hmem hle

theorem not_new_of_attr {a : SpanAttrSupply} (ha : a ∈ spanAttrsSupply t i.window n)
    (hold : ¬ i.Quarantined a.firstSeen) : ¬ t.New i.window.start (.attr a.service a.key) := by
  obtain ⟨attr, _, rfl⟩ := List.mem_map.1 ha
  have ⟨x, hx, hle⟩ := exists_old hold
  obtain ⟨r, hr, rfl⟩ := List.mem_map.1 hx
  have ⟨hsampled, hattr⟩ := List.mem_filter.1 hr
  have ⟨span, hspan, hrow⟩ := List.mem_flatMap.1 hsampled
  have hstored : span ∈ t.spans := (List.mem_filter.1 (List.mem_of_mem_take hspan)).1
  have hmem := attr_mem_records.2 (List.mem_flatMap.2 ⟨span, hstored, hrow⟩)
  have hattr : r.attr = attr := of_decide_eq_true hattr
  subst hattr
  exact not_new hmem hle

end Supplied

/-! ## The changes, judged -/

section Judged

variable {i : TelemetryInput} {t : Telemetry} {n : Nat} {c : Change}

theorem suggests_evaluateTelemetry (hmature : i.demand.Mature i.window.start) :
    Suggests (evaluateTelemetry i t n) c ↔
      (∃ m ∈ metricsSupply t i.window, UnusedMetric i m ∧ c = .dropMetric m.name) ∨
      (∃ s ∈ logStreamsSupply t i.window, ∃ b, bandFloor s.severityNumber = some b ∧
        UnviewedStream i s ∧ c = .dropLogs s.service (floorNumber b.2)) ∨
      ∃ a ∈ spanAttrsSupply t i.window n, AttrChange i a c := by
  rw [evaluateTelemetry, if_pos hmature, suggests_append, suggests_append,
    suggests_evalUnusedMetrics, suggests_evalUnviewedLogs, suggests_evalSpanAttributes, or_assoc]

theorem Change.Removes.metric {name : String} {r : Record} (h : (dropMetric name).Removes r) :
    ∃ x, r = .metric x ∧ x.name = name := by
  cases r with
  | metric x => exact ⟨x, rfl, h⟩
  | log x => nomatch h
  | attr x => nomatch h

theorem Change.Removes.log {service : String} {below : Int} {r : Record}
    (h : (dropLogs service below).Removes r) :
    ∃ x, r = .log x ∧ x.service = service ∧ x.severityNumber < below := by
  cases r with
  | metric x => nomatch h
  | log x => exact ⟨x, rfl, h⟩
  | attr x => nomatch h

theorem Change.Removes.attr {service key : String} {r : Record}
    (h : (deleteKey service key).Removes r) :
    ∃ x, r = .attr x ∧ x.service = service ∧ x.key = key := by
  cases r with
  | metric x => nomatch h
  | log x => nomatch h
  | attr x => exact ⟨x, rfl, h⟩

theorem Change.Removes.family {service keyPrefix : String} {r : Record}
    (h : (deleteMatchingKeys service keyPrefix).Removes r) :
    ∃ x, r = .attr x ∧ x.service = service ∧ hasPrefix x.key keyPrefix := by
  cases r with
  | metric x => nomatch h
  | log x => nomatch h
  | attr x => exact ⟨x, rfl, h⟩

theorem OthersAlike.harmless (h : i.demand.Mature i.window.start → OthersAlike i t n) :
    Harmless i t n := by
  intro c hc r hr hwindow hremoves
  by_cases hmature : i.demand.Mature i.window.start
  · have hothers := h hmature
    rcases (suggests_evaluateTelemetry hmature).1 hc with
      ⟨m, hm, hunused, rfl⟩ | ⟨s, hs, b, hb, hunviewed, rfl⟩ | ⟨a, ha, hunused, hchange⟩
    · obtain ⟨x, rfl, hname⟩ := hremoves.metric
      refine ⟨fun huse => ?_, ?_⟩
      · cases huse with
        | inl horg => exact hunused.2.1 (hname ▸ horg)
        | inr hservice =>
          by_cases hlisted : x.service ∈ m.services
          · exact hunused.2.2.1 x.service hlisted (hname ▸ hservice)
          · exact hothers.metrics m hm hunused x (metric_mem_records.1 hr) hwindow hname hlisted
              hservice
      · have hold := not_new_of_metric hm hunused.1
        rw [← hname] at hold
        exact hold
    · obtain ⟨x, rfl, hservice, hbelow⟩ := hremoves.log
      refine ⟨fun huse => hunviewed.2.1 (hservice ▸ huse), ?_⟩
      by_cases hband : band x.severityNumber = s.severityNumber
      · have hold := not_new_of_stream hs hunviewed.1
        rw [← hservice, ← hband] at hold
        exact hold
      · exact hothers.logs s hs hunviewed b hb x (log_mem_records.1 hr) hwindow hservice hbelow
          hband
    · have hold := not_new_of_attr ha hunused.1
      rcases hchange with ⟨hecho, rfl⟩ | ⟨_, _, rfl⟩
      · obtain ⟨x, rfl, hservice, hprefix⟩ := hremoves.family
        by_cases hkey : x.key = a.key
        · rw [← hservice, ← hkey] at hold
          exact ⟨fun huse => hunused.2.1 (hservice ▸ hkey ▸ huse), hold⟩
        · exact hothers.attrs a ha hunused hecho x (attr_mem_records.1 hr) hwindow hservice hprefix
            hkey
      · obtain ⟨x, rfl, hservice, hkey⟩ := hremoves.attr
        rw [← hservice, ← hkey] at hold
        exact ⟨fun huse => hunused.2.1 (hservice ▸ hkey ▸ huse), hold⟩
  · obtain ⟨f, hf, _⟩ := hc
    rw [evaluateTelemetry, if_neg hmature] at hf
    nomatch hf

theorem Harmless.othersAlike (h : Harmless i t n) (hmature : i.demand.Mature i.window.start) :
    OthersAlike i t n where
  metrics m hm hunused r hr hwindow hname _ huse := by
    have hsuggested := (suggests_evaluateTelemetry (t := t) (n := n) hmature).2
      (Or.inl ⟨m, hm, hunused, rfl⟩)
    exact (h _ hsuggested (.metric r) (metric_mem_records.2 hr) hwindow hname).1 (Or.inr huse)
  logs s hs hunviewed b hb r hr hwindow hservice hbelow _ := by
    have hsuggested := (suggests_evaluateTelemetry (t := t) (n := n) hmature).2
      (Or.inr (Or.inl ⟨s, hs, b, hb, hunviewed, rfl⟩))
    exact (h _ hsuggested (.log r) (log_mem_records.2 hr) hwindow ⟨hservice, hbelow⟩).2
  attrs a ha hunused hecho r hr hwindow hservice hprefix _ := by
    have hsuggested := (suggests_evaluateTelemetry (t := t) (n := n) hmature).2
      (Or.inr (Or.inr ⟨a, ha, hunused, Or.inl ⟨hecho, rfl⟩⟩))
    exact h _ hsuggested (.attr r) (attr_mem_records.2 hr) hwindow ⟨hservice, hprefix⟩

end Judged

/-- **What the advisor suggests is harmless just when nothing else that it reaches is in use or
new**: the services of an unused metric past the ten that are listed, the other bands below the
floor of an unviewed stream, and the other attributes of an echoed family. -/
theorem harmless_iff (i : TelemetryInput) (t : Telemetry) (sampleRows : Nat) :
    Harmless i t sampleRows ↔ (i.demand.Mature i.window.start → OthersAlike i t sampleRows) :=
  ⟨Harmless.othersAlike, OthersAlike.harmless⟩

/-! Half a day of a gateway that echoes its headers, and of a metric that eleven services send. -/

private def halfADay : Window where
  start := 400 * day
  stop := 400 * day + day / 2

private def headers : Telemetry where
  spans := [{
    service := "gateway"
    attributes := [("http.request.header.accept", "*/*"), ("http.request.header.x-tenant", "7")]
    timestamp := 400 * day }]

private def mapped : DemandSet where
  earliest := 300 * day
  mechanical := fun k => if k = "trace|gateway|http.request.header.x-tenant" then 399 * day else 0

private def services : List String := ["a", "b", "c", "d", "e", "f", "g", "h", "i", "j", "k"]

private def depths : Telemetry where
  metrics := services.flatMap fun service =>
    List.replicate 10 { service := service, name := "queue.depth", timestamp := 400 * day }

private def watched : DemandSet where
  earliest := 300 * day
  mechanical := fun k => if k = "metric|k|queue.depth" then 399 * day else 0

/-- The family goes with the header that is in use, and the metric with the service that it is
in use on. -/
theorem not_harmless :
    ¬ Harmless { demand := mapped, window := halfADay } headers sampleRows ∧
    ¬ Harmless { demand := watched, window := halfADay } depths sampleRows := by
  constructor
  · intro h
    have hattrs := (h.othersAlike (by decide)).attrs
    have hused := hattrs ⟨"gateway", "http.request.header.accept", 1, 1, 1, 400 * day, 29⟩
      (by decide +kernel) (by decide +kernel) (by decide +kernel)
      ⟨"gateway", "http.request.header.x-tenant", "7", 400 * day⟩
      (by decide +kernel) (by decide) rfl (by decide +kernel) (by decide)
    exact hused.1 (by decide +kernel)
  · intro h
    have hmetrics := (h.othersAlike (by decide)).metrics
    have hunused := hmetrics ⟨"queue.depth", 110, services.take 10, 400 * day, 2090⟩
      (by decide +kernel) (by decide +kernel) ⟨"k", "queue.depth", [], 400 * day⟩
      (by decide +kernel) (by decide) rfl (by decide +kernel)
    exact hunused (by decide +kernel)

end Sluicio.Advisor
