import Sluicio.Api.MessageSearch

/-!
# Muted rows

A search and the search without its muted rows have one window unless a muted row on the time
comes first, and are accepted alike unless the request is refused for a muted row.  Then they
have one answer.
-/

namespace Sluicio.Api.MessageSearch

open Demand (disallowedFilterField)
open Integrations (MessageFilter)
open Messageviews MessageSearch.Handlers

section Muted

variable (h : Handlers) (now : Int) (req : SearchRequest)

/-- Two requests are accepted alike, over one window and with one result. -/
structure SameAnswer (req req' : SearchRequest) : Prop where
  decision : (h.searchMessages now req).isRefused = (h.searchMessages now req').isRefused
  window : resolveRange h now req = resolveRange h now req'
  result : (h.searchMessages now req).isRefused = false →
    h.searchMessages now req = h.searchMessages now req'

/-- The rows pass: each is well formed, they can be built, and the integration allows their
fields. -/
def Passes (window : TimeRange) (filters : List Filter) : Prop :=
  (∀ f ∈ filters, f.validate = .ok ()) ∧
    ∃ plan, buildPlan h.toLower filters = .ok plan ∧
      disallowedFilterField filters (h.allowedFields plan window) = none

/-- A muted row passes: it is well formed, and its field is allowed. -/
def RowPasses (window : TimeRange) (f : Filter) : Prop :=
  f.validate = .ok () ∧ ∀ plan, buildPlan h.toLower req.filters = .ok plan →
    disallowedFilterField [f] (h.allowedFields plan window) = none

/-- No muted row decides the window: the first row with a preset is muted only where it asks for
what the first one that is not muted does, or else for the range of the request. -/
def KeepsWindow : Prop :=
  ∀ f, presetRow h.toLower req.filters = some f → f.optional →
    rangeFromRelative h.readers now (durationFromPreset h.toLower f.value) =
      match presetRow h.toLower req.unmuted.filters with
      | some g => rangeFromRelative h.readers now (durationFromPreset h.toLower g.value)
      | none => requestedRange h now req

end Muted

section Window

variable {h : Handlers} {now : Int} {req : SearchRequest} {toLower : String → String}
  {filters : List Filter}

theorem presetRow_unmuted {f : Filter} (hf : presetRow toLower filters = some f)
    (hmuted : f.optional = false) : presetRow toLower (unmuted filters) = some f := by
  unfold presetRow at hf ⊢
  induction filters with
  | nil => cases hf
  | cons g fs ih =>
    rw [List.find?_cons] at hf
    by_cases hg : (decide (g.field = .time) && decide (durationFromPreset toLower g.value ≠ "")) =
        true
    · rw [hg] at hf
      obtain rfl : g = f := Option.some.inj hf
      rw [unmuted, List.filter_cons_of_pos (by simp [hmuted]), List.find?_cons, hg]
    rw [Bool.not_eq_true] at hg
    rw [hg] at hf
    have hrest := ih hf
    by_cases hgm : g.optional = true
    · rw [unmuted, List.filter_cons_of_neg (by simp [hgm])]
      exact hrest
    · rw [unmuted, List.filter_cons_of_pos (by simp [hgm]), List.find?_cons, hg]
      exact hrest

theorem presetRow_unmuted_none (hf : presetRow toLower filters = none) :
    presetRow toLower (unmuted filters) = none := by
  unfold presetRow at hf ⊢
  rw [List.find?_eq_none] at hf ⊢
  intro f hmem
  exact hf f (mem_unmuted.mp hmem).1

/-- **When the window stays.** -/
theorem resolveRange_unmuted_iff :
    resolveRange h now req = resolveRange h now req.unmuted ↔ KeepsWindow h now req := by
  unfold KeepsWindow
  cases hrow : presetRow h.toLower req.filters with
  | none =>
    have hwithout : presetRow h.toLower req.unmuted.filters = none :=
      presetRow_unmuted_none hrow
    simp only [resolveRange, hrow, hwithout, reduceCtorEq, false_implies, implies_true, iff_true]
    rfl
  | some f =>
    have hwindow : resolveRange h now req =
        rangeFromRelative h.readers now (durationFromPreset h.toLower f.value) := by
      rw [resolveRange, hrow]
    rw [hwindow]
    constructor
    · intro heq g hg _
      obtain rfl := Option.some.inj hg
      exact heq
    · intro hkeeps
      by_cases hmuted : f.optional = true
      · exact hkeeps f rfl hmuted
      · have hwithout : presetRow h.toLower req.unmuted.filters = some f :=
          presetRow_unmuted hrow (by simpa using hmuted)
        rw [resolveRange, hwithout]

end Window

section Decision

variable {h : Handlers} {now : Int} {req : SearchRequest} {plan : Plan} {window : TimeRange}
  {filters filters' : List Filter}

theorem disallowedFilterField_eq_none {allowed : List MessageFilter} :
    disallowedFilterField filters allowed = none ↔
      ∀ f ∈ filters, disallowedFilterField [f] allowed = none := by
  unfold disallowedFilterField
  by_cases hnil : allowed = []
  · simp [hnil]
  · simp [hnil, List.findSome?_eq_none_iff]

theorem isRefused_finish (n : Narrowed) :
    (h.reply (h.finish plan window n req)).isRefused = false := by
  simp only [finish]
  by_cases hempty : (h.scope window).empty = true
  · rw [if_pos hempty]
    rfl
  rw [if_neg hempty]
  cases intersectServiceIn n.services (h.scope window) with
  | none => rfl
  | some services =>
    simp only [reply]
    split <;> rfl

theorem isRefused_withPlan :
    (h.reply (h.withPlan plan window req)).isRefused = false ↔
      disallowedFilterField req.filters (h.allowedFields plan window) = none := by
  unfold withPlan
  rw [narrow_eq]
  cases disallowedFilterField req.filters (h.allowedFields plan window) with
  | some bad => simp [reply, Reply.isRefused]
  | none =>
    simp only [iff_true]
    cases hnarrow : h.narrow plan window [] req.viewID with
    | error early =>
      obtain rfl | ⟨columns, rfl⟩ := narrow_nil_error hnarrow
      · rfl
      · rfl
    | ok n => exact isRefused_finish n

theorem isRefused_eq_false_iff :
    (h.searchMessages now req).isRefused = false ↔
      Passes h (resolveRange h now req) req.filters := by
  unfold searchMessages prepare Passes
  rw [← validateAll_eq_ok]
  cases validateAll req.filters with
  | error e => simp [reply, Reply.isRefused]
  | ok u =>
    cases buildPlan h.toLower req.filters with
    | error e => simp [reply, Reply.isRefused]
    | ok plan => simp [isRefused_withPlan]

theorem narrow_congr (viewID : String)
    (hpass : disallowedFilterField filters (h.allowedFields plan window) = none)
    (hpass' : disallowedFilterField filters' (h.allowedFields plan window) = none) :
    h.narrow plan window filters viewID = h.narrow plan window filters' viewID := by
  have hchecked : ∀ {filters},
      disallowedFilterField filters (h.allowedFields plan window) = none →
        h.narrow plan window filters viewID = h.narrow plan window [] viewID := by
    intro filters hnone
    rw [narrow_eq, hnone]
  exact (hchecked hpass).trans (hchecked hpass').symm

theorem passes_iff :
    Passes h window req.filters ↔ Passes h window req.unmuted.filters ∧
      ∀ f ∈ req.filters, f.optional → RowPasses h req window f := by
  have hplan : buildPlan h.toLower req.unmuted.filters = buildPlan h.toLower req.filters :=
    buildPlan_unmuted
  constructor
  · intro ⟨hvalid, plan, hbuild, hallowed⟩
    rw [disallowedFilterField_eq_none] at hallowed
    constructor
    · refine ⟨fun f hf => hvalid f (mem_unmuted.mp hf).1, plan, hplan.trans hbuild, ?_⟩
      rw [disallowedFilterField_eq_none]
      exact fun f hf => hallowed f (mem_unmuted.mp hf).1
    · intro f hf _
      refine ⟨hvalid f hf, fun plan' hbuild' => ?_⟩
      obtain rfl : plan = plan' := Except.ok.inj (hbuild.symm.trans hbuild')
      exact hallowed f hf
  · intro ⟨⟨hvalid, plan, hbuild, hallowed⟩, hmuted⟩
    rw [disallowedFilterField_eq_none] at hallowed
    rw [hplan] at hbuild
    refine ⟨fun f hf => ?_, plan, hbuild, disallowedFilterField_eq_none.mpr fun f hf => ?_⟩
    · by_cases hopt : f.optional = true
      · exact (hmuted f hf hopt).1
      · exact hvalid f (mem_unmuted.mpr ⟨hf, by simpa using hopt⟩)
    · by_cases hopt : f.optional = true
      · exact (hmuted f hf hopt).2 plan hbuild
      · exact hallowed f (mem_unmuted.mpr ⟨hf, by simpa using hopt⟩)

theorem searchMessages_unmuted (hwindow : resolveRange h now req = resolveRange h now req.unmuted)
    (hpass : Passes h (resolveRange h now req) req.filters) :
    h.searchMessages now req = h.searchMessages now req.unmuted := by
  have hwithout := (passes_iff.mp hpass).1
  obtain ⟨hvalid, plan, hbuild, hallowed⟩ := hpass
  obtain ⟨hvalid', plan', hbuild', hallowed'⟩ := hwithout
  obtain rfl : plan = plan' := by
    rw [SearchRequest.unmuted, buildPlan_unmuted, hbuild] at hbuild'
    exact Except.ok.inj hbuild'
  have hnarrow := narrow_congr req.viewID hallowed hallowed'
  unfold searchMessages prepare
  rw [validateAll_eq_ok.mpr hvalid, validateAll_eq_ok.mpr hvalid', hbuild, hbuild', ← hwindow]
  simp only [withPlan]
  rw [hnarrow]
  rfl

/-- **When a muted row changes nothing.**  A search and the search without its muted rows are
answered alike if and only if no muted row decides the window, and, unless the search without
them is refused, every muted row passes the checks of the others. -/
theorem sameAnswer_unmuted_iff :
    SameAnswer h now req req.unmuted ↔
      KeepsWindow h now req ∧
        (Passes h (resolveRange h now req.unmuted) req.unmuted.filters →
          ∀ f ∈ req.filters, f.optional →
            RowPasses h req (resolveRange h now req.unmuted) f) := by
  rw [← resolveRange_unmuted_iff]
  constructor
  · intro hsame
    refine ⟨hsame.window, fun hpass => ?_⟩
    have haccepted : (h.searchMessages now req).isRefused = false := by
      rw [hsame.decision]
      exact isRefused_eq_false_iff.mpr hpass
    have hall := isRefused_eq_false_iff.mp haccepted
    rw [hsame.window] at hall
    exact (passes_iff.mp hall).2
  · intro ⟨hwindow, hmuted⟩
    have hiff : Passes h (resolveRange h now req) req.filters ↔
        Passes h (resolveRange h now req.unmuted) req.unmuted.filters := by
      rw [hwindow]
      constructor
      · intro hpass
        exact (passes_iff.mp hpass).1
      · intro hpass
        exact passes_iff.mpr ⟨hpass, hmuted hpass⟩
    refine ⟨?_, hwindow, fun haccepted => ?_⟩
    · rw [← isRefused_eq_false_iff, ← isRefused_eq_false_iff] at hiff
      rw [Bool.eq_iff_iff, ← not_iff_not, Bool.not_eq_true, Bool.not_eq_true]
      exact hiff
    · exact searchMessages_unmuted hwindow (isRefused_eq_false_iff.mp haccepted)

end Decision

/-! ## Two muted rows -/

private def ordersIntegration : Demand.Integration where
  id := 7
  name := "orders"
  messageFilters := [{ key := "order.id" }]

private def ordersHandlers : Handlers where
  traces := []
  texts := {
    position := fun _ _ => false
    isMatch := fun _ _ => false
    lower := fun s => s }
  readers := {
    parseDuration := fun s => if s = "168h" then some (168 * hour) else none
    scanDays := fun _ => none
    parseTime := fun _ _ => none }
  equalFold := fun s t => s = t
  integrations := [ordersIntegration]
  servicesForIntegration := fun _ _ => .ok ["checkout"]
  integrationClause := fun _ _ => none
  viewColumns := fun _ => none
  scope := fun _ => { unrestricted := true }

private def lastWeekMuted : SearchRequest where
  filters := [{ field := .time, op := .is, value := "last 7 days", optional := true }]

private def customerMuted : SearchRequest where
  filters := [{ field := .integration, op := .is, value := "orders" },
    { field := .payload, fieldPath := "customer.id", op := .equals, value := "77"
      optional := true }]

/-- The muted row on the time makes the window a week long, and for the muted row on the
attribute the request is refused. -/
theorem muted_rows_change_answers :
    ¬SameAnswer ordersHandlers 0 lastWeekMuted lastWeekMuted.unmuted ∧
      ¬SameAnswer ordersHandlers 0 customerMuted customerMuted.unmuted := by
  constructor
  · intro hsame
    have hwindow := hsame.window
    have hne : resolveRange ordersHandlers 0 lastWeekMuted ≠
        resolveRange ordersHandlers 0 lastWeekMuted.unmuted := by decide +kernel
    exact hne hwindow
  · intro hsame
    have hdecision := hsame.decision
    have hne : (ordersHandlers.searchMessages 0 customerMuted).isRefused ≠
        (ordersHandlers.searchMessages 0 customerMuted.unmuted).isRefused := by decide +kernel
    exact hne hdecision

end Sluicio.Api.MessageSearch
