import Sluicio.Alerting.Evaluate

/-!
# The renotify tick

`renotifyOnce` lists the firing, unacknowledged instances and decides for each of
them, or for each per-integration stream of them, whether to page, to stamp it as
muted, or to do nothing.  Every decision reads the listed rows, the rules, the
routing and the windows, and none of them is written before the tick ends but the
window cache, which its first use refreshes.  So the decisions of one tick are
listed first and carried out after.
-/

namespace Sluicio.Alerting

/-- A row of `FiringUnackedInstances`. -/
structure FiringUnackedInstance where
  instanceID : UUID
  ruleID : UUID
  environment : Option String
  startedAt : Time
  lastNotifiedAt : Option Time
  suppressedBy : Option UUID
  deriving DecidableEq

def AlertInstance.toFiringUnacked (i : AlertInstance) : FiringUnackedInstance :=
  { instanceID := i.id, ruleID := i.alertRuleID, environment := i.environment,
    startedAt := i.startedAt, lastNotifiedAt := i.lastNotifiedAt,
    suppressedBy := i.suppressedBy }

/-- `FiringUnackedInstances`: the query joins the rules, and promises no order. -/
def State.firingUnackedInstances (s : State) : List FiringUnackedInstance :=
  (s.instances.filter fun i =>
    i.FiringUnacked && (s.world.rule? i.alertRuleID).isSome).map AlertInstance.toFiringUnacked

/-- An instance with its rule and the behaviour of its profile. -/
structure RenotifyItem where
  inst : FiringUnackedInstance
  rule : AlertRule
  grouping : Grouping
  renotify : Int
  deriving DecidableEq

def World.renotifyItem (w : World) (fi : FiringUnackedInstance) (rule : AlertRule) :
    RenotifyItem :=
  { inst := fi, rule := rule, grouping := (w.behavior fi.environment rule).1,
    renotify := (w.behavior fi.environment rule).2 }

def World.renotifyItems (w : World) (insts : List FiringUnackedInstance) :
    List RenotifyItem :=
  insts.filterMap fun fi => (w.rule? fi.ruleID).map (w.renotifyItem fi)

/-- The item belongs to a per-integration stream. -/
def RenotifyItem.coalesced (it : RenotifyItem) : Bool :=
  it.grouping = .perIntegration && it.rule.integrationID.isSome

/-- `integEnv`: the integration, and the environment or the empty string. -/
def RenotifyItem.stream (it : RenotifyItem) : Option UUID × String :=
  (it.rule.integrationID, it.inst.environment.getD "")

/-- `Time.Sub`, which saturates at the ends of `time.Duration`. -/
def timeSub (t u : Time) : Duration :=
  max (-2 ^ 63) (min ((t : Int) - u) (2 ^ 63 - 1))

def due (now : Time) (last : Option Time) (renotify : Int) : Bool :=
  match last with
  | none => true
  | some last =>
    if renotify ≤ 0 then false
    else wrap64 (wrap64 renotify * minute) ≤ timeSub now last

inductive RenotifyOp where
  | suppress (instanceID windowID : UUID)
  | renotify (item : RenotifyItem)
  deriving DecidableEq

/-- An instance that was never paged nor stamped is stamped with the window. -/
def RenotifyItem.stamp (it : RenotifyItem) (window : UUID) : List RenotifyOp :=
  if it.inst.lastNotifiedAt = none ∧ it.inst.suppressedBy = none then
    [.suppress it.inst.instanceID window]
  else []

def perCheckOps (covering : AlertRule → Option UUID) (now : Time) (it : RenotifyItem) :
    List RenotifyOp :=
  match covering it.rule with
  | some w => it.stamp w
  | none =>
    if it.inst.lastNotifiedAt = none then
      -- the overdue first page of an instance muted at birth
      if it.inst.suppressedBy ≠ none then [.renotify it] else []
    else if it.renotify ≤ 0 then []
    else if due now it.inst.lastNotifiedAt it.renotify then [.renotify it]
    else []

def representative (rep : RenotifyItem) : List RenotifyItem → RenotifyItem
  | [] => rep
  | it :: its =>
    representative (if it.inst.startedAt < rep.inst.startedAt then it else rep) its

/-- The body of the per-integration loop. -/
def streamOps (covering : AlertRule → Option UUID) (now : Time) :
    List RenotifyItem → List RenotifyOp
  | [] => []
  | it :: its =>
    let rep := representative it its
    match covering rep.rule with
    | some w => (it :: its).flatMap fun it => it.stamp w
    | none => if due now rep.inst.lastNotifiedAt rep.renotify then [.renotify rep] else []

/-- `perInteg`: the streams, each with its items in the order they were listed. -/
def streams (items : List RenotifyItem) : List (List RenotifyItem) :=
  (items.map RenotifyItem.stream).dedup.map fun k => items.filter fun it => it.stream = k

/-- Everything one tick decides. -/
def renotifyOps (covering : AlertRule → Option UUID) (now : Time)
    (items : List RenotifyItem) : List RenotifyOp :=
  (items.filter fun it => !it.coalesced).flatMap (perCheckOps covering now) ++
    (streams (items.filter RenotifyItem.coalesced)).flatMap (streamOps covering now)

def State.applyRenotify (faults : UUID → Fault) (s : State) : RenotifyOp → State
  | .suppress instanceID windowID => s.markInstanceSuppressed instanceID windowID
  | .renotify it =>
    s.renotifyInstance (faults it.inst.instanceID) it.inst.environment it.inst.instanceID it.rule

/-- The decisions of a tick on the rows its query returned. -/
def State.renotifyPlan (s : State) (insts : List FiringUnackedInstance) : List RenotifyOp :=
  renotifyOps (coveringWindow s.refreshWindows.mwCache) s.world.now (s.world.renotifyItems insts)

/-- `renotifyOnce`, on the rows its query returned; `faults` are those of the
enqueue calls. -/
def State.renotifyOnce (s : State) (faults : UUID → Fault)
    (insts : List FiringUnackedInstance) : State :=
  if s.world.renotifyItems insts = [] then s
  else (s.renotifyPlan insts).foldl (State.applyRenotify faults) s.refreshWindows

/-! ## What a tick touches -/

theorem representative_mem (rep : RenotifyItem) (its : List RenotifyItem) :
    representative rep its ∈ rep :: its := by
  induction its generalizing rep with
  | nil => simp [representative]
  | cons it its ih =>
    unfold representative
    split
    · exact List.mem_cons_of_mem _ (ih it)
    rcases List.mem_cons.1 (ih rep) with heq | hmem
    · rw [heq]
      exact List.mem_cons_self
    · exact List.mem_cons_of_mem _ (List.mem_cons_of_mem _ hmem)

theorem mem_streams {items stream : List RenotifyItem} (h : stream ∈ streams items) :
    ∃ it ∈ items, stream = items.filter fun it' => it'.stream = it.stream := by
  obtain ⟨k, hk, rfl⟩ := List.mem_map.1 h
  obtain ⟨it, hit, rfl⟩ := List.mem_map.1 (List.mem_dedup.1 hk)
  exact ⟨it, hit, rfl⟩

variable {it : RenotifyItem} {s : State} {op : RenotifyOp} {insts : List FiringUnackedInstance}

theorem mem_stamp {w : UUID} (h : op ∈ it.stamp w) :
    op = .suppress it.inst.instanceID w ∧ it.inst.lastNotifiedAt = none ∧
      it.inst.suppressedBy = none := by
  unfold RenotifyItem.stamp at h
  split at h
  · next hnone => exact ⟨by simpa using h, hnone⟩
  · cases h

theorem mem_perCheckOps {covering : AlertRule → Option UUID} {now : Time}
    (h : op ∈ perCheckOps covering now it) : (∃ w, op ∈ it.stamp w) ∨ op = .renotify it := by
  unfold perCheckOps at h
  split at h
  · exact .inl ⟨_, h⟩
  right
  split at h
  · split at h
    · simpa using h
    · cases h
  split at h
  · cases h
  · split at h
    · simpa using h
    · cases h

theorem State.mem_renotifyItems (hinsts : insts.Perm s.firingUnackedInstances) :
    it ∈ s.world.renotifyItems insts ↔
      ∃ i ∈ s.instances, i.FiringUnacked ∧ ∃ rule,
        s.world.rule? i.alertRuleID = some rule ∧
        it = s.world.renotifyItem i.toFiringUnacked rule := by
  unfold World.renotifyItems State.firingUnackedInstances at *
  rw [List.mem_filterMap]
  constructor
  · rintro ⟨fi, hfi, hit⟩
    obtain ⟨rule, hrule, rfl⟩ := Option.map_eq_some_iff.1 hit
    obtain ⟨i, hi, rfl⟩ := List.mem_map.1 (hinsts.mem_iff.1 hfi)
    have hi := List.mem_filter.1 hi
    simp only [Bool.and_eq_true, decide_eq_true_eq] at hi
    exact ⟨i, hi.1, hi.2.1, rule, hrule, rfl⟩
  · rintro ⟨i, hi, hfiring, rule, hrule, rfl⟩
    refine ⟨i.toFiringUnacked, hinsts.mem_iff.2 (List.mem_map_of_mem ?_), ?_⟩
    · simp [hi, hfiring, hrule]
    · simp [AlertInstance.toFiringUnacked, hrule]

/-- **The invariant rule of a tick.**  What survives the refresh of the window
cache and every decision of the plan survives the tick. -/
theorem State.renotifyOnce_invariant {P : State → Prop} {faults : UUID → Fault} (hs : P s)
    (hrefresh : P s.refreshWindows)
    (hop : ∀ t, ∀ op ∈ s.renotifyPlan insts, P t → P (t.applyRenotify faults op)) :
    P (s.renotifyOnce faults insts) := by
  unfold State.renotifyOnce
  split
  · exact hs
  · exact List.foldlRecOn _ _ hrefresh fun t ht op hmem => hop t op hmem ht

end Sluicio.Alerting
