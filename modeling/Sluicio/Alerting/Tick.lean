import Sluicio.Alerting.Runs

/-!
# What one renotify tick does

A tick writes two columns of the instances, the watermark and the stamp, and
appends jobs.  A page of its plan is enqueued for an instance that is still firing,
since nothing a tick writes changes an instance's state.
-/

namespace Sluicio.Alerting

open Lib State

/-- A notification of this transition has been enqueued for the instance. -/
def State.Notified (s : State) (instanceID : UUID) (st : InstanceState) : Prop :=
  ∃ j ∈ s.jobs, j.alertInstanceID = instanceID ∧ j.forState = st

instance (s : State) (instanceID : UUID) (st : InstanceState) :
    Decidable (s.Notified instanceID st) :=
  inferInstanceAs (Decidable (∃ j ∈ s.jobs, _))

variable {insts : List FiringUnackedInstance} {i' i : AlertInstance} {s t : State}
  {it : RenotifyItem} {faults : UUID → Fault} {id : UUID} {st : InstanceState}

theorem State.Notified.mono (h : s.Notified id st) (hjobs : s.jobs <+: t.jobs) :
    t.Notified id st := by
  obtain ⟨j, hj, hjob⟩ := h
  exact ⟨j, hjobs.subset hj, hjob⟩

theorem State.Notified.enqueueJobs (h : s.Notified id st) (fault : Fault) (instanceID : UUID)
    (channelIDs : List UUID) (window : Duration) :
    (s.enqueueJobs fault instanceID channelIDs window).2.Notified id st := by
  refine h.mono ?_
  rw [enqueueJobs_jobs]
  exact List.prefix_append _ _

theorem State.page_jobs (s : State) (fault : Fault) (env : Option String)
    (instanceID : UUID) (rule : AlertRule) :
    (s.page fault env instanceID rule).jobs =
      s.jobs ++ s.appendedJobs fault instanceID (s.world.channelsFor env rule)
        s.world.deliveryWindow := by
  rw [← enqueueJobs_jobs]
  unfold State.page
  dsimp only
  split <;> rfl

theorem State.notified_page {fault : Fault} {env : Option String} {rule : AlertRule}
    (hi : i ∈ s.instances) (hids : (s.instances.map (·.id)).Nodup)
    (hins : insertedChannels fault (s.world.channelsFor env rule) ≠ []) :
    (s.page fault env i.id rule).Notified i.id i.state := by
  obtain ⟨j, hj, hjob⟩ := exists_appendedJob s.world.deliveryWindow hi hids hins
  refine ⟨j, ?_, hjob⟩
  rw [page_jobs]
  exact List.mem_append_right _ hj

/-! ## The frame of a tick -/

/-- The row without the columns a tick writes. -/
def AlertInstance.unmarked (i : AlertInstance) : AlertInstance :=
  { i with lastNotifiedAt := none, suppressedBy := none }

/-- Two rows that agree but for the columns a tick writes. -/
structure SameRow (i i' : AlertInstance) : Prop where
  id : i'.id = i.id
  alertRuleID : i'.alertRuleID = i.alertRuleID
  state : i'.state = i.state
  environment : i'.environment = i.environment
  startedAt : i'.startedAt = i.startedAt
  handledAt : i'.handledAt = i.handledAt
  fingerprint : i'.fingerprint = i.fingerprint

theorem SameRow.refl (i : AlertInstance) : SameRow i i :=
  ⟨rfl, rfl, rfl, rfl, rfl, rfl, rfl⟩

theorem SameRow.trans {j k : AlertInstance} (h : SameRow i j) (h' : SameRow j k) :
    SameRow i k where
  id := h'.id.trans h.id
  alertRuleID := h'.alertRuleID.trans h.alertRuleID
  state := h'.state.trans h.state
  environment := h'.environment.trans h.environment
  startedAt := h'.startedAt.trans h.startedAt
  handledAt := h'.handledAt.trans h.handledAt
  fingerprint := h'.fingerprint.trans h.fingerprint

theorem sameRow_of_unmarked (h : i'.unmarked = i.unmarked) : SameRow i i' := by
  cases i
  cases i'
  simp only [AlertInstance.unmarked, AlertInstance.mk.injEq] at h
  obtain ⟨hid, hrule, hstate, hfp, henv, hstarted, _, _, hhandled, _, _⟩ := h
  exact ⟨hid, hrule, hstate, henv, hstarted, hhandled, hfp⟩

theorem SameRow.firingUnacked (h : SameRow i i') : i'.FiringUnacked ↔ i.FiringUnacked := by
  unfold AlertInstance.FiringUnacked
  rw [h.state, h.handledAt]

/-- `t` differs from `s` in watermarks, which are set to the time of the tick, stamps,
appended jobs and the cache. -/
structure TickFrame (s t : State) : Prop where
  world : t.world = s.world
  rows : t.instances.map AlertInstance.unmarked = s.instances.map AlertInstance.unmarked
  marks : ∀ i ∈ s.instances, ∃ i' ∈ t.instances, SameRow i i' ∧
    (i'.lastNotifiedAt = i.lastNotifiedAt ∨ i'.lastNotifiedAt = some s.world.now)
  jobs : s.jobs <+: t.jobs

theorem TickFrame.refl (s : State) : TickFrame s s :=
  ⟨rfl, rfl, fun i hi => ⟨i, hi, SameRow.refl i, .inl rfl⟩, List.prefix_rfl⟩

theorem TickFrame.trans {u : State} (h : TickFrame s t) (h' : TickFrame t u) :
    TickFrame s u where
  world := h'.world.trans h.world
  rows := h'.rows.trans h.rows
  marks := by
    intro i hi
    obtain ⟨i', hi', hsame, hmark⟩ := h.marks i hi
    obtain ⟨i'', hi'', hsame', hmark'⟩ := h'.marks i' hi'
    refine ⟨i'', hi'', hsame.trans hsame', ?_⟩
    rw [h.world] at hmark'
    rcases hmark' with heq | heq
    · rwa [heq]
    · exact .inr heq
  jobs := h.jobs.trans h'.jobs

theorem TickFrame.kept (h : TickFrame s t) (hi : i ∈ s.instances) :
    ∃ i' ∈ t.instances, SameRow i i' := by
  obtain ⟨i', hi', hsame, _⟩ := h.marks i hi
  exact ⟨i', hi', hsame⟩

theorem TickFrame.old (h : TickFrame s t) (hi' : i' ∈ t.instances) :
    ∃ i ∈ s.instances, SameRow i i' := by
  have hmem : i'.unmarked ∈ s.instances.map AlertInstance.unmarked := by
    rw [← h.rows]
    exact List.mem_map_of_mem hi'
  obtain ⟨i, hi, hrow⟩ := List.mem_map.1 hmem
  exact ⟨i, hi, sameRow_of_unmarked hrow.symm⟩

theorem tickFrame_updateWhere (s : State) {p : AlertInstance → Bool}
    {f : AlertInstance → AlertInstance} (hf : ∀ i, (f i).unmarked = i.unmarked)
    (hmark : ∀ i, (f i).lastNotifiedAt = i.lastNotifiedAt ∨
      (f i).lastNotifiedAt = some s.world.now) :
    TickFrame s { s with instances := updateWhere p f s.instances } where
  world := rfl
  rows := map_updateWhere hf s.instances
  marks := by
    intro i hi
    cases hp : p i
    · exact ⟨i, mem_updateWhere_of_not hi hp, SameRow.refl i, .inl rfl⟩
    · exact ⟨f i, mem_updateWhere_of hi hp, sameRow_of_unmarked (hf i), hmark i⟩
  jobs := List.prefix_rfl

theorem TickFrame.ids (h : TickFrame s t) : t.instances.map (·.id) = s.instances.map (·.id) := by
  have hmap := congrArg (List.map fun i : AlertInstance => i.id) h.rows
  simpa [AlertInstance.unmarked, Function.comp_def] using hmap

section TickFrame

variable (s : State)

theorem tickFrame_append {t : State} (hworld : t.world = s.world)
    (hinst : t.instances = s.instances) (hjobs : s.jobs <+: t.jobs) : TickFrame s t := by
  refine ⟨hworld, by rw [hinst], fun i hi => ⟨i, ?_, SameRow.refl i, .inl rfl⟩, hjobs⟩
  rwa [hinst]

theorem tickFrame_refreshWindows : TickFrame s s.refreshWindows :=
  tickFrame_append s s.refreshWindows_world s.refreshWindows_instances
    (s.refreshWindows_jobs ▸ List.prefix_rfl)

theorem tickFrame_markInstanceSuppressed (instanceID windowID : UUID) :
    TickFrame s (s.markInstanceSuppressed instanceID windowID) :=
  tickFrame_updateWhere s (fun _ => rfl) fun _ => .inl rfl

theorem tickFrame_page (fault : Fault) (env : Option String) (instanceID : UUID)
    (rule : AlertRule) : TickFrame s (s.page fault env instanceID rule) := by
  have hjobs : TickFrame s (s.enqueueJobs fault instanceID (s.world.channelsFor env rule)
      s.world.deliveryWindow).2 := by
    refine tickFrame_append s (s.enqueueJobs_world _ _ _ _) (s.enqueueJobs_instances _ _ _ _) ?_
    rw [enqueueJobs_jobs]
    exact List.prefix_append _ _
  unfold State.page
  dsimp only
  split
  · exact hjobs.trans (tickFrame_updateWhere _ (fun _ => rfl) fun _ => .inr rfl)
  · exact hjobs

theorem tickFrame_applyRenotify (faults : UUID → Fault) (op : RenotifyOp) :
    TickFrame s (s.applyRenotify faults op) := by
  cases op with
  | suppress instanceID windowID => exact tickFrame_markInstanceSuppressed s _ _
  | renotify it => exact tickFrame_page s _ _ _ _

theorem tickFrame_foldl (faults : UUID → Fault) (ops : List RenotifyOp) :
    TickFrame s (ops.foldl (applyRenotify faults) s) := by
  induction ops generalizing s with
  | nil => exact TickFrame.refl s
  | cons op ops ih => exact (tickFrame_applyRenotify s faults op).trans (ih _)

theorem tickFrame_renotifyOnce (faults : UUID → Fault)
    (insts : List FiringUnackedInstance) : TickFrame s (s.renotifyOnce faults insts) := by
  unfold renotifyOnce
  split
  · exact TickFrame.refl s
  · exact (tickFrame_refreshWindows s).trans (tickFrame_foldl _ faults _)

end TickFrame

/-! ## The pages of a tick -/

theorem State.renotifyPlan_nil (h : s.world.renotifyItems insts = []) :
    s.renotifyPlan insts = [] := by
  simp [renotifyPlan, h, renotifyOps, streams]

theorem State.renotifyOnce_page (faults : UUID → Fault)
    (hplan : .renotify it ∈ s.renotifyPlan insts) :
    ∃ t, TickFrame s t ∧ TickFrame (t.page (faults it.inst.instanceID) it.inst.environment
      it.inst.instanceID it.rule) (s.renotifyOnce faults insts) := by
  unfold renotifyOnce
  split
  · next hnil =>
    rw [renotifyPlan_nil hnil] at hplan
    cases hplan
  · obtain ⟨before, after, hsplit⟩ := List.append_of_mem hplan
    rw [hsplit, List.foldl_append, List.foldl_cons]
    exact ⟨_, (tickFrame_refreshWindows s).trans (tickFrame_foldl _ faults before),
      tickFrame_foldl _ faults after⟩

/-- **A page of the plan reaches its instance.** -/
theorem State.appended_renotifyOnce (hkeyed : s.Keyed) (hplan : .renotify it ∈ s.renotifyPlan insts)
    (hi : i ∈ s.instances) (hid : i.id = it.inst.instanceID)
    (hins : insertedChannels (faults it.inst.instanceID)
      (s.world.channelsFor it.inst.environment it.rule) ≠ []) :
    ∃ j ∈ (s.renotifyOnce faults insts).jobs.drop s.jobs.length,
      j.alertInstanceID = i.id ∧ j.forState = i.state := by
  obtain ⟨t, hbefore, hafter⟩ := renotifyOnce_page faults hplan
  obtain ⟨i', hi', hsame⟩ := hbefore.kept hi
  have hids : (t.instances.map (·.id)).Nodup := by
    rw [hbefore.ids]
    exact hkeyed.ids
  rw [← hbefore.world] at hins
  obtain ⟨j, hj, hjid, hjstate⟩ := exists_appendedJob t.world.deliveryWindow hi' hids hins
  rw [hsame.id] at hjid
  rw [hsame.state] at hjstate
  refine ⟨j, ?_, hjid, hjstate⟩
  obtain ⟨more, hmore⟩ := hafter.jobs
  obtain ⟨new, hnew⟩ := hbefore.jobs
  rw [← hmore, page_jobs, ← hnew, List.append_assoc, List.append_assoc, List.drop_left]
  rw [hsame.id, hid] at hj
  exact List.mem_append_right _ (List.mem_append_left _ hj)

theorem State.notified_renotifyOnce (hkeyed : s.Keyed) (hplan : .renotify it ∈ s.renotifyPlan insts)
    (hi : i ∈ s.instances) (hid : i.id = it.inst.instanceID)
    (hins : insertedChannels (faults it.inst.instanceID)
      (s.world.channelsFor it.inst.environment it.rule) ≠ []) :
    (s.renotifyOnce faults insts).Notified i.id i.state := by
  obtain ⟨j, hj, hjob⟩ := appended_renotifyOnce hkeyed hplan hi hid hins
  exact ⟨j, List.mem_of_mem_drop hj, hjob⟩

theorem representative_le (rep : RenotifyItem) (its : List RenotifyItem) :
    ∀ it ∈ rep :: its, (representative rep its).inst.startedAt ≤ it.inst.startedAt := by
  induction its generalizing rep with
  | nil => simp [representative]
  | cons it its ih =>
    intro it' hit'
    unfold representative
    split
    · next hlt =>
      have hrep := ih it it List.mem_cons_self
      rcases List.mem_cons.1 hit' with rfl | hmem
      · exact Nat.le_trans hrep (Nat.le_of_lt hlt)
      · exact ih it it' hmem
    · next hle =>
      have hrep := ih rep rep List.mem_cons_self
      rcases List.mem_cons.1 hit' with rfl | hmem
      · exact hrep
      · rcases List.mem_cons.1 hmem with rfl | hmem
        · exact Nat.le_trans hrep (Nat.le_of_not_lt hle)
        · exact ih rep it' (List.mem_cons_of_mem _ hmem)

variable {covering : AlertRule → Option UUID} {now : Time} {items : List RenotifyItem}

theorem streamOps_of_uncovered {its : List RenotifyItem}
    (h : covering (representative it its).rule = none) :
    streamOps covering now (it :: its) =
      if due now (representative it its).inst.lastNotifiedAt
          (representative it its).renotify then [.renotify (representative it its)]
      else [] := by
  unfold streamOps
  dsimp only
  rw [h]

/-- Every coalesced item is in a stream whose representative started first, and the
stream's decisions are part of the plan. -/
theorem exists_stream (covering : AlertRule → Option UUID) (now : Time) (hit : it ∈ items)
    (hc : it.coalesced) :
    ∃ it₀ its, (∀ it', it' ∈ it₀ :: its ↔
        it' ∈ items ∧ it'.coalesced ∧ it'.stream = it.stream) ∧
      ∀ op ∈ streamOps covering now (it₀ :: its), op ∈ renotifyOps covering now items := by
  have hmem : it ∈ (items.filter RenotifyItem.coalesced).filter
      fun it' => it'.stream = it.stream := by
    simp [hit, hc]
  obtain ⟨it₀, its, hlist⟩ := List.exists_cons_of_ne_nil (List.ne_nil_of_mem hmem)
  refine ⟨it₀, its, fun it' => ?_, fun op hop => ?_⟩
  · rw [← hlist]
    simp only [List.mem_filter, decide_eq_true_eq, and_assoc]
  · refine List.mem_append_right _ (List.mem_flatMap.2 ⟨it₀ :: its, ?_, hop⟩)
    rw [← hlist]
    refine List.mem_map.2 ⟨it.stream, List.mem_dedup.2 (List.mem_map_of_mem ?_), rfl⟩
    exact List.mem_filter.2 ⟨hit, hc⟩

theorem representative_of_mem
    (h : .renotify it ∈ (streams (items.filter RenotifyItem.coalesced)).flatMap
      (streamOps covering now)) :
    ∃ it₀ its, (items.filter RenotifyItem.coalesced).filter
        (fun it' => it'.stream = it.stream) = it₀ :: its ∧
      it = representative it₀ its ∧ covering it.rule = none ∧
      due now it.inst.lastNotifiedAt it.renotify := by
  obtain ⟨stream, hstream, hop⟩ := List.mem_flatMap.1 h
  obtain ⟨it₁, _, rfl⟩ := mem_streams hstream
  cases hlist : (items.filter RenotifyItem.coalesced).filter fun it' => it'.stream = it₁.stream with
  | nil =>
    rw [hlist] at hop
    cases hop
  | cons it₀ its =>
    rw [hlist] at hop
    cases hcover : covering (representative it₀ its).rule with
    | some w =>
      simp only [streamOps, hcover] at hop
      obtain ⟨it', _, hstamp⟩ := List.mem_flatMap.1 hop
      exact nomatch (mem_stamp hstamp).1
    | none =>
      rw [streamOps_of_uncovered hcover] at hop
      split at hop
      · next hdue =>
        obtain rfl : it = representative it₀ its :=
          RenotifyOp.renotify.inj (List.mem_singleton.1 hop)
        have hmem := representative_mem it₀ its
        rw [← hlist] at hmem
        have hkey : (representative it₀ its).stream = it₁.stream := by
          simpa using (List.mem_filter.1 hmem).2
        rw [hkey]
        exact ⟨it₀, its, hlist, rfl, hcover, hdue⟩
      · cases hop

theorem mem_perCheck_of_not_coalesced
    (h : .renotify it ∈ (items.filter fun it => !it.coalesced).flatMap (perCheckOps covering now)) :
    it ∈ items ∧ it.coalesced = false ∧ covering it.rule = none := by
  obtain ⟨it', hit', hop⟩ := List.mem_flatMap.1 h
  rcases mem_perCheckOps hop with ⟨w, hstamp⟩ | heq
  · exact nomatch (mem_stamp hstamp).1
  obtain rfl : it = it' := RenotifyOp.renotify.inj heq
  obtain ⟨hmem, hc⟩ := List.mem_filter.1 hit'
  refine ⟨hmem, by simpa using hc, ?_⟩
  unfold perCheckOps at hop
  split at hop
  · exact nomatch (mem_stamp hop).1
  · next hcover => exact hcover

/-- **What a tick pages.**  The item of a page is uncovered; if it is folded it started
first in its stream and its stream is due. -/
theorem paged_of_mem_renotifyOps (h : .renotify it ∈ renotifyOps covering now items) :
    it ∈ items ∧ covering it.rule = none ∧
      (it.coalesced →
        due now it.inst.lastNotifiedAt it.renotify ∧
        ∀ it' ∈ items, it'.coalesced → it'.stream = it.stream →
          it.inst.startedAt ≤ it'.inst.startedAt) := by
  rcases List.mem_append.1 h with h | h
  · obtain ⟨hit, hc, hcover⟩ := mem_perCheck_of_not_coalesced h
    refine ⟨hit, hcover, fun hc' => ?_⟩
    rw [hc] at hc'
    cases hc'
  · obtain ⟨it₀, its, hlist, hrep, hcover, hdue⟩ := representative_of_mem h
    have hmem : ∀ it', it' ∈ it₀ :: its ↔
        it' ∈ items ∧ it'.coalesced ∧ it'.stream = it.stream := by
      intro it'
      rw [← hlist]
      simp only [List.mem_filter, decide_eq_true_eq, and_assoc]
    have hit : it ∈ it₀ :: its := by
      rw [hrep]
      exact representative_mem it₀ its
    refine ⟨((hmem it).1 hit).1, hcover, fun _ => ⟨hdue, fun it' hit' hc' hkey => ?_⟩⟩
    rw [hrep]
    exact representative_le it₀ its it' ((hmem it').2 ⟨hit', hc', hkey⟩)

theorem eq_of_same_stream {it' : RenotifyItem} (h : .renotify it ∈ renotifyOps covering now items)
    (h' : .renotify it' ∈ renotifyOps covering now items) (hc : it.coalesced) (hc' : it'.coalesced)
    (hkey : it.stream = it'.stream) : it = it' := by
  have hfolded : ∀ {it : RenotifyItem}, it.coalesced →
      .renotify it ∈ renotifyOps covering now items →
      .renotify it ∈ (streams (items.filter RenotifyItem.coalesced)).flatMap
        (streamOps covering now) := by
    intro it hc h
    rcases List.mem_append.1 h with h | h
    · have hc' := (mem_perCheck_of_not_coalesced h).2.1
      rw [hc] at hc'
      cases hc'
    · exact h
  obtain ⟨it₀, its, hlist, hrep, _⟩ := representative_of_mem (hfolded hc h)
  obtain ⟨it₀', its', hlist', hrep', _⟩ := representative_of_mem (hfolded hc' h')
  rw [hkey, hlist'] at hlist
  obtain ⟨rfl, rfl⟩ := List.cons.inj hlist
  exact hrep.trans hrep'.symm

/-! ## What a tick leaves behind -/

/-- The enqueue call inserts a job for every channel. -/
def InsertsAll (fault : Fault) (channelIDs : List UUID) : Prop :=
  (insertedChannels fault channelIDs).length = channelIDs.eraseDups.length

section Traces

variable {s : State} {faults : UUID → Fault} {insts : List FiringUnackedInstance}
  {env : Option String} {instanceID : UUID} {rule : AlertRule} {fault : Fault}

theorem State.page_of_insertsAll (h : InsertsAll fault (s.world.channelsFor env rule)) :
    s.page fault env instanceID rule =
      (s.enqueueJobs fault instanceID (s.world.channelsFor env rule)
        s.world.deliveryWindow).2.markInstanceNotified instanceID := by
  unfold State.page
  dsimp only
  rw [if_pos]
  simpa [enqueueJobs, InsertsAll] using h

theorem State.page_of_not_insertsAll (h : ¬ InsertsAll fault (s.world.channelsFor env rule)) :
    s.page fault env instanceID rule =
      (s.enqueueJobs fault instanceID (s.world.channelsFor env rule) s.world.deliveryWindow).2 := by
  unfold State.page
  dsimp only
  rw [if_neg]
  simpa [enqueueJobs, InsertsAll] using h

/-- A page of the plan inserts a job for the instance. -/
def State.Sends (s : State) (faults : UUID → Fault) (insts : List FiringUnackedInstance)
    (instanceID : UUID) : Prop :=
  ∃ it, .renotify it ∈ s.renotifyPlan insts ∧ it.inst.instanceID = instanceID ∧
    insertedChannels (faults instanceID) (s.world.channelsFor it.inst.environment it.rule) ≠ []

/-- A page of the plan sets the instance's watermark. -/
def State.Marks (s : State) (faults : UUID → Fault) (insts : List FiringUnackedInstance)
    (instanceID : UUID) : Prop :=
  ∃ it, .renotify it ∈ s.renotifyPlan insts ∧ it.inst.instanceID = instanceID ∧
    InsertsAll (faults instanceID) (s.world.channelsFor it.inst.environment it.rule)

theorem State.sends_of_appended {j : NotificationJob}
    (h : j ∈ (s.renotifyOnce faults insts).jobs.drop s.jobs.length) :
    s.Sends faults insts j.alertInstanceID := by
  have hall : TickFrame s (s.renotifyOnce faults insts) ∧
      ∀ j ∈ (s.renotifyOnce faults insts).jobs.drop s.jobs.length,
        s.Sends faults insts j.alertInstanceID := by
    refine renotifyOnce_invariant
      (P := fun t => TickFrame s t ∧ ∀ j ∈ t.jobs.drop s.jobs.length,
        s.Sends faults insts j.alertInstanceID)
      ⟨TickFrame.refl s, by simp⟩ ⟨tickFrame_refreshWindows s, by simp⟩
      fun t op hop ⟨hframe, hjobs⟩ => ⟨hframe.trans (tickFrame_applyRenotify t faults op), ?_⟩
    cases op with
    | suppress instanceID windowID => exact hjobs
    | renotify it =>
      intro j hj
      obtain ⟨new, hnew⟩ := hframe.jobs
      unfold applyRenotify renotifyInstance at hj
      dsimp only at hj
      rw [page_jobs, ← hnew, List.append_assoc, List.drop_left] at hj
      rcases List.mem_append.1 hj with hold | happended
      · exact hjobs j (by rwa [← hnew, List.drop_left])
      · obtain ⟨hins, _, _, _, hid, _⟩ := mem_appendedJobs happended
        rw [hframe.world] at hins
        rw [hid]
        exact ⟨it, hop, rfl, hins⟩
  exact hall.2 j h

theorem State.marks_of_marked {i' : AlertInstance}
    (hi' : i' ∈ (s.renotifyOnce faults insts).instances) (hmark : i'.lastNotifiedAt ≠ none) :
    ∃ i ∈ s.instances, SameRow i i' ∧ (i.lastNotifiedAt ≠ none ∨ s.Marks faults insts i.id) := by
  have hall : TickFrame s (s.renotifyOnce faults insts) ∧
      ∀ i' ∈ (s.renotifyOnce faults insts).instances, i'.lastNotifiedAt ≠ none →
        ∃ i ∈ s.instances, SameRow i i' ∧
          (i.lastNotifiedAt ≠ none ∨ s.Marks faults insts i.id) := by
    refine renotifyOnce_invariant
      (P := fun t => TickFrame s t ∧ ∀ i' ∈ t.instances, i'.lastNotifiedAt ≠ none →
        ∃ i ∈ s.instances, SameRow i i' ∧ (i.lastNotifiedAt ≠ none ∨ s.Marks faults insts i.id))
      ⟨TickFrame.refl s, fun i hi hm => ⟨i, hi, SameRow.refl i, .inl hm⟩⟩
      ⟨tickFrame_refreshWindows s, fun i hi hm => ⟨i, by simpa using hi, SameRow.refl i, .inl hm⟩⟩
      fun t op hop ⟨hframe, hmarks⟩ => ⟨hframe.trans (tickFrame_applyRenotify t faults op), ?_⟩
    intro i' hi' hm
    cases op with
    | suppress instanceID windowID =>
      obtain ⟨i₀, hi₀, ⟨_, rfl⟩ | ⟨_, rfl⟩⟩ := mem_updateWhere.1 hi'
      · obtain ⟨i, hi, hsame, hcase⟩ := hmarks i₀ hi₀ hm
        exact ⟨i, hi, hsame.trans (sameRow_of_unmarked rfl), hcase⟩
      · exact hmarks i' hi₀ hm
    | renotify it =>
      unfold applyRenotify renotifyInstance at hi'
      dsimp only at hi'
      by_cases hwhole : InsertsAll (faults it.inst.instanceID)
          (t.world.channelsFor it.inst.environment it.rule)
      · rw [page_of_insertsAll hwhole] at hi'
        obtain ⟨i₀, hi₀, ⟨hp, rfl⟩ | ⟨_, rfl⟩⟩ := mem_updateWhere.1 hi'
        · have hid : i₀.id = it.inst.instanceID := by simpa using hp
          rw [enqueueJobs_instances] at hi₀
          obtain ⟨i, hi, hsame⟩ := hframe.old hi₀
          have hid' : it.inst.instanceID = i.id := hid.symm.trans hsame.id
          rw [hid', hframe.world] at hwhole
          exact ⟨i, hi, hsame.trans (sameRow_of_unmarked rfl), .inr ⟨it, hop, hid', hwhole⟩⟩
        · rw [enqueueJobs_instances] at hi₀
          exact hmarks i' hi₀ hm
      · rw [page_of_not_insertsAll hwhole, enqueueJobs_instances] at hi'
        exact hmarks i' hi' hm
  exact hall.2 i' hi' hmark

theorem State.watermark_renotifyOnce {it : RenotifyItem}
    (hplan : .renotify it ∈ s.renotifyPlan insts) {i : AlertInstance} (hi : i ∈ s.instances)
    (hid : i.id = it.inst.instanceID) (hwhole : InsertsAll (faults it.inst.instanceID)
      (s.world.channelsFor it.inst.environment it.rule)) :
    ∃ i' ∈ (s.renotifyOnce faults insts).instances,
      SameRow i i' ∧ i'.lastNotifiedAt = some s.world.now := by
  obtain ⟨t, hbefore, hafter⟩ := renotifyOnce_page faults hplan
  obtain ⟨i₀, hi₀, hsame₀⟩ := hbefore.kept hi
  rw [← hbefore.world] at hwhole
  have hp : (i₀.id = it.inst.instanceID && true) := by simp [hsame₀.id, hid]
  have hrow : { i₀ with lastNotifiedAt := some s.world.now } ∈
      (t.page (faults it.inst.instanceID) it.inst.environment it.inst.instanceID
        it.rule).instances := by
    rw [page_of_insertsAll hwhole]
    unfold markInstanceNotified updateInstance
    rw [enqueueJobs_instances, enqueueJobs_world, hbefore.world]
    exact mem_updateWhere_of (p := fun i => i.id = it.inst.instanceID && true)
      (f := fun i => { i with lastNotifiedAt := some s.world.now }) hi₀ hp
  obtain ⟨i', hi', hsame, hmark⟩ := hafter.marks _ hrow
  have hnoted : SameRow i₀ { i₀ with lastNotifiedAt := some s.world.now } :=
    sameRow_of_unmarked rfl
  refine ⟨i', hi', (hsame₀.trans hnoted).trans hsame, ?_⟩
  rcases hmark with heq | heq
  · exact heq
  · rw [heq, (tickFrame_page t _ _ _ _).world, hbefore.world]

end Traces

end Sluicio.Alerting
