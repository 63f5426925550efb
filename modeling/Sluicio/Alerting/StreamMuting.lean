import Sluicio.Alerting.Streams

/-!
# Which window mutes an instance

A tick asks the windows about the rule of an instance, or, when the instance is folded into
a per-integration stream, about the rule of the instance that stands for the stream.  Which one
that is among those that started first, and which of several windows it is that mutes, is left
to the order of two queries that ask for none.
-/

namespace Sluicio.Alerting

open Lib State FiringUnackedInstance

/-- The item that stands for a stream. -/
def representative? : List RenotifyItem → Option RenotifyItem
  | [] => none
  | it :: its => some (representative it its)

def foldedInto (items : List RenotifyItem) (stream : Option UUID × String) : List RenotifyItem :=
  (items.filter RenotifyItem.coalesced).filter fun it => it.stream = stream

/-- The item whose rule the tick asks the windows about to decide on the item. -/
def askedFor (items : List RenotifyItem) (it : RenotifyItem) : RenotifyItem :=
  if it.coalesced then (representative? (foldedInto items it.stream)).getD it else it

/-- The window because of which a tick withholds the item's page. -/
def withheldBy (wins : List MaintenanceWindow) (items : List RenotifyItem) (it : RenotifyItem) :
    Option MaintenanceWindow :=
  wins.find? fun w => w.covers (askedFor items it).rule

variable {first it : RenotifyItem} {its items : List RenotifyItem} {op : RenotifyOp} {w : UUID}
  {s : State} {rule : AlertRule}

theorem askedFor_of_not_coalesced (h : it.coalesced = false) : askedFor items it = it := by
  rw [askedFor, h]
  rfl

theorem askedFor_of_mem (hstream : first :: its ∈ streams (items.filter RenotifyItem.coalesced))
    (hit : it ∈ first :: its) : askedFor items it = representative first its := by
  obtain ⟨key, _, hfolded⟩ := mem_streams hstream
  rw [hfolded] at hit
  obtain ⟨hmem, hkey⟩ := List.mem_filter.1 hit
  have hcoalesced := (List.mem_filter.1 hmem).2
  have hsame : foldedInto items it.stream = first :: its := by
    rw [hfolded, of_decide_eq_true hkey]
    rfl
  rw [askedFor, if_pos hcoalesced, hsame]
  rfl

/-! ## What the decisions of a tick rest on -/

theorem coveringWindow_eq_some {wins : List MaintenanceWindow}
    (h : coveringWindow wins rule = some w) :
    ∃ win, wins.find? (fun win => win.covers rule) = some win ∧ win.id = w :=
  Option.map_eq_some_iff.1 h

theorem mem_of_mem_streams {stream : List RenotifyItem}
    (hstream : stream ∈ streams (items.filter RenotifyItem.coalesced)) (hit : it ∈ stream) :
    it ∈ items := by
  obtain ⟨_, _, hfolded⟩ := mem_streams hstream
  rw [hfolded] at hit
  exact (List.mem_filter.1 (List.mem_filter.1 hit).1).1

variable {covering : AlertRule → Option UUID} {now : Time} {items : List RenotifyItem}

theorem perCheckOps_eq_stamp (h : covering it.rule = some w) :
    perCheckOps covering now it = it.stamp w := by
  unfold perCheckOps
  rw [h]

theorem eq_renotify_of_perCheckOps (h : covering it.rule = none)
    (hop : op ∈ perCheckOps covering now it) : op = .renotify it := by
  unfold perCheckOps at hop
  rw [h] at hop
  dsimp only at hop
  split_ifs at hop
  · exact List.mem_singleton.1 hop
  · cases hop
  · cases hop
  · exact List.mem_singleton.1 hop
  · cases hop

theorem streamOps_eq_stamps (h : covering (representative first its).rule = some w) :
    streamOps covering now (first :: its) = (first :: its).flatMap fun it => it.stamp w := by
  simp only [streamOps]
  rw [h]

theorem eq_renotify_of_streamOps (h : covering (representative first its).rule = none)
    (hop : op ∈ streamOps covering now (first :: its)) :
    op = .renotify (representative first its) := by
  simp only [streamOps] at hop
  rw [h] at hop
  dsimp only at hop
  split_ifs at hop
  · exact List.mem_singleton.1 hop
  · cases hop

theorem stream_of_streamOps
    (h : op ∈ (streams (items.filter RenotifyItem.coalesced)).flatMap (streamOps covering now)) :
    ∃ first its, first :: its ∈ streams (items.filter RenotifyItem.coalesced) ∧
      op ∈ streamOps covering now (first :: its) := by
  obtain ⟨stream, hstream, hop⟩ := List.mem_flatMap.1 h
  cases stream with
  | nil => cases hop
  | cons first its => exact ⟨first, its, hstream, hop⟩

theorem asked_of_suppress {instanceID windowID : UUID}
    (h : .suppress instanceID windowID ∈ renotifyOps covering now items) :
    ∃ it ∈ items, it.inst.instanceID = instanceID ∧
      covering (askedFor items it).rule = some windowID := by
  rcases List.mem_append.1 h with hcheck | hfolded
  · obtain ⟨it, hit, hop⟩ := List.mem_flatMap.1 hcheck
    obtain ⟨hmem, hcoalesced⟩ := List.mem_filter.1 hit
    have halone : askedFor items it = it :=
      askedFor_of_not_coalesced (by simpa using hcoalesced)
    cases hw : covering it.rule with
    | none => cases eq_renotify_of_perCheckOps hw hop
    | some w =>
      rw [perCheckOps_eq_stamp hw] at hop
      injection (mem_stamp hop).1 with hid hwindow
      refine ⟨it, hmem, hid.symm, ?_⟩
      rw [halone, hw, hwindow]
  · obtain ⟨first, its, hstream, hop⟩ := stream_of_streamOps hfolded
    cases hw : covering (representative first its).rule with
    | none => cases eq_renotify_of_streamOps hw hop
    | some w =>
      rw [streamOps_eq_stamps hw] at hop
      obtain ⟨it, hit, hstamped⟩ := List.mem_flatMap.1 hop
      injection (mem_stamp hstamped).1 with hid hwindow
      refine ⟨it, mem_of_mem_streams hstream hit, hid.symm, ?_⟩
      rw [askedFor_of_mem hstream hit, hw, hwindow]

theorem uncovered_of_renotify (h : .renotify it ∈ renotifyOps covering now items) :
    covering it.rule = none := by
  rcases List.mem_append.1 h with hcheck | hfolded
  · obtain ⟨it', _, hop⟩ := List.mem_flatMap.1 hcheck
    cases hw : covering it'.rule with
    | none =>
      injection eq_renotify_of_perCheckOps hw hop with hself
      rw [hself, hw]
    | some w =>
      rw [perCheckOps_eq_stamp hw] at hop
      cases (mem_stamp hop).1
  · obtain ⟨first, its, _, hop⟩ := stream_of_streamOps hfolded
    cases hw : covering (representative first its).rule with
    | none =>
      injection eq_renotify_of_streamOps hw hop with hself
      rw [hself, hw]
    | some w =>
      rw [streamOps_eq_stamps hw] at hop
      obtain ⟨it', _, hstamped⟩ := List.mem_flatMap.1 hop
      cases (mem_stamp hstamped).1

/-! ## Suppression soundness -/

/-- A tick stamps an instance with a window, and withholds its page because of one, only if
the window covers the instance's own rule, and pages no instance whose rule a window
covers.  The windows are the active ones as the tick has loaded them. -/
structure State.SuppressionSound (s : State) (insts : List FiringUnackedInstance) : Prop where
  stamps : ∀ it ∈ s.world.renotifyItems insts, ∀ w,
    .suppress it.inst.instanceID w ∈ s.renotifyPlan insts →
      ∃ win ∈ s.refreshWindows.mwCache, win.id = w ∧ win.covers it.rule
  withheld : ∀ it ∈ s.world.renotifyItems insts,
    ∀ win ∈ withheldBy s.refreshWindows.mwCache (s.world.renotifyItems insts) it, win.covers it.rule
  sent : ∀ it, .renotify it ∈ s.renotifyPlan insts →
    ∀ win ∈ s.refreshWindows.mwCache, win.covers it.rule = false

/-- These are the active windows, and have just been loaded. -/
def State.withWindows (s : State) (wins : List MaintenanceWindow) : State :=
  { s with mwCache := wins, mwFetched := some s.world.now }

/-- A tick is sound in whatever order its queries list the windows and the instances. -/
def State.SoundInAnyOrder (s : State) : Prop :=
  ∀ wins insts, wins.Perm s.refreshWindows.mwCache → insts.Perm s.firingUnackedInstances →
    (s.withWindows wins).SuppressionSound insts

/-- The rules of two instances in a stream, the one of an instance that started first, and so may
be asked about for the other. -/
def State.Folds (s : State) (k : Option UUID × String) (first rule : AlertRule) : Prop :=
  ∃ rep ∈ s.instances, s.Represents rep k ∧ s.world.rule? rep.alertRuleID = some first ∧
    ∃ i ∈ s.instances, s.streamOf i = some k ∧ s.world.rule? i.alertRuleID = some rule

/-- What the windows ask of the rules in one stream.  Where one is of the team of the first rule,
the others are of that team; where one does not list the integration but names the service of
the first rule, it names the services of the others. -/
def State.StreamsAlike (s : State) : Prop :=
  ∀ k first rule, s.Folds k first rule → ∀ w ∈ s.refreshWindows.mwCache,
    (w.scopeKind = .group → w.groupID ≠ none → w.groupID = first.groupID →
      rule.groupID = first.groupID) ∧
    (w.scopeKind = .entities → (∀ id, k.1 = some id → id ∉ w.integrationIDs) →
      first.serviceName ≠ "" → first.serviceName ∈ w.serviceNames →
      rule.serviceName ≠ "" ∧ rule.serviceName ∈ w.serviceNames)

/-- The mixes of rules that no window can part. -/
def State.StreamsUniform (s : State) : Prop :=
  ∀ k first rule, s.Folds k first rule →
    (first.groupID ≠ none → rule.groupID = first.groupID) ∧
    (first.serviceName ≠ "" → rule.serviceName = first.serviceName)

variable {k : Option UUID × String} {insts : List FiringUnackedInstance} {i : AlertInstance}

theorem World.renotifyItem_unique {w : World} (hkey : (insts.map instanceID).Nodup)
    {it' : RenotifyItem} (hit : it ∈ w.renotifyItems insts) (hit' : it' ∈ w.renotifyItems insts)
    (hid : it.inst.instanceID = it'.inst.instanceID) : it = it' := by
  obtain ⟨fi, hfi, hitem⟩ := List.mem_filterMap.1 hit
  obtain ⟨fi', hfi', hitem'⟩ := List.mem_filterMap.1 hit'
  obtain ⟨rule, hrule, rfl⟩ := Option.map_eq_some_iff.1 hitem
  obtain ⟨rule', hrule', rfl⟩ := Option.map_eq_some_iff.1 hitem'
  have hsame : fi = fi' := List.inj_on_of_nodup_map hkey hfi hfi' hid
  subst hsame
  rw [hrule] at hrule'
  obtain rfl := Option.some.inj hrule'
  rfl

/-- Everything else follows from the pages of streams: what is withheld alone is withheld by its
own rule, and a stamp names the window that withholds. -/
theorem State.suppressionSound_of_withheld (hkey : (insts.map instanceID).Nodup)
    (h : ∀ it ∈ s.world.renotifyItems insts, it.coalesced →
      ∀ win ∈ withheldBy s.refreshWindows.mwCache (s.world.renotifyItems insts) it,
        win.covers it.rule) : s.SuppressionSound insts := by
  have hwithheld : ∀ it ∈ s.world.renotifyItems insts,
      ∀ win ∈ withheldBy s.refreshWindows.mwCache (s.world.renotifyItems insts) it,
        win.covers it.rule := by
    intro it hit win hwin
    cases hcoalesced : it.coalesced with
    | false =>
      have hfound := List.find?_some hwin
      rw [askedFor_of_not_coalesced hcoalesced] at hfound
      exact hfound
    | true => exact h it hit hcoalesced win hwin
  constructor
  · intro it hit w hop
    obtain ⟨it', hit', hid, hw⟩ := asked_of_suppress hop
    obtain rfl := World.renotifyItem_unique hkey hit' hit hid
    obtain ⟨win, hwin, rfl⟩ := coveringWindow_eq_some hw
    exact ⟨win, List.mem_of_find?_eq_some hwin, rfl, hwithheld it' hit' win hwin⟩
  · exact hwithheld
  · intro it hop win hwin
    have hnone := Option.map_eq_none_iff.1 (uncovered_of_renotify hop)
    exact Bool.not_eq_true _ ▸ List.find?_eq_none.1 hnone win hwin

theorem State.mwCache_withWindows (s : State) (wins : List MaintenanceWindow) :
    (s.withWindows wins).refreshWindows.mwCache = wins := by
  simp [refreshWindows, withWindows, mwCacheTTL, second]

theorem representative_of_le {rep : RenotifyItem}
    (h : ∀ it ∈ its, rep.inst.startedAt ≤ it.inst.startedAt) : representative rep its = rep := by
  induction its with
  | nil => rfl
  | cons it its ih =>
    obtain ⟨hit, hits⟩ := List.forall_mem_cons.1 h
    rw [representative, if_neg (Nat.not_lt.2 hit), ih hits]

section Streams

variable {s : State} {insts : List FiringUnackedInstance} {k : Option UUID × String}

theorem State.mem_foldedInto (hinsts : insts.Perm s.firingUnackedInstances) {it : RenotifyItem} :
    it ∈ foldedInto (s.world.renotifyItems insts) k ↔
      ∃ i ∈ s.instances, s.streamOf i = some k ∧ ∃ rule,
        s.world.rule? i.alertRuleID = some rule ∧
        it = s.world.renotifyItem i.toFiringUnacked rule := by
  rw [← mem_stream_iff hinsts]
  simp only [foldedInto, List.mem_filter, decide_eq_true_eq, and_assoc]

/-- The rule that is asked about for a stream is that of an instance which represents it. -/
theorem State.asked_represents (hinsts : insts.Perm s.firingUnackedInstances) {it : RenotifyItem}
    (hit : it ∈ s.world.renotifyItems insts) (hcoalesced : it.coalesced) :
    ∃ rep ∈ s.instances, s.Represents rep it.stream ∧
      s.world.rule? rep.alertRuleID = some (askedFor (s.world.renotifyItems insts) it).rule := by
  have hmem : it ∈ foldedInto (s.world.renotifyItems insts) it.stream := by
    simp [foldedInto, hit, hcoalesced]
  obtain ⟨first, its, hlist⟩ := List.exists_cons_of_ne_nil (List.ne_nil_of_mem hmem)
  have hasked : askedFor (s.world.renotifyItems insts) it = representative first its := by
    rw [askedFor, if_pos hcoalesced, hlist]
    rfl
  have hrep : representative first its ∈ foldedInto (s.world.renotifyItems insts) it.stream :=
    hlist ▸ representative_mem first its
  obtain ⟨rep, hrepmem, hstream, rule, hrule, heq⟩ := (mem_foldedInto hinsts).1 hrep
  refine ⟨rep, hrepmem, ⟨hstream, fun j hj hjk => ?_⟩, ?_⟩
  · obtain ⟨-, ruleJ, hruleJ, -⟩ := streamOf_eq_some.1 hjk
    have hjmem := (mem_foldedInto hinsts).2 ⟨j, hj, hjk, ruleJ, hruleJ, rfl⟩
    rw [hlist] at hjmem
    have hle := representative_le first its _ hjmem
    rwa [heq] at hle
  · rw [hasked, heq]
    exact hrule

/-- The tick asks about an instance that represents a stream when the query lists it first. -/
theorem State.askedFor_of_listed_first {rep i : AlertInstance} (hrep : rep ∈ s.instances)
    (hrepresents : s.Represents rep k) (hi : i ∈ s.instances) (hk : s.streamOf i = some k)
    {first rule : AlertRule} (hfirst : s.world.rule? rep.alertRuleID = some first)
    (hrule : s.world.rule? i.alertRuleID = some rule) :
    ∃ insts, insts.Perm s.firingUnackedInstances ∧
      s.world.renotifyItem i.toFiringUnacked rule ∈ s.world.renotifyItems insts ∧
      (askedFor (s.world.renotifyItems insts)
        (s.world.renotifyItem i.toFiringUnacked rule)).rule = first := by
  have hlisted : rep.toFiringUnacked ∈ s.firingUnackedInstances := by
    have hfiring := (streamOf_eq_some.1 hrepresents.1).1
    refine List.mem_map_of_mem (List.mem_filter.2 ⟨hrep, ?_⟩)
    simp [hfiring, hfirst]
  let insts := rep.toFiringUnacked :: s.firingUnackedInstances.erase rep.toFiringUnacked
  have hinsts : insts.Perm s.firingUnackedInstances := (List.perm_cons_erase hlisted).symm
  obtain ⟨hitem, hcoalesced, hstream⟩ :=
    (mem_stream_iff hinsts).2 ⟨i, hi, hk, rule, hrule, rfl⟩
  obtain ⟨-, hrepc, hrepk⟩ :=
    (mem_stream_iff hinsts).2 ⟨rep, hrep, hrepresents.1, first, hfirst, rfl⟩
  have hitems : s.world.renotifyItems insts =
      s.world.renotifyItem rep.toFiringUnacked first ::
        s.world.renotifyItems (s.firingUnackedInstances.erase rep.toFiringUnacked) := by
    have hrule' : s.world.rule? rep.toFiringUnacked.ruleID = some first := hfirst
    simp [insts, World.renotifyItems, hrule']
  have hfolded : ∃ its, foldedInto (s.world.renotifyItems insts) k =
      s.world.renotifyItem rep.toFiringUnacked first :: its := by
    rw [hitems, foldedInto, List.filter_cons_of_pos hrepc, List.filter_cons, hrepk]
    exact ⟨_, if_pos (decide_eq_true rfl)⟩
  obtain ⟨its, hits⟩ := hfolded
  have hleast : ∀ it ∈ its, rep.toFiringUnacked.startedAt ≤ it.inst.startedAt := by
    intro it hit
    obtain ⟨j, hj, hjk, ruleJ, -, rfl⟩ :=
      (mem_foldedInto hinsts).1 (hits ▸ List.mem_cons_of_mem _ hit)
    exact hrepresents.2 j hj hjk
  refine ⟨insts, hinsts, hitem, ?_⟩
  rw [askedFor, if_pos hcoalesced, hstream, hits, representative?, representative_of_le hleast]
  rfl

end Streams

theorem State.integration_of_stream (hk : s.streamOf i = some k)
    (hrule : s.world.rule? i.alertRuleID = some rule) :
    ∃ id, k.1 = some id ∧ rule.integrationID = some id := by
  obtain ⟨-, rule', hrule', hc, rfl⟩ := streamOf_eq_some.1 hk
  obtain rfl : rule = rule' := Option.some.inj (hrule.symm.trans hrule')
  obtain ⟨id, hid⟩ := Option.isSome_iff_exists.1 (Bool.and_eq_true_iff.1 hc).2
  exact ⟨id, hid, hid⟩

theorem State.covers_of_stream (hk : s.streamOf i = some k)
    (hrule : s.world.rule? i.alertRuleID = some rule) (w : MaintenanceWindow) :
    w.covers rule ↔
      (w.scopeKind = .allOrg ∨
        (w.scopeKind = .entities ∧ ∃ id, k.1 = some id ∧ id ∈ w.integrationIDs)) ∨
      w.CoversByTeamOrService rule := by
  obtain ⟨id, hid, hrid⟩ := integration_of_stream hk hrule
  rw [w.covers_iff_of_integration hrid, hid]
  simp [MaintenanceWindow.CoversIntegration]

theorem State.SoundInAnyOrder.streamsAlike (h : s.SoundInAnyOrder) : s.StreamsAlike := by
  rintro k first rule ⟨rep, hrep, hrepresents, hfirst, i, hi, hk, hrule⟩ w hw
  obtain ⟨insts, hinsts, hitem, hasked⟩ :=
    askedFor_of_listed_first hrep hrepresents hi hk hfirst hrule
  have hsound := h (w :: s.refreshWindows.mwCache.erase w) insts
    (List.perm_cons_erase hw).symm hinsts
  have hreached (hfirstcovers : w.covers first) : w.covers rule := by
    refine hsound.withheld (s.world.renotifyItem i.toFiringUnacked rule) hitem w ?_
    rw [mwCache_withWindows, withheldBy]
    exact List.find?_cons_of_pos (hasked.symm ▸ hfirstcovers)
  rw [covers_of_stream hrepresents.1 hfirst, covers_of_stream hk hrule] at hreached
  constructor
  · intro hkind hset hteam
    rcases hreached (.inr (.inl ⟨hkind, hset, hteam⟩)) with
      (hall | ⟨hentities, -⟩) | ⟨-, -, hgroup⟩ | ⟨hentities, -⟩
    · cases hkind.symm.trans hall
    · cases hkind.symm.trans hentities
    · exact hgroup.symm.trans hteam
    · cases hkind.symm.trans hentities
  · intro hkind hnot hne hmem
    rcases hreached (.inr (.inr ⟨hkind, hne, hmem⟩)) with
      (hall | ⟨-, id, hid, hlisted⟩) | ⟨hgroup, -⟩ | ⟨-, hservice⟩
    · cases hkind.symm.trans hall
    · exact absurd hlisted (hnot id hid)
    · cases hkind.symm.trans hgroup
    · exact hservice

theorem State.StreamsAlike.soundInAnyOrder (h : s.StreamsAlike)
    (hkey : (s.instances.map (·.id)).Nodup) : s.SoundInAnyOrder := by
  intro wins insts hwins hinsts
  have hids : (insts.map instanceID).Nodup := by
    rw [(hinsts.map _).nodup_iff]
    have hsub : (s.firingUnackedInstances.map instanceID).Sublist
        (s.instances.map (·.id)) := by
      rw [firingUnackedInstances, List.map_map]
      exact List.filter_sublist.map _
    exact hsub.nodup hkey
  refine suppressionSound_of_withheld hids ?_
  rw [mwCache_withWindows]
  intro it hit hcoalesced w hw
  obtain ⟨rep, hrep, hrepresents, hfirst⟩ := asked_represents hinsts hit hcoalesced
  obtain ⟨i, hi, hk, rule, hrule, rfl⟩ := (mem_stream_iff hinsts).1 ⟨hit, hcoalesced, rfl⟩
  have hwin : w ∈ s.refreshWindows.mwCache := hwins.subset (List.mem_of_find?_eq_some hw)
  have halike := h _ _ rule ⟨rep, hrep, hrepresents, hfirst, i, hi, hk, hrule⟩ w hwin
  have hfound := List.find?_some hw
  refine (covers_of_stream hk hrule w).2 ?_
  rcases (covers_of_stream hrepresents.1 hfirst w).1 hfound with
    hstream | ⟨hkind, hset, hteam⟩ | ⟨hkind, hne, hmem⟩
  · exact .inl hstream
  · exact .inr (.inl ⟨hkind, hset, hteam.trans (halike.1 hkind hset hteam).symm⟩)
  · by_cases hlisted : ∃ id, (s.world.renotifyItem i.toFiringUnacked rule).stream.1 = some id ∧
        id ∈ w.integrationIDs
    · exact .inl (.inr ⟨hkind, hlisted⟩)
    · have hnot := fun id hid hin => hlisted ⟨id, hid, hin⟩
      exact .inr (.inr ⟨hkind, halike.2 hkind hnot hne hmem⟩)

/-- **Suppression soundness.**  A tick stamps and withholds only by windows that cover the
instance's own rule, and pages nothing a window covers, in whatever order the windows and the
instances are listed, exactly when no window reaches the first rule of a stream, but not all of
them, through a team or a service; and it does so under every set of windows exactly when the
rules of a stream share the team and the service of the first one. -/
theorem State.soundInAnyOrder_iff (s : State) (hkey : (s.instances.map (·.id)).Nodup) :
    (s.SoundInAnyOrder ↔ s.StreamsAlike) ∧
      ((∀ wins, (s.withWindows wins).SoundInAnyOrder) ↔ s.StreamsUniform) := by
  refine ⟨⟨fun h => h.streamsAlike, fun h => h.soundInAnyOrder hkey⟩, ?_, ?_⟩
  · intro h k first rule hfolds
    have halike (w : MaintenanceWindow) := (h [w]).streamsAlike k first rule hfolds w
      (by rw [mwCache_withWindows]; exact List.mem_singleton_self w)
    constructor
    · exact fun hteam => (halike ⟨0, .group, [], [], first.groupID⟩).1 rfl hteam rfl
    · intro hname
      have hnamed := (halike ⟨0, .entities, [], [first.serviceName], none⟩).2 rfl
        (fun _ _ => List.not_mem_nil) hname List.mem_cons_self
      exact List.mem_singleton.1 hnamed.2
  · intro h wins
    refine State.StreamsAlike.soundInAnyOrder (fun k first rule hfolds w _ => ?_) hkey
    obtain ⟨hteam, hservice⟩ := h k first rule hfolds
    constructor
    · intro _ hset hgroup
      exact hteam (hgroup ▸ hset)
    · intro _ _ hne hmem
      rw [hservice hne]
      exact ⟨hne, hmem⟩

/-! Two checks of integration 7, of two teams, and a window of the first team. -/

private def ordersCheck : AlertRule :=
  { id := 1, integrationID := some 7, groupID := some 5, spec := .metric ⟨.gt, 0, false, ""⟩ }

private def teamsWorld (team : UUID) : World :=
  { now := 1000, rules := [ordersCheck, { ordersCheck with id := 2, groupID := some team }]
    windows := [⟨9, 0, 10000, some { kind := .group, groupID := some 5 }⟩]
    resolver := some {
      resolve := fun _ _ _ _ => some [3]
      resolveBehavior := fun _ _ _ => some (some .perIntegration, 60) }
    environments := none, isProduction := fun _ => false }

private def bothFiring (team : UUID) : State :=
  run State.step { world := teamsWorld team }
    [.evaluate none (.metricOnly 1) 1 none, .advance 500, .evaluate none (.metricOnly 1) 2 none]

theorem soundInAnyOrder_oneTeam : (bothFiring 5).StreamsUniform ∧
    ∀ wins, ((bothFiring 5).withWindows wins).SoundInAnyOrder := by
  have halike : ∀ rule ∈ (bothFiring 5).world.rules,
      rule.groupID = some 5 ∧ rule.serviceName = "" := by decide +kernel
  have huniform : (bothFiring 5).StreamsUniform := by
    rintro _ first rule ⟨_, _, _, hfirst, _, _, _, hrule⟩
    obtain ⟨hteam, hname⟩ := halike rule (World.mem_of_rule? hrule).1
    obtain ⟨hteam', hname'⟩ := halike first (World.mem_of_rule? hfirst).1
    exact ⟨fun _ => hteam.trans hteam'.symm, fun _ => hname.trans hname'.symm⟩
  exact ⟨huniform, ((bothFiring 5).soundInAnyOrder_iff (by decide +kernel)).2.2 huniform⟩

/-- The window of the first check's team mutes the stream, and the tick stamps the second
check's instance with it. -/
theorem stock_muted_by_orders_window :
    RenotifyOp.suppress 1 9 ∈ (bothFiring 6).renotifyPlan (bothFiring 6).firingUnackedInstances ∧
      ¬ (bothFiring 6).SuppressionSound (bothFiring 6).firingUnackedInstances := by
  have hplan : RenotifyOp.suppress 1 9 ∈
      (bothFiring 6).renotifyPlan (bothFiring 6).firingUnackedInstances := by decide +kernel
  have hitem : ∃ it ∈ (bothFiring 6).world.renotifyItems (bothFiring 6).firingUnackedInstances,
      it.inst.instanceID = 1 ∧
        ∀ win ∈ (bothFiring 6).refreshWindows.mwCache, win.covers it.rule = false := by
    decide +kernel
  refine ⟨hplan, ?_⟩
  intro h
  obtain ⟨it, hit, hid, huncovered⟩ := hitem
  obtain ⟨win, hwin, _, hcovers⟩ := h.stamps it hit 9 (by rw [hid]; exact hplan)
  rw [huncovered win hwin] at hcovers
  cases hcovers

end Sluicio.Alerting
