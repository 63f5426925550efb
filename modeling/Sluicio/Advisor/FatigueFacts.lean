import Sluicio.Advisor.Fatigue

/-!
# What the findings of the alerting evaluators say

F2 asks a rule's window whether any instance is open and how long the longest lasted; where the
longest is one that is firing now, the answer is that this one has been firing for so long.  F5
counts the minutes that two rules share, which are the firings in them where the rule with fewer
of them starts firing once a minute at most.
-/

namespace Sluicio.Advisor

open Lib
open Alerting (AlertInstance Duration hour)
open Alerting.Store (Row)

theorem wallpaper_le_wholeSeconds {d : Duration} : wallpaper ≤ wholeSeconds d ↔ wallpaper ≤ d := by
  have hwallpaper : wallpaper = 1209600 * 1000000000 := by decide
  rw [hwallpaper]
  show 1209600 * 1000000000 ≤ Int.tdiv d 1000000000 * 1000000000 ↔ (1209600 * 1000000000 : Int) ≤ d
  rcases Int.le_total 0 d with hd | hd
  · rw [Int.tdiv_eq_ediv_of_nonneg hd]
    omega
  · have hneg : Int.tdiv d 1000000000 ≤ 0 := by
      have hpos : 0 ≤ Int.tdiv (-d) 1000000000 := Int.tdiv_nonneg (by omega) (by decide)
      rw [Int.neg_tdiv] at hpos
      omega
    omega

theorem days_wholeSeconds {d : Int} (hd : 0 ≤ d) : days (wholeSeconds d) = days d := by
  have hday : 24 * hour = 86400 * 1000000000 := by decide
  rw [days, days, hday]
  show Int.tdiv (Int.tdiv d 1000000000 * 1000000000) (86400 * 1000000000) =
    Int.tdiv d (86400 * 1000000000)
  rw [Int.mul_tdiv_mul_of_pos_left _ _ (by decide), Int.tdiv_eq_ediv_of_nonneg hd,
    Int.tdiv_eq_ediv_of_nonneg hd, Int.tdiv_eq_ediv_of_nonneg (by omega)]
  omega

theorem idString_injective {a b : UUID} (h : idString a = idString b) : a = b := by
  apply groupedHex_injective
  have htext := congrArg String.toList h
  simpa [idString] using htext

theorem ruleFingerprint_inj {cls cls' : Class} {a b : UUID} :
    ruleFingerprint cls a = ruleFingerprint cls' b ↔ cls = cls' ∧ a = b := by
  constructor
  · intro h
    rw [ruleFingerprint, ruleFingerprint, Fingerprint.mk.injEq] at h
    obtain ⟨hcls, hsubject⟩ := h
    have htext := congrArg String.toList hsubject
    rw [String.toList_append, String.toList_append] at htext
    exact ⟨hcls, idString_injective (String.toList_inj.1 (List.append_cancel_left htext))⟩
  · rintro ⟨rfl, rfl⟩
    rfl

theorem pairFingerprint_inj {a b c d : UUID} :
    pairFingerprint a b = pairFingerprint c d ↔ a = c ∧ b = d := by
  constructor
  · intro h
    rw [pairFingerprint, pairFingerprint, Fingerprint.mk.injEq] at h
    have htext := congrArg String.toList h.2
    simp only [String.toList_append, List.append_assoc, idString, String.toList_ofList] at htext
    have hcut := List.append_cancel_left htext
    have hbar : ∀ n, '|' ∉ groupedHex n := by
      intro n hmem
      exact absurd (mem_groupedHex hmem) (by decide)
    have hbars : "|".toList = ['|'] := by decide
    rw [hbars, List.singleton_append, List.singleton_append] at hcut
    obtain ⟨hfirst, -, hrest⟩ := (List.append_cons_inj_of_notMem (hbar a) (hbar b)).1 hcut
    exact ⟨groupedHex_injective hfirst, groupedHex_injective hrest⟩
  · rintro ⟨rfl, rfl⟩
    rfl

theorem ruleFingerprint_ne_pair {cls : Class} {r a b : UUID} (hcls : cls ≠ .f5) :
    ruleFingerprint cls r ≠ pairFingerprint a b := by
  intro h
  exact hcls (congrArg Fingerprint.cls h)

/-! ## The aggregates of a rule -/

section Rules

variable {h : History} {i : FatigueInput} {r : Row} {f : FatigueFinding}

theorem longestUp_eq (hne : h.firings i r.id ≠ []) :
    ∃ a ∈ h.firings i r.id, (ruleStats h i r).longestUp = wholeSeconds (h.up a) ∧
      ∀ b ∈ h.firings i r.id, h.up b ≤ h.up a := by
  have hups : (h.firings i r.id).map h.up ≠ [] := by simpa using hne
  obtain ⟨longest, hlongest⟩ := Option.ne_none_iff_exists'.1 (mt List.max?_eq_none_iff.1 hups)
  obtain ⟨hmem, hmax⟩ := List.max?_eq_some_iff.1 hlongest
  obtain ⟨a, ha, rfl⟩ := List.mem_map.1 hmem
  refine ⟨a, ha, ?_, fun b hb => hmax _ (List.mem_map_of_mem hb)⟩
  show wholeSeconds (((h.firings i r.id).map h.up).max?.getD 0) = wholeSeconds (h.up a)
  rw [hlongest, Option.getD_some]

/-- **The two aggregates of F2**: the one asks for any open instance, the other for any long
one. -/
theorem wallpaper_ruleStats : (ruleStats h i r).Wallpaper ↔
    (∃ a ∈ h.firings i r.id, a.endedAt = none) ∧ ∃ a ∈ h.firings i r.id, wallpaper ≤ h.up a := by
  by_cases hne : h.firings i r.id = []
  · have hshort : ¬ wallpaper ≤ wholeSeconds 0 := by decide
    have hlongest : (ruleStats h i r).longestUp = wholeSeconds 0 := by
      show wholeSeconds (((h.firings i r.id).map h.up).max?.getD 0) = wholeSeconds 0
      rw [hne]
      rfl
    rw [RuleStats.Wallpaper, hlongest, hne]
    simp [hshort]
  · obtain ⟨a, ha, hlongest, hmax⟩ := longestUp_eq hne
    have hopen : (ruleStats h i r).openNow ↔ ∃ a ∈ h.firings i r.id, a.endedAt = none := by
      show ((h.firings i r.id).isEmpty || (h.firings i r.id).any fun a => a.endedAt.isNone) = true
        ↔ _
      simp [hne]
    have hlong : wallpaper ≤ (ruleStats h i r).longestUp ↔
        ∃ b ∈ h.firings i r.id, wallpaper ≤ h.up b := by
      rw [hlongest, wallpaper_le_wholeSeconds]
      constructor
      · intro hle
        exact ⟨a, ha, hle⟩
      · intro hex
        obtain ⟨b, hb, hle⟩ := hex
        exact le_trans hle (hmax b hb)
    rw [RuleStats.Wallpaper, hopen, hlong]

variable {a s b : RuleStats} {n : Nat}

theorem judge_eq_some (hj : i.judge s = some f) :
    ∃ cls ∈ [Class.f1, .f2, .f3, .f4], f.fingerprint = ruleFingerprint cls s.ruleID := by
  rw [FatigueInput.judge] at hj
  split_ifs at hj <;> cases hj
  · exact ⟨.f2, by decide, rfl⟩
  · exact ⟨.f3, by decide, rfl⟩
  · exact ⟨.f1, by decide, rfl⟩
  · exact ⟨.f4, by decide, rfl⟩

theorem judge_wallpaper {rule : UUID} :
    i.judge s = some f ∧ f.fingerprint = ruleFingerprint .f2 rule ↔
      s.ruleID = rule ∧ s.Wallpaper ∧ f = s.wallpaperFinding := by
  constructor
  · intro h
    obtain ⟨hj, hprint⟩ := h
    by_cases hw : s.Wallpaper
    · rw [FatigueInput.judge, if_pos hw, Option.some_inj] at hj
      subst hj
      exact ⟨(ruleFingerprint_inj.1 hprint).2, hw, rfl⟩
    · rw [FatigueInput.judge, if_neg hw] at hj
      split_ifs at hj <;> cases hj <;> exact absurd (ruleFingerprint_inj.1 hprint).1 (by decide)
  · intro h
    obtain ⟨rfl, hw, rfl⟩ := h
    exact ⟨by rw [FatigueInput.judge, if_pos hw], rfl⟩

theorem rules_eq_of_id {r' : Row} (hr : r ∈ h.rules i) (hr' : r' ∈ h.rules i)
    (hid : r.id = r'.id) : r = r' :=
  List.inj_on_of_nodup_map h.database.ruleKey (List.mem_of_mem_filter hr)
    (List.mem_of_mem_filter hr') hid

theorem duplicateFinding_eq_some (hd : duplicateFinding a b n = some f) :
    f.fingerprint = pairFingerprint a.ruleID b.ruleID ∧ 9 * smallerFirings a b ≤ 10 * n := by
  rw [duplicateFinding] at hd
  split_ifs at hd with hfew
  cases hd
  exact ⟨rfl, by omega⟩

theorem exists_duplicateFinding (hpos : 0 < smallerFirings a b)
    (henough : 9 * smallerFirings a b ≤ 10 * n) : ∃ f, duplicateFinding a b n = some f := by
  rw [duplicateFinding, if_neg (by omega)]
  exact ⟨_, rfl⟩

theorem fingerprint_of_mem_evalDuplicateRules {stats : List RuleStats}
    (hf : f ∈ evalDuplicateRules h i stats) : ∃ a b, f.fingerprint = pairFingerprint a b := by
  rw [evalDuplicateRules] at hf
  split_ifs at hf
  · cases hf
  · obtain ⟨p, -, hp⟩ := List.mem_filterMap.1 hf
    split at hp
    · exact ⟨_, _, (duplicateFinding_eq_some hp).1⟩
    · cases hp

theorem wallpaper_evaluateFatigue (hr : r ∈ h.rules i) :
    f ∈ evaluateFatigue h i ∧ f.fingerprint = ruleFingerprint .f2 r.id ↔
      i.demand.Mature i.start ∧ (ruleStats h i r).Wallpaper ∧
        f = (ruleStats h i r).wallpaperFinding := by
  rw [evaluateFatigue]
  by_cases hmature : i.demand.Mature i.start
  · rw [if_pos hmature, List.mem_append, List.mem_filterMap]
    constructor
    · intro hf
      obtain ⟨⟨s, hs, hj⟩ | hdup, hprint⟩ := hf
      · obtain ⟨r', hr', rfl⟩ := List.mem_map.1 hs
        obtain ⟨hid, hw, rfl⟩ := judge_wallpaper.1 ⟨hj, hprint⟩
        have hsame : r' = r := rules_eq_of_id hr' hr hid
        subst hsame
        exact ⟨hmature, hw, rfl⟩
      · obtain ⟨a, b, hpair⟩ := fingerprint_of_mem_evalDuplicateRules hdup
        exact absurd (hprint.symm.trans hpair) (ruleFingerprint_ne_pair (by decide))
    · intro hf
      obtain ⟨-, hw, rfl⟩ := hf
      obtain ⟨hj, hprint⟩ := judge_wallpaper (i := i).2 ⟨rfl, hw, rfl⟩
      exact ⟨.inl ⟨_, List.mem_map_of_mem hr, hj⟩, hprint⟩
  · rw [if_neg hmature]
    simp [hmature]

end Rules

/-! ## The minutes two rules share -/

section Pairs

variable {h : History} {i : FatigueInput} {r t : Row} {f : FatigueFinding}

theorem mem_fires (hr : r ∈ h.rules i) {m : Nat} :
    (r.id, m) ∈ fires h i ↔ ∃ a ∈ h.firings i r.id, startMinute a = m := by
  rw [fires, List.mem_dedup, List.mem_map]
  constructor
  · intro hex
    obtain ⟨a, ha, hpair⟩ := hex
    obtain ⟨hmem, -, hwindow⟩ := by simpa using ha
    obtain ⟨hrule, hminute⟩ := Prod.mk.inj hpair
    exact ⟨a, List.mem_filter.2 ⟨hmem, by simpa [hrule] using hwindow⟩, hminute⟩
  · intro hex
    obtain ⟨a, ha, rfl⟩ := hex
    obtain ⟨hmem, hrule, hwindow⟩ := by simpa [History.firings] using ha
    exact ⟨a, by simpa [hmem, hrule, hwindow] using ⟨r, hr, rfl⟩, by rw [hrule]⟩

/-- The firings of a rule that start in a minute in which another starts firing. -/
def coinciding (h : History) (i : FatigueInput) (rule other : UUID) : List AlertInstance :=
  (h.firings i rule).filter fun a => ∃ b ∈ h.firings i other, startMinute b = startMinute a

/-- How many minutes two rules share. -/
def shared (h : History) (i : FatigueInput) (rule other : UUID) : Nat :=
  (fires h i).countP fun a => a.1 = rule ∧ (other, a.2) ∈ fires h i

theorem mem_shared (hr : r ∈ h.rules i) (ht : t ∈ h.rules i) {p : UUID × Nat} :
    p ∈ (fires h i).filter (fun a => a.1 = r.id ∧ (t.id, a.2) ∈ fires h i) ↔
      p ∈ (coinciding h i r.id t.id).map fun a => (r.id, startMinute a) := by
  rw [List.mem_filter, List.mem_map]
  constructor
  · intro hp
    obtain ⟨hmem, hboth⟩ := hp
    obtain ⟨hrule, hother⟩ := of_decide_eq_true hboth
    obtain ⟨rule, m⟩ := p
    obtain rfl : rule = r.id := hrule
    obtain ⟨a, ha, rfl⟩ := (mem_fires hr).1 hmem
    exact ⟨a, List.mem_filter.2 ⟨ha, decide_eq_true ((mem_fires ht).1 hother)⟩, rfl⟩
  · intro hex
    obtain ⟨a, ha, rfl⟩ := hex
    obtain ⟨hfired, hother⟩ := List.mem_filter.1 ha
    exact ⟨(mem_fires hr).2 ⟨a, hfired, rfl⟩,
      decide_eq_true ⟨rfl, (mem_fires ht).2 (of_decide_eq_true hother)⟩⟩

theorem shared_le (hr : r ∈ h.rules i) (ht : t ∈ h.rules i) :
    shared h i r.id t.id ≤ (coinciding h i r.id t.id).length := by
  have hnodup := (List.nodup_dedup _ : (fires h i).Nodup).filter fun a =>
    a.1 = r.id ∧ (t.id, a.2) ∈ fires h i
  have hsub := hnodup.subperm fun p hp => (mem_shared hr ht).1 hp
  rw [shared, List.countP_eq_length_filter]
  exact hsub.length_le.trans_eq (List.length_map _)

theorem shared_eq (hr : r ∈ h.rules i) (ht : t ∈ h.rules i)
    (honce : ((h.firings i r.id).map startMinute).Nodup) :
    shared h i r.id t.id = (coinciding h i r.id t.id).length := by
  have hnodup := (List.nodup_dedup _ : (fires h i).Nodup).filter fun a =>
    a.1 = r.id ∧ (t.id, a.2) ∈ fires h i
  have hminutes : ((coinciding h i r.id t.id).map startMinute).Nodup :=
    honce.sublist (List.filter_sublist.map _)
  have hpairs : ((coinciding h i r.id t.id).map fun a => (r.id, startMinute a)).Nodup := by
    have hmap := hminutes.map (f := fun m => (r.id, m)) fun m n hmn => (Prod.mk.inj hmn).2
    rwa [List.map_map] at hmap
  have hperm := (List.perm_ext_iff_of_nodup hnodup hpairs).2 fun p => mem_shared hr ht
  rw [shared, List.countP_eq_length_filter]
  exact hperm.length_eq.trans (List.length_map _)

theorem shared_comm (r t : UUID) : shared h i r t = shared h i t r :=
  countP_common_comm (List.nodup_dedup _) r t

theorem coinciding_le (r t : UUID) : (coinciding h i r t).length ≤ (h.firings i r).length :=
  List.length_filter_le _ _

theorem mem_sharedMinutes {a b : UUID} (hlt : a < b) {n : Nat} :
    ((a, b), n) ∈ sharedMinutes h i ↔ n = shared h i a b ∧ minFiringsForFatigue ≤ n := by
  have hcount : (selfJoin (fires h i)).count (a, b) = shared h i a b :=
    count_selfJoin (List.nodup_dedup _) hlt
  rw [sharedMinutes, List.mem_filter, List.mem_map]
  constructor
  · intro hmem
    obtain ⟨⟨p, -, hp⟩, hmany⟩ := hmem
    obtain ⟨rfl, rfl⟩ := Prod.mk.inj hp
    exact ⟨hcount, of_decide_eq_true hmany⟩
  · intro hmem
    obtain ⟨rfl, hmany⟩ := hmem
    refine ⟨⟨(a, b), ?_, by rw [hcount]⟩, decide_eq_true hmany⟩
    have hpos : 0 < (selfJoin (fires h i)).count (a, b) := by
      rw [hcount]
      exact Nat.lt_of_lt_of_le (by decide) hmany
    exact List.mem_dedup.2 (List.count_pos_iff.1 hpos)

/-- What `byID` holds for a rule that fires often enough. -/
theorem byID_eq (hr : r ∈ h.rules i) (hmany : minFiringsForFatigue ≤ (h.firings i r.id).length) :
    ((loadRuleStats h i).filter fun s => minFiringsForFatigue ≤ s.firings).find?
      (fun s => s.ruleID = r.id) = some (ruleStats h i r) := by
  have hmem : ruleStats h i r ∈
      (loadRuleStats h i).filter fun s => minFiringsForFatigue ≤ s.firings :=
    List.mem_filter.2 ⟨List.mem_map_of_mem hr, decide_eq_true hmany⟩
  cases hfind : ((loadRuleStats h i).filter fun s => minFiringsForFatigue ≤ s.firings).find?
      (fun s => s.ruleID = r.id) with
  | none => exact absurd (decide_eq_true rfl) (List.find?_eq_none.1 hfind _ hmem)
  | some s =>
    have hid : s.ruleID = r.id := by simpa using List.find?_some hfind
    have hs := List.mem_of_mem_filter (List.mem_of_find?_eq_some hfind)
    obtain ⟨r', hr', rfl⟩ := List.mem_map.1 hs
    rw [rules_eq_of_id hr' hr hid]

theorem shared_le_firings (hr : r ∈ h.rules i) (ht : t ∈ h.rules i) :
    shared h i r.id t.id ≤ (h.firings i r.id).length :=
  (shared_le hr ht).trans (coinciding_le r.id t.id)

theorem smallerFirings_ruleStats : smallerFirings (ruleStats h i r) (ruleStats h i t) =
    min (h.firings i r.id).length (h.firings i t.id).length := by
  show (if (h.firings i t.id).length < (h.firings i r.id).length then (h.firings i t.id).length
    else (h.firings i r.id).length) = _
  split_ifs <;> omega

theorem minFirings_le (hr : r ∈ h.rules i) (ht : t ∈ h.rules i)
    (hten : minFiringsForFatigue ≤ shared h i r.id t.id) :
    minFiringsForFatigue ≤ (h.firings i r.id).length ∧
      minFiringsForFatigue ≤ (h.firings i t.id).length := by
  have hfew := shared_le_firings hr ht
  have hfew' := shared_le_firings ht hr
  rw [shared_comm] at hfew'
  omega

/-- Two rules that `byID` holds are not fewer than two. -/
theorem not_length_byID_lt (hr : r ∈ h.rules i) (ht : t ∈ h.rules i) (hne : r.id ≠ t.id)
    (hmanyr : minFiringsForFatigue ≤ (h.firings i r.id).length)
    (hmanyt : minFiringsForFatigue ≤ (h.firings i t.id).length) :
    ¬ ((loadRuleStats h i).filter fun s => minFiringsForFatigue ≤ s.firings).length < 2 := by
  have hpair : List.Subperm [ruleStats h i r, ruleStats h i t]
      ((loadRuleStats h i).filter fun s => minFiringsForFatigue ≤ s.firings) := by
    have hstats : ruleStats h i r ≠ ruleStats h i t := fun hsame =>
      hne (congrArg RuleStats.ruleID hsame)
    apply List.Nodup.subperm (by simp [hstats])
    intro s hs
    rcases List.mem_pair.1 hs with rfl | rfl
    · exact List.mem_of_find?_eq_some (byID_eq hr hmanyr)
    · exact List.mem_of_find?_eq_some (byID_eq ht hmanyt)
  have htwo := hpair.length_le
  rw [List.length_cons, List.length_singleton] at htwo
  omega

/-- The pairs that `evalDuplicateRules` finds. -/
theorem duplicate_evalDuplicateRules (hr : r ∈ h.rules i) (ht : t ∈ h.rules i) (hlt : r.id < t.id) :
    (∃ f ∈ evalDuplicateRules h i (loadRuleStats h i), f.fingerprint = pairFingerprint r.id t.id) ↔
      minFiringsForFatigue ≤ shared h i r.id t.id ∧
        9 * min (h.firings i r.id).length (h.firings i t.id).length ≤
          10 * shared h i r.id t.id := by
  rw [evalDuplicateRules]
  constructor
  · intro hex
    obtain ⟨f, hf, hprint⟩ := hex
    split_ifs at hf
    · cases hf
    · obtain ⟨p, hp, hfound⟩ := List.mem_filterMap.1 hf
      split at hfound
      · rename_i a b ha hb
        obtain ⟨hpair, henough⟩ := duplicateFinding_eq_some hfound
        obtain ⟨hra, htb⟩ := pairFingerprint_inj.1 (hpair.symm.trans hprint)
        have hpa : a.ruleID = p.1.1 := by simpa using List.find?_some ha
        have hpb : b.ruleID = p.1.2 := by simpa using List.find?_some hb
        obtain ⟨⟨x, y⟩, n⟩ := p
        obtain rfl : x = r.id := hpa.symm.trans hra
        obtain rfl : y = t.id := hpb.symm.trans htb
        obtain ⟨rfl, hten⟩ := (mem_sharedMinutes hlt).1 hp
        obtain ⟨hmanyr, hmanyt⟩ := minFirings_le hr ht hten
        rw [byID_eq hr hmanyr, Option.some_inj] at ha
        rw [byID_eq ht hmanyt, Option.some_inj] at hb
        rw [← ha, ← hb, smallerFirings_ruleStats] at henough
        exact ⟨hten, henough⟩
      · cases hfound
  · intro hex
    obtain ⟨hten, henough⟩ := hex
    obtain ⟨hmanyr, hmanyt⟩ := minFirings_le hr ht hten
    have hpos : 0 < smallerFirings (ruleStats h i r) (ruleStats h i t) := by
      rw [smallerFirings_ruleStats]
      exact Nat.lt_of_lt_of_le (by decide) (le_min hmanyr hmanyt)
    rw [← smallerFirings_ruleStats] at henough
    obtain ⟨f, hf⟩ := exists_duplicateFinding hpos henough
    rw [if_neg (not_length_byID_lt hr ht (Nat.ne_of_lt hlt) hmanyr hmanyt)]
    refine ⟨f, List.mem_filterMap.2 ⟨_, (mem_sharedMinutes hlt).2 ⟨rfl, hten⟩, ?_⟩,
      (duplicateFinding_eq_some hf).1⟩
    rw [byID_eq hr hmanyr, byID_eq ht hmanyt]
    exact hf

theorem duplicate_evaluateFatigue (hr : r ∈ h.rules i) (ht : t ∈ h.rules i) (hlt : r.id < t.id) :
    (∃ f ∈ evaluateFatigue h i, f.fingerprint = pairFingerprint r.id t.id) ↔
      i.demand.Mature i.start ∧ minFiringsForFatigue ≤ shared h i r.id t.id ∧
        9 * min (h.firings i r.id).length (h.firings i t.id).length ≤
          10 * shared h i r.id t.id := by
  rw [evaluateFatigue]
  by_cases hmature : i.demand.Mature i.start
  · rw [if_pos hmature, and_iff_right hmature, ← duplicate_evalDuplicateRules hr ht hlt]
    constructor
    · intro hex
      obtain ⟨f, hf, hprint⟩ := hex
      cases List.mem_append.1 hf with
      | inl hrule =>
        obtain ⟨s, -, hj⟩ := List.mem_filterMap.1 hrule
        obtain ⟨cls, hcls, hown⟩ := judge_eq_some hj
        have hne : cls ≠ .f5 := by
          rintro rfl
          exact absurd hcls (by decide)
        exact absurd (hown.symm.trans hprint) (ruleFingerprint_ne_pair hne)
      | inr hdup => exact ⟨f, hdup, hprint⟩
    · intro hex
      obtain ⟨f, hf, hprint⟩ := hex
      exact ⟨f, List.mem_append_right _ hf, hprint⟩
  · rw [if_neg hmature]
    simp [hmature]

end Pairs

/-! ## What the findings say -/

section Facts

variable {h : History} {i : FatigueInput} {r : Row}

def FiringNow (h : History) (rule : UUID) (a : AlertInstance) : Prop :=
  a ∈ h.instances ∧ a.alertRuleID = rule ∧ a.endedAt = none

/-- What is firing now for long enough started in the window, and of what the window holds
nothing that was resolved lasted long enough and longer than that. -/
structure ToldByLongest (h : History) (i : FatigueInput) (rule : UUID) : Prop where
  inWindow : ∀ a, FiringNow h rule a → wallpaper ≤ h.up a → a ∈ h.firings i rule
  resolved : ∀ b ∈ h.firings i rule, b.endedAt ≠ none → wallpaper ≤ h.up b →
    (∃ a, FiringNow h rule a) → ∃ a, FiringNow h rule a ∧ h.up b ≤ h.up a

theorem firingNow_of_mem {rule : UUID} {a : AlertInstance} (ha : a ∈ h.firings i rule)
    (hopen : a.endedAt = none) : FiringNow h rule a :=
  ⟨List.mem_of_mem_filter ha, (of_decide_eq_true (List.mem_filter.1 ha).2).1, hopen⟩

theorem ToldByLongest.exists_firingNow {rule : UUID} (htold : ToldByLongest h i rule)
    {b : AlertInstance} (hb : b ∈ h.firings i rule) (hlong : wallpaper ≤ h.up b)
    (hopen : ∃ a, FiringNow h rule a) : ∃ a, FiringNow h rule a ∧ h.up b ≤ h.up a := by
  by_cases hnone : b.endedAt = none
  · exact ⟨b, firingNow_of_mem hb hnone, le_refl _⟩
  · exact htold.resolved b hb hnone hlong hopen

/-- What F2 says of a rule whose window tells: that one of its instances is firing now and has
been for the threshold, and for how long the longest has. -/
theorem ToldByLongest.wallpaper_iff (htold : ToldByLongest h i r.id) (d : Int) :
    (ruleStats h i r).Wallpaper ∧ d = days (ruleStats h i r).longestUp ↔
      ∃ a, FiringNow h r.id a ∧ (∀ b, FiringNow h r.id b → h.up b ≤ h.up a) ∧
        wallpaper ≤ h.up a ∧ d = days (h.up a) := by
  have hpos : (0 : Int) ≤ wallpaper := by decide
  rw [wallpaper_ruleStats]
  constructor
  · intro hw
    obtain ⟨⟨⟨o, ho, hopen⟩, b, hb, hlong⟩, rfl⟩ := hw
    obtain ⟨l, hl, hlongest, hmax⟩ := longestUp_eq (List.ne_nil_of_mem hb)
    have hlongl : wallpaper ≤ h.up l := le_trans hlong (hmax b hb)
    obtain ⟨a, ha, hla⟩ := htold.exists_firingNow hl hlongl ⟨o, firingNow_of_mem ho hopen⟩
    have hall : ∀ c, FiringNow h r.id c → wallpaper ≤ h.up c → h.up c ≤ h.up l := fun c hc hlongc =>
      hmax c (htold.inWindow c hc hlongc)
    have hsame : h.up a = h.up l := le_antisymm (hall a ha (le_trans hlongl hla)) hla
    refine ⟨a, ha, ?_, hsame ▸ hlongl, ?_⟩
    · intro c hc
      rw [hsame]
      by_cases hlongc : wallpaper ≤ h.up c
      · exact hall c hc hlongc
      · exact le_trans (le_of_not_ge hlongc) hlongl
    · rw [hlongest, hsame]
      exact days_wholeSeconds (le_trans hpos hlongl)
  · intro hex
    obtain ⟨a, ha, hmaxa, hlong, rfl⟩ := hex
    have hmem := htold.inWindow a ha hlong
    obtain ⟨l, hl, hlongest, hmax⟩ := longestUp_eq (List.ne_nil_of_mem hmem)
    have hlongl : wallpaper ≤ h.up l := le_trans hlong (hmax a hmem)
    obtain ⟨c, hc, hlc⟩ := htold.exists_firingNow hl hlongl ⟨a, ha⟩
    have hsame : h.up l = h.up a := le_antisymm (le_trans hlc (hmaxa c hc)) (hmax a hmem)
    refine ⟨⟨⟨a, hmem, ha.2.2⟩, a, hmem, hlong⟩, ?_⟩
    rw [hlongest, hsame]
    exact (days_wholeSeconds (le_trans hpos hlong)).symm

structure FindingsStateFacts (h : History) (i : FatigueInput) : Prop where
  young : ¬ i.demand.Mature i.start → evaluateFatigue h i = []
  wallpaper : i.demand.Mature i.start → ∀ r ∈ h.rules i, ToldByLongest h i r.id → ∀ d : Int,
    (∃ f ∈ evaluateFatigue h i, f.fingerprint = ruleFingerprint .f2 r.id ∧
        f.evidence.lookup "continuous_days" = some d) ↔
      ∃ a, FiringNow h r.id a ∧ (∀ b, FiringNow h r.id b → h.up b ≤ h.up a) ∧
        wallpaper ≤ h.up a ∧ d = days (h.up a)
  duplicates : i.demand.Mature i.start → ∀ r ∈ h.rules i, ∀ t ∈ h.rules i, r.id ≠ t.id →
    (h.firings i r.id).length ≤ (h.firings i t.id).length →
    ((h.firings i r.id).map startMinute).Nodup →
    ((∃ f ∈ evaluateFatigue h i, f.fingerprint = pairFingerprint (min r.id t.id) (max r.id t.id)) ↔
      10 ≤ (coinciding h i r.id t.id).length ∧
        9 * (h.firings i r.id).length ≤ 10 * (coinciding h i r.id t.id).length)

/-- **A finding states a fact.** -/
theorem findingsStateFacts (h : History) (i : FatigueInput) : FindingsStateFacts h i where
  young := fun hyoung => by rw [evaluateFatigue, if_neg hyoung]
  wallpaper := by
    intro hmature r hr htold d
    rw [← htold.wallpaper_iff]
    constructor
    · intro hex
      obtain ⟨f, hf, hprint, hdays⟩ := hex
      obtain ⟨-, hw, rfl⟩ := (wallpaper_evaluateFatigue hr).1 ⟨hf, hprint⟩
      exact ⟨hw, (Option.some_inj.1 hdays).symm⟩
    · intro hw
      obtain ⟨hw, rfl⟩ := hw
      obtain ⟨hf, hprint⟩ := (wallpaper_evaluateFatigue hr).2 ⟨hmature, hw, rfl⟩
      exact ⟨_, hf, hprint, rfl⟩
  duplicates := by
    intro hmature r hr t ht hne hfewer honce
    have hmany : shared h i r.id t.id = (coinciding h i r.id t.id).length := shared_eq hr ht honce
    rcases lt_or_gt_of_ne hne with hlt | hlt
    · rw [min_eq_left hlt.le, max_eq_right hlt.le, duplicate_evaluateFatigue hr ht hlt,
        and_iff_right hmature, min_eq_left hfewer, hmany]
      rfl
    · rw [min_eq_right hlt.le, max_eq_left hlt.le, duplicate_evaluateFatigue ht hr hlt,
        and_iff_right hmature, min_eq_right hfewer, shared_comm, hmany]
      rfl

end Facts

private def twin (id : UUID) (name : String) : Row where
  id := id
  organizationID := 1
  name := name
  signal := .trace
  ruleSpec := .null
  createdAt := 0
  updatedAt := 0

private def onceEach : History where
  database :=
    { rules := [twin 1 "errors", twin 2 "errors again"]
      routes := []
      ruleKey := by decide
      routeKey := List.nodup_nil }
  instances :=
    [⟨10, 1, .resolved, "errors", none, 5 * day, 5 * day, some (6 * day), none, none, none⟩,
      ⟨20, 2, .resolved, "errors again", none, 5 * day, 5 * day, some (6 * day), none, none, none⟩]
  now := 31 * day

private def month : FatigueInput where
  orgID := 1
  demand := { earliest := 1 }
  start := day
  stop := 31 * day

/-- Two rules that fired once each, in one minute: all firings of either coincide, and a pair
that has not fired ten times is not reported. -/
theorem single_firings_unreported :
    month.demand.Mature month.start ∧ (onceEach.firings month 1).length = 1 ∧
      (onceEach.firings month 2).length = 1 ∧
      ¬ ((∃ f ∈ evaluateFatigue onceEach month, f.fingerprint = pairFingerprint 1 2) ↔
        9 * (onceEach.firings month 1).length ≤ 10 * (coinciding onceEach month 1 2).length) := by
  decide

end Sluicio.Advisor
