import Mathlib.Algebra.BigOperators.Group.Finset.Piecewise

/-!
# Grouped reads

`groupBy key rows` is a query's rows under `GROUP BY key`, and `sumBy key agg rows` the sum
of an aggregate over the groups.  The order of the groups is not the query's, and neither
result here depends on it: `sumBy` of rows that come in parts of one key each is the sum over
the parts.  `selfJoin` pairs the keys that have a row at one time.
-/

namespace Sluicio.Lib

variable {ρ ι κ τ M : Type*} [DecidableEq κ]

/-- The groups of `FROM rows GROUP BY key`, each with its rows. -/
def groupBy (key : ρ → κ) (rows : List ρ) : List (List ρ) :=
  (rows.map key).dedup.map fun k => rows.filter fun r => key r = k

/-- `SELECT sum(a) FROM (SELECT agg AS a FROM rows GROUP BY key)`. -/
def sumBy [AddCommMonoid M] (key : ρ → κ) (agg : List ρ → M) (rows : List ρ) : M :=
  ((groupBy key rows).map agg).sum

section Sum

variable [AddCommMonoid M] {key : ρ → κ} {agg : List ρ → M}

theorem sumBy_eq_of_keys (hempty : agg [] = 0) {rows : List ρ} {keys : List κ}
    (hnodup : keys.Nodup) (hkeys : ∀ r ∈ rows, key r ∈ keys) :
    sumBy key agg rows = (keys.map fun k => agg (rows.filter fun r => key r = k)).sum := by
  let group (k : κ) : M := agg (rows.filter fun r => key r = k)
  have hsum : sumBy key agg rows = ((rows.map key).dedup.map group).sum := by
    simp only [sumBy, groupBy, List.map_map]
    rfl
  have hsub : (rows.map key).dedup.toFinset ⊆ keys.toFinset := by
    intro k hk
    obtain ⟨r, hr, rfl⟩ := List.mem_map.1 (List.mem_dedup.1 (List.mem_toFinset.1 hk))
    exact List.mem_toFinset.2 (hkeys r hr)
  have hrest : ∀ k ∈ keys.toFinset, k ∉ (rows.map key).dedup.toFinset → group k = 0 := by
    intro k _ hk
    have hnone : (rows.filter fun r => key r = k) = [] := by
      rw [List.filter_eq_nil_iff]
      intro r hr hkey
      exact hk (List.mem_toFinset.2 (List.mem_dedup.2
        (List.mem_map.2 ⟨r, hr, of_decide_eq_true hkey⟩)))
    simp only [group, hnone, hempty]
  calc sumBy key agg rows
      = (rows.map key).dedup.toFinset.sum group := by
        rw [hsum, List.sum_toFinset _ (List.nodup_dedup _)]
    _ = keys.toFinset.sum group := Finset.sum_subset hsub hrest
    _ = (keys.map group).sum := List.sum_toFinset _ hnodup

theorem sumBy_of_one_key (hempty : agg [] = 0) {rows : List ρ} {k : κ}
    (h : ∀ r ∈ rows, key r = k) : sumBy key agg rows = agg rows := by
  rw [sumBy_eq_of_keys hempty (List.nodup_singleton k) fun r hr => List.mem_singleton.2 (h r hr),
    List.map_singleton, List.sum_singleton,
    List.filter_eq_self.2 fun r hr => decide_eq_true (h r hr)]

theorem sumBy_perm (hempty : agg [] = 0) (hagg : ∀ {g g' : List ρ}, g.Perm g' → agg g = agg g')
    {rows rows' : List ρ} (h : rows.Perm rows') : sumBy key agg rows = sumBy key agg rows' := by
  have hnodup := List.nodup_dedup (rows'.map key)
  have hkeys : ∀ r ∈ rows', key r ∈ (rows'.map key).dedup := fun r hr =>
    List.mem_dedup.2 (List.mem_map_of_mem hr)
  rw [sumBy_eq_of_keys hempty hnodup fun r hr => hkeys r (h.mem_iff.1 hr),
    sumBy_eq_of_keys hempty hnodup hkeys]
  have hgroup (k : κ) : agg (rows.filter fun r => key r = k) =
      agg (rows'.filter fun r => key r = k) := hagg (h.filter _)
  simp only [hgroup]

end Sum

variable {key : ρ → κ} {agg : List ρ → M} {part : ι → List ρ} {k : ι → κ} {is : List ι}

theorem filter_flatMap_key (hkey : ∀ i ∈ is, ∀ r ∈ part i, key r = k i) (hnodup : (is.map k).Nodup)
    {i : ι} (hi : i ∈ is) : ((is.flatMap part).filter fun r => key r = k i) = part i := by
  induction is with
  | nil => nomatch hi
  | cons j is ih =>
    rw [List.map_cons, List.nodup_cons] at hnodup
    rw [List.flatMap_cons, List.filter_append]
    have htail := fun a ha => hkey a (List.mem_cons_of_mem j ha)
    cases List.mem_cons.1 hi with
    | inl hij =>
      subst hij
      have hhead : (part i).filter (fun r => key r = k i) = part i :=
        List.filter_eq_self.2 fun r hr => decide_eq_true (hkey i List.mem_cons_self r hr)
      have hrest : (is.flatMap part).filter (fun r => key r = k i) = [] := by
        rw [List.filter_eq_nil_iff]
        intro r hr hsame
        obtain ⟨a, ha, hra⟩ := List.mem_flatMap.1 hr
        refine hnodup.1 (List.mem_map.2 ⟨a, ha, ?_⟩)
        rw [← htail a ha r hra, of_decide_eq_true hsame]
      rw [hhead, hrest, List.append_nil]
    | inr hmem =>
      have hhead : (part j).filter (fun r => key r = k i) = [] := by
        rw [List.filter_eq_nil_iff]
        intro r hr hsame
        refine hnodup.1 (List.mem_map.2 ⟨i, hmem, ?_⟩)
        rw [← hkey j List.mem_cons_self r hr, of_decide_eq_true hsame]
      rw [hhead, List.nil_append]
      exact ih htail hnodup.2 hmem

theorem sumBy_flatMap [AddCommMonoid M] (hempty : agg [] = 0)
    (hkey : ∀ i ∈ is, ∀ r ∈ part i, key r = k i) (hnodup : (is.map k).Nodup) :
    sumBy key agg (is.flatMap part) = (is.map fun i => agg (part i)).sum := by
  have hkeys : ∀ r ∈ is.flatMap part, key r ∈ is.map k := by
    intro r hr
    obtain ⟨i, hi, hri⟩ := List.mem_flatMap.1 hr
    exact List.mem_map.2 ⟨i, hi, (hkey i hi r hri).symm⟩
  rw [sumBy_eq_of_keys hempty hnodup hkeys, List.map_map]
  have hpart : ∀ i ∈ is, agg ((is.flatMap part).filter fun r => key r = k i) = agg (part i) :=
    fun i hi => by rw [filter_flatMap_key hkey hnodup hi]
  exact congrArg List.sum (List.map_congr_left hpart)

theorem sumBy_congr_key {κ' : Type*} [DecidableEq κ'] [AddCommMonoid M] {key' : ρ → κ'}
    (hempty : agg [] = 0) {rows : List ρ}
    (hkey : ∀ r ∈ rows, ∀ s ∈ rows, key r = key s ↔ key' r = key' s) :
    sumBy key agg rows = sumBy key' agg rows := by
  -- one row of each group, which has the group's key either way
  have hreps : ∃ reps : List ρ, (∀ r ∈ reps, r ∈ rows) ∧ (reps.map key).Nodup ∧
      ∀ r ∈ rows, key r ∈ reps.map key := by
    clear hkey
    induction rows with
    | nil => exact ⟨[], by simp, List.nodup_nil, by simp⟩
    | cons r rows ih =>
      obtain ⟨reps, hsub, hnodup, hall⟩ := ih
      by_cases hmem : key r ∈ reps.map key
      · refine ⟨reps, fun s hs => List.mem_cons_of_mem r (hsub s hs), hnodup, ?_⟩
        exact List.forall_mem_cons.2 ⟨hmem, hall⟩
      refine ⟨r :: reps, ?_, List.nodup_cons.2 ⟨hmem, hnodup⟩, ?_⟩
      · exact List.forall_mem_cons.2
          ⟨List.mem_cons_self, fun s hs => List.mem_cons_of_mem r (hsub s hs)⟩
      · rw [List.map_cons]
        exact List.forall_mem_cons.2
          ⟨List.mem_cons_self, fun s hs => List.mem_cons_of_mem _ (hall s hs)⟩
  obtain ⟨reps, hsub, hnodup, hall⟩ := hreps
  have hnodup' : (reps.map key').Nodup := by
    rw [List.Nodup, List.pairwise_map] at hnodup ⊢
    apply hnodup.imp_of_mem
    intro r s hr hs hne heq
    exact hne ((hkey r (hsub r hr) s (hsub s hs)).2 heq)
  have hall' : ∀ r ∈ rows, key' r ∈ reps.map key' := by
    intro r hr
    obtain ⟨s, hs, heq⟩ := List.mem_map.1 (hall r hr)
    exact List.mem_map.2 ⟨s, hs, (hkey s (hsub s hs) r hr).1 heq⟩
  rw [sumBy_eq_of_keys hempty hnodup hall, sumBy_eq_of_keys hempty hnodup' hall', List.map_map,
    List.map_map]
  apply congrArg List.sum
  apply List.map_congr_left
  intro s hs
  show agg _ = agg _
  congr 1
  apply List.filter_congr
  intro r hr
  exact decide_eq_decide.2 (hkey r hr s (hsub s hs))

theorem sumBy_sum_map [AddCommMonoid M] {f : ρ → M} (rows : List ρ) :
    sumBy key (fun g => (g.map f).sum) rows = (rows.map f).sum := by
  have hkeys {keys : List κ} (hnodup : keys.Nodup) {rows : List ρ}
      (hall : ∀ r ∈ rows, key r ∈ keys) :
      (keys.map fun k => ((rows.filter fun r => key r = k).map f).sum).sum = (rows.map f).sum := by
    induction rows with
    | nil => simp
    | cons r rows ih =>
      rw [List.forall_mem_cons] at hall
      have hsplit (k : κ) : (((r :: rows).filter fun r => key r = k).map f).sum =
          (if key r = k then f r else 0) + ((rows.filter fun r => key r = k).map f).sum := by
        rw [List.filter_cons]
        by_cases hr : key r = k
        · rw [if_pos hr, if_pos (decide_eq_true hr), List.map_cons, List.sum_cons]
        · rw [if_neg hr, if_neg (by simpa using hr), zero_add]
      have hone : (keys.map fun k => if key r = k then f r else 0).sum = f r := by
        rw [← List.sum_toFinset _ hnodup, Finset.sum_ite_eq, if_pos (List.mem_toFinset.2 hall.1)]
      simp only [hsplit]
      rw [List.sum_map_add, hone, ih hall.2, List.map_cons, List.sum_cons]
  rw [sumBy_eq_of_keys (by simp) (List.nodup_dedup (rows.map key)) fun r hr =>
    List.mem_dedup.2 (List.mem_map_of_mem hr)]
  exact hkeys (List.nodup_dedup _) fun r hr => List.mem_dedup.2 (List.mem_map_of_mem hr)

/-! ## Rows joined with themselves -/

/-- `SELECT a.k, b.k FROM rows a JOIN rows b ON a.t = b.t AND a.k < b.k`. -/
def selfJoin [LT κ] [DecidableLT κ] [DecidableEq τ] (rows : List (κ × τ)) : List (κ × κ) :=
  rows.flatMap fun a => (rows.filter fun b => a.2 = b.2 ∧ a.1 < b.1).map fun b => (a.1, b.1)

section Join

variable [LT κ] [DecidableLT κ] [DecidableEq τ] {rows : List (κ × τ)}

theorem count_joined (hnodup : rows.Nodup) {k l : κ} (hlt : k < l) (a : κ × τ) :
    ((rows.filter fun b => a.2 = b.2 ∧ a.1 < b.1).map fun b => (a.1, b.1)).count (k, l) =
      if a.1 = k ∧ (l, a.2) ∈ rows then 1 else 0 := by
  have hcount : ((rows.filter fun b => a.2 = b.2 ∧ a.1 < b.1).map fun b => (a.1, b.1)).count
      (k, l) = rows.countP fun b => a.1 = k ∧ b = (l, a.2) := by
    rw [List.count, List.countP_map, List.countP_filter]
    apply List.countP_congr
    intro b _
    simp only [Function.comp_apply, beq_iff_eq, Prod.mk.injEq, Bool.and_eq_true, decide_eq_true_eq]
    constructor
    · rintro ⟨⟨hk, hl⟩, ht, -⟩
      exact ⟨hk, Prod.ext hl ht.symm⟩
    · rintro ⟨hk, rfl⟩
      exact ⟨⟨hk, rfl⟩, rfl, hk ▸ hlt⟩
  rw [hcount]
  by_cases hk : a.1 = k
  · by_cases hmem : (l, a.2) ∈ rows
    · rw [if_pos ⟨hk, hmem⟩, ← List.count_eq_one_of_mem hnodup hmem, List.count]
      apply List.countP_congr
      intro b _
      simp [hk]
    · rw [if_neg fun h => hmem h.2, List.countP_eq_zero]
      intro b hb hsame
      exact hmem ((of_decide_eq_true hsame).2 ▸ hb)
  · rw [if_neg fun h => hk h.1, List.countP_eq_zero]
    intro b _ hsame
    exact hk (of_decide_eq_true hsame).1

theorem count_selfJoin (hnodup : rows.Nodup) {k l : κ} (hlt : k < l) :
    (selfJoin rows).count (k, l) = rows.countP fun a => a.1 = k ∧ (l, a.2) ∈ rows := by
  have hpart : ∀ as : List (κ × τ), (as.flatMap fun a =>
      (rows.filter fun b => a.2 = b.2 ∧ a.1 < b.1).map fun b => (a.1, b.1)).count (k, l) =
        as.countP fun a => a.1 = k ∧ (l, a.2) ∈ rows := by
    intro as
    induction as with
    | nil => rfl
    | cons a as ih =>
      rw [List.flatMap_cons, List.count_append, ih, count_joined hnodup hlt, List.countP_cons,
        Nat.add_comm]
      simp only [decide_eq_true_eq]
  exact hpart rows

omit [LT κ] [DecidableLT κ] in
theorem countP_common_comm (hnodup : rows.Nodup) (k l : κ) :
    (rows.countP fun a => a.1 = k ∧ (l, a.2) ∈ rows) =
      rows.countP fun a => a.1 = l ∧ (k, a.2) ∈ rows := by
  let times (k l : κ) : List τ := (rows.filter fun a => a.1 = k ∧ (l, a.2) ∈ rows).map Prod.snd
  have hmem (k l : κ) (t : τ) : t ∈ times k l ↔ (k, t) ∈ rows ∧ (l, t) ∈ rows := by
    simp [times, and_comm]
  have honce (k l : κ) : (times k l).Nodup := by
    apply List.Nodup.map_on _ (hnodup.filter _)
    intro a ha b hb hsame
    have hka := (of_decide_eq_true (List.mem_filter.1 ha).2).1
    have hkb := (of_decide_eq_true (List.mem_filter.1 hb).2).1
    exact Prod.ext (hka.trans hkb.symm) hsame
  have hperm : (times k l).Perm (times l k) := by
    rw [List.perm_ext_iff_of_nodup (honce k l) (honce l k)]
    intro t
    rw [hmem, hmem, and_comm]
  rw [List.countP_eq_length_filter, List.countP_eq_length_filter, ← List.length_map Prod.snd,
    ← List.length_map Prod.snd]
  exact hperm.length_eq

end Join
end Sluicio.Lib
