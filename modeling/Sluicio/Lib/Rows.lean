import Mathlib.Data.List.Nodup
import Mathlib.Data.List.Pairwise

/-!
# Tables as lists of rows

A database table is a list of rows.  `updateWhere p f` is the statement
`UPDATE … SET f WHERE p`: it rewrites the rows that satisfy `p` and leaves the
others, and the order, alone.
-/

namespace Sluicio.Lib

variable {ρ κ : Type*}

/-- `UPDATE rows SET f WHERE p`. -/
def updateWhere (p : ρ → Bool) (f : ρ → ρ) (rows : List ρ) : List ρ :=
  rows.map fun r => if p r then f r else r

variable {p q : ρ → Bool} {new r : ρ} {rows : List ρ} {f : ρ → ρ}

theorem mem_updateWhere :
    r ∈ updateWhere p f rows ↔ ∃ r₀ ∈ rows, (p r₀ ∧ r = f r₀) ∨ (p r₀ = false ∧ r = r₀) := by
  unfold updateWhere
  rw [List.mem_map]
  constructor
  · rintro ⟨r₀, hr₀, rfl⟩
    refine ⟨r₀, hr₀, ?_⟩
    cases hp : p r₀ <;> simp
  · rintro ⟨r₀, hr₀, ⟨hp, rfl⟩ | ⟨hp, rfl⟩⟩
    · exact ⟨r₀, hr₀, by simp [hp]⟩
    · exact ⟨r, hr₀, by simp [hp]⟩

theorem mem_updateWhere_of_not (hr : r ∈ rows) (hp : p r = false) : r ∈ updateWhere p f rows :=
  mem_updateWhere.2 ⟨r, hr, Or.inr ⟨hp, rfl⟩⟩

theorem mem_updateWhere_of (hr : r ∈ rows) (hp : p r) : f r ∈ updateWhere p f rows :=
  mem_updateWhere.2 ⟨r, hr, Or.inl ⟨hp, rfl⟩⟩

theorem map_updateWhere {key : ρ → κ} (hkey : ∀ r, key (f r) = key r) (rows : List ρ) :
    (updateWhere p f rows).map key = rows.map key := by
  unfold updateWhere
  rw [List.map_map]
  refine List.map_congr_left fun r _ => ?_
  by_cases hp : p r = true <;> simp [hp, hkey]

theorem nodup_updateWhere {key : ρ → κ} (hkey : ∀ r, key (f r) = key r) (h : (rows.map key).Nodup) :
    ((updateWhere p f rows).map key).Nodup := by
  rw [map_updateWhere hkey]
  exact h

theorem eq_of_key_eq {key : ρ → κ} (h : (rows.map key).Nodup) {r' : ρ} (hr : r ∈ rows)
    (hr' : r' ∈ rows) (hk : key r = key r') : r = r' :=
  List.inj_on_of_nodup_map h hr hr' hk

theorem find?_key_eq_some [DecidableEq κ] {key : ρ → κ} (h : (rows.map key).Nodup) {k : κ} :
    (rows.find? fun r' => key r' = k) = some r ↔ r ∈ rows ∧ key r = k := by
  constructor
  · intro hr
    exact ⟨List.mem_of_find?_eq_some hr, by simpa using List.find?_some hr⟩
  · rintro ⟨hr, rfl⟩
    cases hf : rows.find? fun r' => key r' = key r with
    | none => simpa using List.find?_eq_none.1 hf r hr
    | some r' =>
      have hk : key r' = key r := by simpa using List.find?_some hf
      rw [eq_of_key_eq h (List.mem_of_find?_eq_some hf) hr hk]

theorem find?_updateWhere [DecidableEq κ] {key : ρ → κ} (hkey : ∀ r, key (f r) = key r)
    (rows : List ρ) (k : κ) :
    ((updateWhere p f rows).find? fun r => key r = k) =
      (rows.find? fun r => key r = k).map fun r => if p r then f r else r := by
  have hsame : ∀ r, key (if p r then f r else r) = key r := by
    intro r
    split <;> simp [hkey]
  unfold updateWhere
  rw [List.find?_map]
  simp only [Function.comp_def, hsame]

theorem find?_updateWhere_self (hf : ∀ r, p r → p (f r)) (rows : List ρ) :
    (updateWhere p f rows).find? p = (rows.find? p).map f := by
  unfold updateWhere
  induction rows with
  | nil => rfl
  | cons r rows ih =>
    by_cases hr : p r = true
    · simp [hr, hf r hr]
    · have hr' : p r = false := by simpa using hr
      simp [hr', ih]

theorem find?_updateWhere_other (hf : ∀ r, p r → q r = false ∧ q (f r) = false) (rows : List ρ) :
    (updateWhere p f rows).find? q = rows.find? q := by
  unfold updateWhere
  induction rows with
  | nil => rfl
  | cons r rows ih =>
    by_cases hr : p r = true
    · simp [hr, hf r hr, ih]
    · have hr' : p r = false := by simpa using hr
      simp only [List.map_cons, hr', Bool.false_eq_true, if_false, List.find?_cons]
      rw [ih]

theorem find?_filter_other (h : ∀ r, q r → p r = false) (rows : List ρ) :
    (rows.filter fun r => !p r).find? q = rows.find? q := by
  induction rows with
  | nil => rfl
  | cons r rows ih =>
    by_cases hr : p r = true
    · have hq : q r = false := by
        rw [Bool.eq_false_iff]
        intro hq
        rw [h r hq] at hr
        cases hr
      simp [hr, hq, ih]
    · have hr' : p r = false := by simpa using hr
      simp only [List.filter_cons, hr', Bool.not_false, if_true, List.find?_cons, ih]

theorem find?_filter_key [DecidableEq κ] {key : ρ → κ} (h : (rows.map key).Nodup) (k : κ) :
    ((rows.filter p).find? fun r => key r = k) = (rows.find? fun r => key r = k).filter p := by
  have hsub : ((rows.filter p).map key).Nodup := h.sublist (List.filter_sublist.map key)
  refine Option.ext fun r => ?_
  rw [find?_key_eq_some hsub, List.mem_filter, Option.filter_eq_some_iff, find?_key_eq_some h]
  exact and_right_comm

/-! ## Counting rows -/

theorem countP_map_le (hle : ∀ r ∈ rows, p (f r) → p r) :
    (rows.map f).countP p ≤ rows.countP p := by
  rw [List.countP_map]
  exact List.countP_mono_left hle

theorem countP_map_lt (hle : ∀ r ∈ rows, p (f r) → p r) (hr : r ∈ rows) (hp : p r)
    (hnot : p (f r) = false) : (rows.map f).countP p < rows.countP p := by
  induction rows with
  | nil => nomatch hr
  | cons r' rows ih =>
    have htail : ∀ r ∈ rows, p (f r) → p r :=
      fun r hr => hle r (List.mem_cons_of_mem r' hr)
    rw [List.map_cons, List.countP_cons, List.countP_cons]
    cases List.mem_cons.1 hr with
    | inl heq =>
      subst heq
      have := countP_map_le htail
      simp only [hp, hnot, if_true, Bool.false_eq_true, if_false]
      omega
    | inr hmem =>
      have hlt := ih htail hmem
      have hhead := hle r' List.mem_cons_self
      by_cases hfr : p (f r') = true
      · simp only [hfr, hhead hfr, if_true]
        omega
      · rw [if_neg hfr]
        omega

/-- `INSERT … ON CONFLICT DO UPDATE`: the rows of a kind are rewritten, or one is added. -/
def upsert (p : ρ → Bool) (f : ρ → ρ) (new : ρ) (rows : List ρ) : List ρ :=
  if rows.any p then updateWhere p f rows else rows ++ [new]

theorem find?_upsert_self (hf : ∀ r, p r → p (f r)) (hnew : p new) (rows : List ρ) :
    (upsert p f new rows).find? p = some (((rows.find? p).map f).getD new) := by
  unfold upsert
  split
  · next hany =>
    obtain ⟨r, hr, hp⟩ := List.any_eq_true.1 hany
    obtain ⟨r', hr'⟩ := Option.isSome_iff_exists.1 (List.find?_isSome.2 ⟨r, hr, hp⟩)
    rw [find?_updateWhere_self hf, hr']
    rfl
  · next hnone =>
    have habsent : rows.find? p = none := by
      rw [List.find?_eq_none]
      intro r hr hp
      exact hnone (List.any_eq_true.2 ⟨r, hr, hp⟩)
    rw [List.find?_append, habsent]
    simp [hnew]

theorem find?_upsert_other (hf : ∀ r, p r → q r = false ∧ q (f r) = false) (hnew : q new = false)
    (rows : List ρ) : (upsert p f new rows).find? q = rows.find? q := by
  unfold upsert
  split
  · exact find?_updateWhere_other hf rows
  · rw [List.find?_append]
    simp [hnew]

theorem nodup_upsert [DecidableEq κ] {key : ρ → κ} {k : κ} (hkey : ∀ r, key (f r) = key r)
    (hnew : key new = k) (h : (rows.map key).Nodup) :
    ((upsert (fun r => key r = k) f new rows).map key).Nodup := by
  unfold upsert
  split
  · exact nodup_updateWhere hkey h
  · next hnone =>
    rw [List.map_append, List.map_singleton, List.nodup_append_comm, List.singleton_append,
      List.nodup_cons]
    refine ⟨fun hmem => hnone ?_, h⟩
    obtain ⟨r, hr, hk⟩ := List.mem_map.1 hmem
    exact List.any_eq_true.2 ⟨r, hr, decide_eq_true (hk.trans hnew)⟩

theorem lookup_eq_some_of_nodup {κ α : Type*} [BEq κ] [LawfulBEq κ] {m : List (κ × α)}
    (hm : (m.map Prod.fst).Nodup) {k : κ} {a : α} : m.lookup k = some a ↔ (k, a) ∈ m := by
  induction m with
  | nil => simp
  | cons entry m ih =>
    obtain ⟨k', a'⟩ := entry
    simp only [List.map_cons, List.nodup_cons] at hm
    rw [List.lookup_cons]
    by_cases hk : k = k'
    · subst hk
      have hnot : (k, a) ∉ m := fun h => hm.1 (List.mem_map_of_mem h)
      simp [hnot, eq_comm]
    · have hbeq : (k == k') = false := by simpa using hk
      simp [hbeq, ih hm.2, hk]

/-- A map made of the entries of some items, their keys all different, has at the key of one
what its entry says. -/
theorem lookup_filterMap_of_nodup {κ α : Type*} [BEq κ] [LawfulBEq κ] {key : ρ → κ}
    {entry : ρ → Option (κ × α)} (hkey : ∀ r e, entry r = some e → e.1 = key r) {items : List ρ}
    (hnodup : (items.map key).Nodup) (hr : r ∈ items) :
    (items.filterMap entry).lookup (key r) = (entry r).map Prod.snd := by
  have hkeys : ((items.filterMap entry).map Prod.fst).Nodup := by
    refine hnodup.sublist ?_
    clear hnodup hr
    induction items with
    | nil => exact .slnil
    | cons s items ih =>
      cases hs : entry s with
      | none =>
        rw [List.filterMap_cons_none hs]
        exact ih.cons _
      | some e =>
        rw [List.filterMap_cons_some hs, List.map_cons, List.map_cons, hkey s e hs]
        exact ih.cons_cons _
  cases he : entry r with
  | some e =>
    rw [Option.map_some, lookup_eq_some_of_nodup hkeys, List.mem_filterMap]
    exact ⟨r, hr, by rw [he, ← hkey r e he]⟩
  | none =>
    rw [Option.map_none, List.lookup_eq_none_iff]
    intro e hmem
    obtain ⟨s, hs, hentry⟩ := List.mem_filterMap.1 hmem
    rw [hkey s e hentry, bne_iff_ne]
    intro heq
    -- the item with the entry would be the one without
    rw [List.inj_on_of_nodup_map hnodup hs hr heq.symm, he] at hentry
    cases hentry

end Sluicio.Lib
