import Mathlib.Data.List.Sort
import Mathlib.Data.Prod.Lex

/-!
# Ordered reads

`orderBy key rows` is a query's rows under `ORDER BY key`: the sort is stable, so that
rows with one key keep the order of the table.
-/

namespace Sluicio.Lib

variable {ρ ρ' κ : Type*} [LinearOrder κ]

/-- `SELECT … FROM rows ORDER BY key`. -/
def orderBy (key : ρ → κ) (rows : List ρ) : List ρ :=
  rows.insertionSort fun a b => key a ≤ key b

theorem orderBy_perm (key : ρ → κ) (rows : List ρ) : (orderBy key rows).Perm rows :=
  List.perm_insertionSort _ rows

variable {rows' rows : List ρ} {key : ρ → κ}

@[simp] theorem mem_orderBy {r : ρ} : r ∈ orderBy key rows ↔ r ∈ rows :=
  (orderBy_perm key rows).mem_iff

theorem pairwise_orderBy (key : ρ → κ) (rows : List ρ) :
    (orderBy key rows).Pairwise fun a b => key a ≤ key b := by
  have htotal : Std.Total fun a b : ρ => key a ≤ key b := ⟨fun a b => le_total (key a) (key b)⟩
  have htrans : IsTrans ρ fun a b => key a ≤ key b := ⟨fun _ _ _ => le_trans⟩
  exact List.pairwise_insertionSort _ rows

/-- With a key that tells the rows apart, what is read in order tells just the rows, not their
order. -/
theorem orderBy_eq_iff_perm (hkey : Function.Injective key) :
    orderBy key rows = orderBy key rows' ↔ rows.Perm rows' := by
  constructor
  · intro h
    exact (orderBy_perm key rows).symm.trans (h ▸ orderBy_perm key rows')
  · intro h
    have hperm := (orderBy_perm key rows).trans (h.trans (orderBy_perm key rows').symm)
    refine hperm.eq_of_pairwise (fun r r' _ _ hle hge => ?_) (pairwise_orderBy key rows)
      (pairwise_orderBy key rows')
    exact hkey (le_antisymm hle hge)

variable {key' : ρ' → κ} {f : ρ → ρ'}

theorem map_orderBy_of_le_iff (hkey : ∀ r s, key r ≤ key s ↔ key' (f r) ≤ key' (f s))
    (rows : List ρ) : (orderBy key rows).map f = orderBy key' (rows.map f) :=
  List.map_insertionSort _ _ f rows fun r _ s _ => hkey r s

theorem map_orderBy (hkey : ∀ r, key' (f r) = key r) (rows : List ρ) :
    (orderBy key rows).map f = orderBy key' (rows.map f) :=
  map_orderBy_of_le_iff (fun r s => by rw [hkey, hkey]) rows

theorem orderBy_congr {key' : ρ → κ} (h : ∀ r ∈ rows, key r = key' r) :
    orderBy key rows = orderBy key' rows := by
  unfold orderBy
  have hsort := List.map_insertionSort (fun a b => key a ≤ key b) (fun a b => key' a ≤ key' b)
    id rows fun a ha b hb => by rw [h a ha, h b hb]; rfl
  simpa using hsort

/-- The sort is stable: two tables with one key column, row by row, are told apart by
their ordered reads. -/
theorem eq_of_orderBy_eq (hkeys : rows.map key = rows'.map key)
    (h : orderBy key rows = orderBy key rows') : rows = rows' := by
  have hlen : rows.length = rows'.length := by simpa using congrArg List.length hkeys
  have hpair : ∀ p ∈ rows.zip rows', key p.1 = key p.2 := by
    intro p hp
    obtain ⟨i, hi, rfl⟩ := List.mem_iff_getElem.1 hp
    have hget := congrArg (fun ks => ks[i]?) hkeys
    simp only [List.length_zip, lt_inf_iff] at hi
    simpa [hi.1, hi.2] using hget
  have hfst : (rows.zip rows').map Prod.fst = rows := List.map_fst_zip hlen.le
  have hsnd : (rows.zip rows').map Prod.snd = rows' := List.map_snd_zip hlen.ge
  -- Both ordered reads are read off one ordered read of the pairs.
  let pairs := orderBy (fun p : ρ × ρ => key p.1) (rows.zip rows')
  have hleft : pairs.map Prod.fst = orderBy key rows :=
    calc pairs.map Prod.fst = orderBy key ((rows.zip rows').map Prod.fst) :=
          map_orderBy (fun _ => rfl) (rows.zip rows')
      _ = orderBy key rows := by rw [hfst]
  have hright : pairs.map Prod.snd = orderBy key rows' :=
    calc pairs.map Prod.snd
        = (orderBy (fun p : ρ × ρ => key p.2) (rows.zip rows')).map Prod.snd :=
          congrArg (List.map Prod.snd) (orderBy_congr hpair)
      _ = orderBy key ((rows.zip rows').map Prod.snd) :=
          map_orderBy (fun _ => rfl) (rows.zip rows')
      _ = orderBy key rows' := by rw [hsnd]
  have hdiag : ∀ p ∈ pairs, p.1 = p.2 := by
    have hmaps := hleft.trans (h.trans hright.symm)
    exact fun p hp => List.map_inj_left.1 hmaps p hp
  calc rows = (rows.zip rows').map Prod.fst := hfst.symm
    _ = (rows.zip rows').map Prod.snd :=
        List.map_congr_left fun p hp => hdiag p (mem_orderBy.2 hp)
    _ = rows' := hsnd

theorem pairwise_lt_orderBy (hnodup : rows.Nodup)
    (hinj : ∀ r ∈ rows, ∀ s ∈ rows, key r = key s → r = s) :
    (orderBy key rows).Pairwise fun a b => key a < key b := by
  have hsorted : (orderBy key rows).Nodup := (orderBy_perm key rows).nodup_iff.2 hnodup
  apply List.Pairwise.imp_of_mem _ ((pairwise_orderBy key rows).and hsorted)
  intro a b ha hb hab
  apply lt_of_le_of_ne hab.1
  intro heq
  exact hab.2 (hinj a (mem_orderBy.1 ha) b (mem_orderBy.1 hb) heq)

theorem eq_of_pairwise_lt (h : rows.Pairwise fun a b => key a < key b)
    (h' : rows'.Pairwise fun a b => key a < key b) (hmem : ∀ r, r ∈ rows ↔ r ∈ rows') :
    rows = rows' := by
  have hnodup {rows : List ρ} (h : rows.Pairwise fun a b => key a < key b) : rows.Nodup := by
    apply h.imp
    intro a b hab heq
    rw [heq] at hab
    exact lt_irrefl _ hab
  apply List.Perm.eq_of_pairwise _ h h'
  · exact (List.perm_ext_iff_of_nodup (hnodup h) (hnodup h')).2 hmem
  · intro a b _ _ hab hba
    exact absurd hba (lt_asymm hab)

theorem exists_bounds {values : List κ} (h : values ≠ []) :
    ∃ lo ∈ values, ∃ hi ∈ values, ∀ v ∈ values, lo ≤ v ∧ v ≤ hi := by
  have hext (rel : κ → κ → Prop) (htotal : ∀ a b, rel a b ∨ rel b a)
      (htrans : ∀ {a b c}, rel a b → rel b c → rel a c) (v : κ) (vs : List κ) :
      ∃ m ∈ v :: vs, ∀ w ∈ v :: vs, rel m w := by
    induction vs generalizing v with
    | nil => exact ⟨v, List.mem_cons_self, by simpa using htotal v v⟩
    | cons v' vs ih =>
      obtain ⟨m, hm, hall⟩ := ih v'
      cases htotal v m with
      | inl hv =>
        refine ⟨v, List.mem_cons_self, List.forall_mem_cons.2 ⟨?_, fun w hw => ?_⟩⟩
        · simpa using htotal v v
        · exact htrans hv (hall w hw)
      | inr hv => exact ⟨m, List.mem_cons_of_mem v hm, List.forall_mem_cons.2 ⟨hv, hall⟩⟩
  obtain ⟨v, vs, rfl⟩ := List.exists_cons_of_ne_nil h
  obtain ⟨lo, hlo, hbottom⟩ := hext (· ≤ ·) le_total le_trans v vs
  obtain ⟨hi, hhi, htop⟩ := hext (· ≥ ·) (fun a b => le_total b a) ge_trans v vs
  exact ⟨lo, hlo, hi, hhi, fun w hw => ⟨hbottom w hw, htop w hw⟩⟩

/-- The first rows of an ordered read hold a row whose key has a property when some row with
such a key has few enough rows before it. -/
theorem exists_mem_take_orderBy {P : κ → Prop} {n : Nat} :
    (∃ r ∈ (orderBy key rows).take n, P (key r)) ↔
      ∃ r ∈ rows, P (key r) ∧ (rows.filter fun s => key s < key r).length < n := by
  have hlength (r : ρ) : (rows.filter fun s => key s < key r).length =
      ((orderBy key rows).filter fun s => key s < key r).length :=
    ((orderBy_perm key rows).symm.filter _).length_eq
  have hmem (r : ρ) : r ∈ rows ↔ r ∈ orderBy key rows := mem_orderBy.symm
  simp only [hlength, hmem]
  have hsorted := pairwise_orderBy key rows
  generalize orderBy key rows = sorted at hsorted
  have hsplit : ∀ r ∈ sorted.take n, ∀ s ∈ sorted.drop n, key r ≤ key s := by
    rw [← List.take_append_drop n sorted, List.pairwise_append] at hsorted
    exact hsorted.2.2
  constructor
  · intro h
    obtain ⟨r, hr, hP⟩ := h
    refine ⟨r, List.mem_of_mem_take hr, hP, ?_⟩
    have hrest : (sorted.drop n).filter (fun s => key s < key r) = [] := by
      rw [List.filter_eq_nil_iff]
      intro s hs hlt
      exact absurd (of_decide_eq_true hlt) (not_lt.2 (hsplit r hr s hs))
    have hfirst : ((sorted.take n).filter fun s => key s < key r).length <
        (sorted.take n).length := by
      rw [List.length_filter_lt_length_iff_exists]
      exact ⟨r, hr, by simp⟩
    have htake := List.length_take_le n sorted
    rw [← List.take_append_drop n sorted, List.filter_append, hrest, List.append_nil]
    omega
  · intro h
    obtain ⟨r, hr, hP, hcount⟩ := h
    by_contra hnone
    have hrest : r ∈ sorted.drop n := by
      rw [← List.take_append_drop n sorted, List.mem_append] at hr
      exact hr.resolve_left fun htake => hnone ⟨r, htake, hP⟩
    -- the first rows all have lower keys, and there are `n` of them
    have hall : ∀ s ∈ sorted.take n, key s < key r := by
      intro s hs
      apply lt_of_le_of_ne (hsplit s hs r hrest)
      intro heq
      exact hnone ⟨s, hs, heq ▸ hP⟩
    have hlong : n < sorted.length := by
      by_contra hshort
      rw [List.drop_of_length_le (not_lt.1 hshort)] at hrest
      exact List.not_mem_nil hrest
    have hfirst : (sorted.take n).filter (fun s => key s < key r) = sorted.take n :=
      List.filter_eq_self.2 fun s hs => decide_eq_true (hall s hs)
    have hle : ((sorted.take n).filter fun s => key s < key r).length ≤
        (sorted.filter fun s => key s < key r).length :=
      ((List.take_sublist n sorted).filter _).length_le
    rw [hfirst, List.length_take] at hle
    omega

/-! ## Rows that are in order -/

theorem isPrefix_filter_le (h : rows.Pairwise fun a b => key a ≤ key b) (hi : κ) :
    rows.filter (fun r => key r ≤ hi) <+: rows := by
  induction rows with
  | nil => exact List.prefix_rfl
  | cons r rows ih =>
    rw [List.pairwise_cons] at h
    by_cases hr : key r ≤ hi
    · rw [List.filter_cons_of_pos (by simpa using hr)]
      exact (List.prefix_cons_inj r).2 (ih h.2)
    have hnone : (r :: rows).filter (fun r => key r ≤ hi) = [] := by
      rw [List.filter_eq_nil_iff]
      intro s hs hle
      have hrs : key r ≤ key s := by
        cases List.mem_cons.1 hs with
        | inl heq => exact le_of_eq (congrArg key heq.symm)
        | inr hmem => exact h.1 s hmem
      exact hr (hrs.trans (of_decide_eq_true hle))
    rw [hnone]
    exact List.nil_prefix

theorem isSuffix_filter_ge (h : rows.Pairwise fun a b => key a ≤ key b) (lo : κ) :
    rows.filter (fun r => lo ≤ key r) <:+ rows := by
  induction rows with
  | nil => exact List.suffix_rfl
  | cons r rows ih =>
    rw [List.pairwise_cons] at h
    by_cases hr : lo ≤ key r
    · have hall : (r :: rows).filter (fun r => lo ≤ key r) = r :: rows := by
        rw [List.filter_eq_self]
        intro s hs
        cases List.mem_cons.1 hs with
        | inl heq => exact decide_eq_true (heq ▸ hr)
        | inr hmem => exact decide_eq_true (hr.trans (h.1 s hmem))
      simp only [hall, List.suffix_rfl]
    · rw [List.filter_cons_of_neg (by simpa using hr)]
      exact (ih h.2).trans (List.suffix_cons r rows)

theorem isInfix_filter_window (h : rows.Pairwise fun a b => key a ≤ key b) (lo hi : κ) :
    rows.filter (fun r => lo ≤ key r && key r ≤ hi) <:+: rows := by
  rw [← List.filter_filter]
  exact (isSuffix_filter_ge (h.sublist List.filter_sublist) lo).isInfix.trans
    (isPrefix_filter_le h hi).isInfix

/-- `sort.SliceStable(xs, less)`. -/
def sliceStable (less : ρ → ρ → Bool) (xs : List ρ) : List ρ :=
  xs.insertionSort fun a b => less b a = false

@[simp] theorem mem_sliceStable {less : ρ → ρ → Bool} {xs : List ρ} {x : ρ} :
    x ∈ sliceStable less xs ↔ x ∈ xs :=
  (List.perm_insertionSort _ xs).mem_iff

end Sluicio.Lib
