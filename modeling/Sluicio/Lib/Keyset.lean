import Mathlib.Data.List.Chain
import Sluicio.Lib.Ordered

/-!
# Keyset paging

A table is read in pages, largest key first: a page is what comes after a key, up to a limit,
and the next one is asked for with the key of its last row.  The table may have changed in
between, and with it the key of a row.  The pages are in order whatever happens; a row is on
exactly one of them if no change takes it over the key that the next page is asked for with.
-/

namespace Sluicio.Lib

variable {ρ κ ι : Type} [LinearOrder κ]

def comesAfter (key : ρ → κ) (cursor : Option κ) (r : ρ) : Bool :=
  match cursor with
  | none => true
  | some k => key r < k

/-- The rows after the cursor, in the order of the pages. -/
def keysetRows (key : ρ → κ) (cursor : Option κ) (rows : List ρ) : List ρ :=
  orderBy (fun r => OrderDual.toDual (key r)) (rows.filter (comesAfter key cursor))

/-- `WHERE key < cursor ORDER BY key DESC LIMIT limit`. -/
def keysetPage (key : ρ → κ) (limit : Nat) (cursor : Option κ) (rows : List ρ) : List ρ :=
  (keysetRows key cursor rows).take limit

section Page

variable {key : ρ → κ} {limit : Nat} {cursor : Option κ} {rows : List ρ} {r : ρ}

theorem mem_keysetRows : r ∈ keysetRows key cursor rows ↔ r ∈ rows ∧ comesAfter key cursor r := by
  rw [keysetRows, mem_orderBy, List.mem_filter]

theorem keysetRows_perm : (keysetRows key cursor rows).Perm (rows.filter (comesAfter key cursor)) :=
  orderBy_perm _ _

theorem keysetRows_pairwise (hkey : (rows.map key).Nodup) :
    (keysetRows key cursor rows).Pairwise fun a b => key b < key a := by
  have hle : (keysetRows key cursor rows).Pairwise fun a b => key b ≤ key a :=
    (pairwise_orderBy (fun r => OrderDual.toDual (key r)) _).imp fun h =>
      OrderDual.toDual_le_toDual.mp h
  have hnodup : ((keysetRows key cursor rows).map key).Nodup :=
    (keysetRows_perm.map key).nodup_iff.mpr (hkey.sublist (List.filter_sublist.map key))
  rw [List.Nodup, List.pairwise_map] at hnodup
  exact (hle.and hnodup).imp fun h => lt_of_le_of_ne h.1 (Ne.symm h.2)

theorem mem_of_mem_keysetPage (h : r ∈ keysetPage key limit cursor rows) :
    r ∈ rows ∧ comesAfter key cursor r :=
  mem_keysetRows.mp (List.mem_of_mem_take h)

theorem keysetPage_pairwise (hkey : (rows.map key).Nodup) :
    (keysetPage key limit cursor rows).Pairwise fun a b => key b < key a :=
  (keysetRows_pairwise hkey).sublist (List.take_sublist _ _)

theorem mem_keysetPage_of_short (hshort : (keysetPage key limit cursor rows).length < limit) :
    r ∈ keysetPage key limit cursor rows ↔ r ∈ rows ∧ comesAfter key cursor r := by
  have hlength : (keysetRows key cursor rows).length ≤ limit := by
    rw [keysetPage, List.length_take] at hshort
    omega
  rw [keysetPage, List.take_of_length_le hlength, mem_keysetRows]

theorem mem_keysetPage_of_last (hkey : (rows.map key).Nodup) {last : ρ}
    (hlast : (keysetPage key limit cursor rows).getLast? = some last) :
    r ∈ keysetPage key limit cursor rows ↔
      r ∈ rows ∧ comesAfter key cursor r ∧ key last ≤ key r := by
  have hmemLast : last ∈ keysetPage key limit cursor rows := List.mem_of_getLast? hlast
  have hsplit : (keysetRows key cursor rows).Pairwise fun a b => key b < key a :=
    keysetRows_pairwise hkey
  rw [← List.take_append_drop limit (keysetRows key cursor rows), List.pairwise_append] at hsplit
  constructor
  · intro hr
    have hle : key last ≤ key r := by
      obtain ⟨front, hfront⟩ := List.getLast?_eq_some_iff.mp hlast
      have hpage : (keysetPage key limit cursor rows).Pairwise fun a b => key b < key a :=
        keysetPage_pairwise hkey
      rw [hfront, List.pairwise_append] at hpage
      rw [hfront, List.mem_append, List.mem_singleton] at hr
      cases hr with
      | inl hin => exact (hpage.2.2 r hin last (List.mem_singleton.mpr rfl)).le
      | inr heq => rw [heq]
    have hrow := mem_of_mem_keysetPage hr
    exact ⟨hrow.1, hrow.2, hle⟩
  · intro ⟨hrow, hafter, hle⟩
    have hmem := mem_keysetRows.mpr ⟨hrow, hafter⟩
    rw [← List.take_append_drop limit (keysetRows key cursor rows), List.mem_append] at hmem
    cases hmem with
    | inl htake => exact htake
    | inr hdrop => exact absurd (hsplit.2.2 last hmemLast r hdrop) (not_lt_of_ge hle)

end Page

/-! ## Page after page -/

/-- The calls, each with its cursor and with the table as it finds it: a full page is followed
by the one that comes after its last row. -/
inductive KeysetRun (key : ρ → κ) (limit : Nat) : List (Option κ × List ρ) → Prop
  | last {cursor : Option κ} {rows : List ρ}
      (hshort : (keysetPage key limit cursor rows).length < limit) :
      KeysetRun key limit [(cursor, rows)]
  | more {cursor : Option κ} {rows rows' : List ρ} {last : ρ} {calls : List (Option κ × List ρ)}
      (hlast : (keysetPage key limit cursor rows).getLast? = some last)
      (hrun : KeysetRun key limit ((some (key last), rows') :: calls)) :
      KeysetRun key limit ((cursor, rows) :: (some (key last), rows') :: calls)

/-- The rows of all pages, one page after the other. -/
def keysetResult (key : ρ → κ) (limit : Nat) (calls : List (Option κ × List ρ)) : List ρ :=
  calls.flatMap fun c => keysetPage key limit c.1 c.2

/-- Between two calls the row named `m` stays on its side of the cursor. -/
def StaysBeside (key : ρ → κ) (name : ρ → ι) (m : ι) (before after : Option κ × List ρ) : Prop :=
  ∀ r ∈ before.2, ∀ r' ∈ after.2, name r = m → name r' = m →
    (comesAfter key after.1 r ↔ comesAfter key after.1 r')

section Run

variable {key : ρ → κ} {name : ρ → ι} {limit : Nat} {calls : List (Option κ × List ρ)}

/-- **The pages are in order**, and what a run reads comes after its first cursor. -/
theorem KeysetRun.pairwise (h : KeysetRun key limit calls)
    (hkey : ∀ c ∈ calls, (c.2.map key).Nodup) :
    (keysetResult key limit calls).Pairwise (fun a b => key b < key a) ∧
      ∀ c ∈ calls.head?, ∀ r ∈ keysetResult key limit calls, comesAfter key c.1 r := by
  induction h with
  | @last cursor rows hshort =>
    simp only [keysetResult, List.flatMap_cons, List.flatMap_nil, List.append_nil,
      List.head?_cons, Option.mem_some_iff, forall_eq']
    constructor
    · exact keysetPage_pairwise (hkey _ List.mem_cons_self)
    · intro r hr
      exact (mem_of_mem_keysetPage hr).2
  | @more cursor rows rows' last calls hlast hrun ih =>
    have hrows : (rows.map key).Nodup := hkey (cursor, rows) List.mem_cons_self
    obtain ⟨hpairwise, hafter⟩ := ih fun c hc => hkey c (List.mem_cons_of_mem _ hc)
    have hbelow : ∀ r ∈ keysetResult key limit ((some (key last), rows') :: calls),
        key r < key last := by
      intro r hr
      simpa [comesAfter] using hafter _ rfl r hr
    have hlastAfter : comesAfter key cursor last :=
      (mem_of_mem_keysetPage (List.mem_of_getLast? hlast)).2
    rw [keysetResult, List.flatMap_cons]
    constructor
    · rw [List.pairwise_append]
      refine ⟨keysetPage_pairwise hrows, hpairwise, ?_⟩
      intro a ha b hb
      have hle := ((mem_keysetPage_of_last hrows hlast).mp ha).2.2
      exact lt_of_lt_of_le (hbelow b hb) hle
    · intro c hc r hr
      obtain rfl : (cursor, rows) = c := by simpa using hc
      rw [List.mem_append] at hr
      cases hr with
      | inl hpage => exact (mem_of_mem_keysetPage hpage).2
      | inr hrest =>
        have hlt := hbelow r hrest
        cases cursor with
        | none => rfl
        | some k =>
          simp only [comesAfter, decide_eq_true_eq] at hlastAfter ⊢
          exact hlt.trans hlastAfter

section Count

variable [DecidableEq ι]

variable {r : ρ} {rows : List ρ}

theorem count_keysetPage (key : ρ → κ) (limit : Nat) (cursor : Option κ)
    (hname : (rows.map name).Nodup) (hr : r ∈ rows) :
    (r ∈ keysetPage key limit cursor rows →
        ((keysetPage key limit cursor rows).map name).count (name r) = 1) ∧
      (r ∉ keysetPage key limit cursor rows →
        ((keysetPage key limit cursor rows).map name).count (name r) = 0) := by
  have hnodup : ((keysetPage key limit cursor rows).map name).Nodup :=
    ((keysetRows_perm.map name).nodup_iff.mpr
      (hname.sublist (List.filter_sublist.map name))).sublist ((List.take_sublist _ _).map name)
  constructor
  · intro hin
    exact List.count_eq_one_of_mem hnodup (List.mem_map_of_mem hin)
  · intro hout
    apply List.count_eq_zero_of_not_mem
    intro hmem
    obtain ⟨r', hr', heq⟩ := List.mem_map.mp hmem
    have hsame : r' = r := List.inj_on_of_nodup_map hname (mem_of_mem_keysetPage hr').1 hr heq
    exact hout (hsame ▸ hr')

theorem count_of_short {cursor : Option κ} (hname : (rows.map name).Nodup)
    (hshort : (keysetPage key limit cursor rows).length < limit) (hr : r ∈ rows) :
    ((keysetPage key limit cursor rows).map name).count (name r) =
      if comesAfter key cursor r = true then 1 else 0 := by
  have hcount := count_keysetPage key limit cursor hname hr
  rw [mem_keysetPage_of_short hshort] at hcount
  by_cases hafter : comesAfter key cursor r = true
  · rw [if_pos hafter]
    exact hcount.1 ⟨hr, hafter⟩
  · rw [if_neg hafter]
    exact hcount.2 fun hin => hafter hin.2

theorem count_of_last {cursor : Option κ} (hkey : (rows.map key).Nodup)
    (hname : (rows.map name).Nodup) {last : ρ}
    (hlast : (keysetPage key limit cursor rows).getLast? = some last) (hr : r ∈ rows) :
    ((keysetPage key limit cursor rows).map name).count (name r) +
        (if comesAfter key (some (key last)) r = true then 1 else 0) =
      if comesAfter key cursor r = true then 1 else 0 := by
  have hcount := count_keysetPage key limit cursor hname hr
  rw [mem_keysetPage_of_last hkey hlast] at hcount
  have hlastAfter : comesAfter key cursor last :=
    (mem_of_mem_keysetPage (List.mem_of_getLast? hlast)).2
  by_cases hbelow : key r < key last
  · -- it is left for a later page
    have hsome : comesAfter key (some (key last)) r := by simpa [comesAfter]
    have hafter : comesAfter key cursor r := by
      cases cursor with
      | none => rfl
      | some k =>
        simp only [comesAfter, decide_eq_true_eq] at hlastAfter ⊢
        exact hbelow.trans hlastAfter
    rw [if_pos hsome, if_pos hafter, hcount.2 fun hin => not_lt_of_ge hin.2.2 hbelow]
  · -- no later page has it
    have hnone : ¬comesAfter key (some (key last)) r := by simpa [comesAfter] using hbelow
    rw [if_neg hnone, Nat.add_zero]
    by_cases hafter : comesAfter key cursor r = true
    · rw [if_pos hafter]
      exact hcount.1 ⟨hr, hafter, not_lt.mp hbelow⟩
    · rw [if_neg hafter]
      exact hcount.2 fun hin => hafter hin.2.1

/-- A row that every call finds, on its side of the next cursor, is read once if it comes after
the first cursor, and is not read otherwise. -/
theorem KeysetRun.count (h : KeysetRun key limit calls) {m : ι}
    (hkey : ∀ c ∈ calls, (c.2.map key).Nodup) (hname : ∀ c ∈ calls, (c.2.map name).Nodup)
    (hall : ∀ c ∈ calls, ∃ r ∈ c.2, name r = m) (hstays : calls.IsChain (StaysBeside key name m)) :
    ∀ c ∈ calls.head?, ∀ r ∈ c.2, name r = m →
      ((keysetResult key limit calls).map name).count m =
        if comesAfter key c.1 r = true then 1 else 0 := by
  induction h with
  | @last cursor rows hshort =>
    intro c hc r hr hm
    obtain rfl : (cursor, rows) = c := by simpa using hc
    simp only [keysetResult, List.flatMap_cons, List.flatMap_nil, List.append_nil]
    rw [← hm]
    exact count_of_short (hname _ List.mem_cons_self) hshort hr
  | @more cursor rows rows' last calls hlast hrun ih =>
    intro c hc r hr hm
    obtain rfl : (cursor, rows) = c := by simpa using hc
    obtain ⟨r', hr', hm'⟩ := hall (some (key last), rows') (by simp)
    have hside := (List.isChain_cons_cons.mp hstays).1 r hr r' hr' hm hm'
    have hrest := ih (fun c hc => hkey c (List.mem_cons_of_mem _ hc))
      (fun c hc => hname c (List.mem_cons_of_mem _ hc))
      (fun c hc => hall c (List.mem_cons_of_mem _ hc))
      (List.isChain_cons_cons.mp hstays).2 _ rfl r' hr' hm'
    have hpage := count_of_last (hkey _ List.mem_cons_self) (hname _ List.mem_cons_self) hlast hr
    rw [keysetResult, List.flatMap_cons, List.map_append, List.count_append]
    change _ + ((keysetResult key limit ((some (key last), rows') :: calls)).map name).count m = _
    rw [hrest, ← hpage, hm]
    simp only [hside]

/-- **Paging is exact** for what stays beside the cursors. -/
theorem KeysetRun.count_eq_one (h : KeysetRun key limit calls) {m : ι}
    (hfirst : ∀ c ∈ calls.head?, c.1 = none) (hkey : ∀ c ∈ calls, (c.2.map key).Nodup)
    (hname : ∀ c ∈ calls, (c.2.map name).Nodup) (hall : ∀ c ∈ calls, ∃ r ∈ c.2, name r = m)
    (hstays : calls.IsChain (StaysBeside key name m)) :
    ((keysetResult key limit calls).map name).count m = 1 := by
  cases calls with
  | nil => cases h
  | cons c calls =>
    obtain ⟨r, hr, hm⟩ := hall c List.mem_cons_self
    have hcount := h.count hkey hname hall hstays c rfl r hr hm
    rw [hfirst c rfl] at hcount
    exact hcount

end Count

end Run

end Sluicio.Lib
