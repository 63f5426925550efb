import Mathlib.Data.List.Induction

/-!
# Hash chains

The entries of a chain carry their own hash and the hash of the entry before them.  An
entry whose hash is `blank` is not chained: nothing about it is checked, and the entry
behind it starts again from `blank`.

`Linked seed es` is what a walk over the entries from `seed` checks.  Appending an entry
that names the tip keeps it, and so does dropping the first entries when the walk then
starts from the hash of the last one dropped.
-/

namespace Sluicio.Lib

/-- How the entries of a chain are read: their own hash, the previous hash, and the hash
recomputed from the previous hash and the content. -/
structure HashChain (α H : Type*) where
  hash : α → H
  prev : α → H
  digest : H → α → H
  blank : H

namespace HashChain

variable {α H : Type*} (c : HashChain α H)

/-- What is checked of an entry that follows the hash `seed`. -/
def LinksTo (seed : H) (e : α) : Prop :=
  c.hash e = c.blank ∨ c.prev e = seed ∧ c.digest (c.prev e) e = c.hash e

def Linked : H → List α → Prop
  | _, [] => True
  | seed, e :: es => c.LinksTo seed e ∧ Linked (c.hash e) es

/-- The hash a further entry has to name. -/
def tip (seed : H) : List α → H
  | [] => seed
  | e :: es => tip (c.hash e) es

@[simp] theorem linked_nil (seed : H) : c.Linked seed [] := trivial

@[simp] theorem linked_cons (seed : H) (e : α) (es : List α) :
    c.Linked seed (e :: es) ↔ c.LinksTo seed e ∧ c.Linked (c.hash e) es := Iff.rfl

@[simp] theorem tip_nil (seed : H) : c.tip seed [] = seed := rfl

@[simp] theorem tip_cons (seed : H) (e : α) (es : List α) :
    c.tip seed (e :: es) = c.tip (c.hash e) es := rfl

theorem tip_append (seed : H) (es fs : List α) :
    c.tip seed (es ++ fs) = c.tip (c.tip seed es) fs := by
  induction es generalizing seed with
  | nil => rfl
  | cons e es ih => exact ih (c.hash e)

theorem tip_concat (seed : H) (es : List α) (e : α) : c.tip seed (es ++ [e]) = c.hash e := by
  rw [tip_append]
  rfl

theorem tip_eq_getLast? (seed : H) (es : List α) :
    c.tip seed es = (es.getLast?.map c.hash).getD seed := by
  cases es using List.reverseRecOn with
  | nil => rfl
  | append_singleton es e => rw [tip_concat, List.getLast?_concat]; rfl

theorem linked_append (seed : H) (es fs : List α) :
    c.Linked seed (es ++ fs) ↔ c.Linked seed es ∧ c.Linked (c.tip seed es) fs := by
  induction es generalizing seed with
  | nil => simp
  | cons e es ih => simp [ih, and_assoc]

variable {seed : H} {es : List α}

/-- Behind entries that are not chained a walk starts from `blank`. -/
theorem tip_of_blank (hes : ∀ e ∈ es, c.hash e = c.blank) (hne : es ≠ []) :
    c.tip seed es = c.blank := by
  rw [tip_eq_getLast?, List.getLast?_eq_some_getLast hne]
  exact hes _ (List.getLast_mem hne)

theorem linked_of_blank (hes : ∀ e ∈ es, c.hash e = c.blank) : c.Linked seed es := by
  induction es generalizing seed with
  | nil => trivial
  | cons e es ih =>
    constructor
    · exact Or.inl (hes e List.mem_cons_self)
    · exact ih fun e' he' => hes e' (List.mem_cons_of_mem e he')

theorem linked_of_head_blank {seed' : H} (hhead : ∀ e ∈ es.head?, c.hash e = c.blank)
    (h : c.Linked seed es) : c.Linked seed' es := by
  cases es with
  | nil => trivial
  | cons e es => exact ⟨Or.inl (hhead e rfl), h.2⟩

/-! ## Chains put together from the entries of another -/

/-- Every entry names the hash before it. -/
def Follows : H → List α → Prop
  | _, [] => True
  | seed, e :: es => c.prev e = seed ∧ Follows (c.hash e) es

variable {c}

theorem Follows.prev_eq {fs : List α} {e : α} (h : c.Follows seed (es ++ e :: fs)) :
    c.prev e = c.tip seed es := by
  induction es generalizing seed with
  | nil => exact h.1
  | cons d es ih => exact ih h.2

theorem follows_append {fs : List α} :
    c.Follows seed (es ++ fs) ↔ c.Follows seed es ∧ c.Follows (c.tip seed es) fs := by
  induction es generalizing seed with
  | nil => simp [Follows]
  | cons e es ih => simp [Follows, ih, and_assoc]

theorem Linked.checked (h : c.Linked seed es) {e : α} (he : e ∈ es) (hne : c.hash e ≠ c.blank) :
    c.digest (c.prev e) e = c.hash e := by
  induction es generalizing seed with
  | nil => exact absurd he List.not_mem_nil
  | cons d es ih =>
    rcases List.mem_cons.mp he with rfl | he
    · exact (h.1.resolve_left hne).2
    · exact ih h.2 he

theorem tip_mem (hne : es ≠ []) : c.tip seed es ∈ es.map c.hash := by
  rw [tip_eq_getLast?, List.getLast?_eq_some_getLast hne]
  exact List.mem_map_of_mem (List.getLast_mem hne)

/-- A genuine chain `rs` from `seed`: each entry names the one before it, and `seed`, `blank`
and the hashes of the entries are all different, except that `seed` may be `blank`. -/
structure Genuine (c : HashChain α H) (seed : H) (rs : List α) : Prop where
  follows : c.Follows seed rs
  nodup : (rs.map c.hash).Nodup
  seed_notMem : seed ∉ rs.map c.hash
  blank_notMem : c.blank ∉ rs.map c.hash

/-- A chain from `blank` is genuine as soon as a hash fixes the previous hash: a hash that
came twice would have the one before it come twice, down to the first. -/
theorem genuine_of_follows {rs : List α} (hfollows : c.Follows c.blank rs)
    (hblank : c.blank ∉ rs.map c.hash)
    (hfix : ∀ r ∈ rs, ∀ r' ∈ rs, c.hash r = c.hash r' → c.prev r = c.prev r') :
    c.Genuine c.blank rs := by
  refine ⟨hfollows, ?_, hblank, hblank⟩
  induction rs using List.reverseRecOn with
  | nil => exact List.nodup_nil
  | append_singleton rs r ih =>
    have hblank' : c.blank ∉ rs.map c.hash := by
      intro hmem
      apply hblank
      rw [List.map_append]
      exact List.mem_append_left _ hmem
    have hnodup := ih (follows_append.mp hfollows).1 hblank'
      fun a ha b hb => hfix a (List.mem_append_left _ ha) b (List.mem_append_left _ hb)
    rw [List.map_append, List.map_singleton, List.nodup_append]
    refine ⟨hnodup, by simp, ?_⟩
    intro h hh h' hh' heq
    obtain ⟨r', hr', rfl⟩ := List.mem_map.mp hh
    rw [List.mem_singleton.mp hh'] at heq
    have hprev := hfix r' (List.mem_append_left _ hr') r (by simp) heq
    obtain ⟨before, after, hsplit⟩ := List.append_of_mem hr'
    have hrs : c.Follows c.blank (before ++ r' :: after) :=
      hsplit ▸ (follows_append.mp hfollows).1
    have hlast : c.tip c.blank before ∈ (r' :: after).map c.hash := by
      rw [← hrs.prev_eq, hprev, hfollows.prev_eq, hsplit, tip_append]
      exact tip_mem (by simp)
    rw [hsplit, List.map_append] at hnodup hblank'
    by_cases hbefore : before = []
    · rw [hbefore] at hlast
      exact hblank' (List.mem_append_right _ hlast)
    · exact (List.nodup_append.mp hnodup).2.2 _ (tip_mem hbefore) _ hlast rfl

theorem Genuine.drop {gone rest : List α} (h : c.Genuine seed (gone ++ rest)) :
    c.Genuine (c.tip seed gone) rest := by
  have hnodup := h.nodup
  rw [List.map_append] at hnodup
  have hblank := h.blank_notMem
  rw [List.map_append] at hblank
  constructor
  · exact (follows_append.mp h.follows).2
  · exact (List.nodup_append.mp hnodup).2.1
  · intro hmem
    by_cases hgone : gone = []
    · apply h.seed_notMem
      rw [hgone] at hmem ⊢
      exact hmem
    · exact (List.nodup_append.mp hnodup).2.2 _ (tip_mem hgone) _ hmem rfl
  · intro hmem
    exact hblank (List.mem_append_right _ hmem)

/-- The hashes at which a walk over entries of `rs` can stand. -/
def Reached (c : HashChain α H) (seed : H) (rs : List α) (h : H) : Prop :=
  h = seed ∨ h = c.blank ∨ h ∈ rs.map c.hash

/-- What a linked chain of entries that carry the hashes of `rs` must satisfy: where an entry
checks out, the previous hash it names is that of the entry whose hash it carries. -/
def Binding (c : HashChain α H) (seed : H) (rs : List α) : Prop :=
  ∀ e, ∀ r ∈ rs, c.hash e = c.hash r → c.digest (c.prev e) e = c.hash e →
    c.Reached seed rs (c.prev e) → c.prev e = c.prev r

section Rebuilt

variable {seed : H} {rs : List α} {done rest ys : List α}

/-- Behind the entries `done` of a genuine chain only the next one fits. -/
theorem Genuine.next (hg : c.Genuine seed rs) (hb : c.Binding seed rs) (hrs : rs = done ++ rest)
    {e : α} (hprev : c.prev e = c.tip seed done) (hdigest : c.digest (c.prev e) e = c.hash e)
    (hmem : c.hash e ∈ rest.map c.hash) : ∃ r rest', rest = r :: rest' ∧ c.hash e = c.hash r := by
  obtain ⟨r, hr, hhash⟩ := List.mem_map.mp hmem
  obtain ⟨skipped, rest', hrest⟩ := List.append_of_mem hr
  have hreached : c.Reached seed rs (c.prev e) := by
    by_cases hdone : done = []
    · left
      rw [hprev, hdone]
      rfl
    right
    right
    rw [hprev, hrs, List.map_append]
    exact List.mem_append_left _ (tip_mem hdone)
  have hin : r ∈ rs := by rw [hrs]; exact List.mem_append_right _ hr
  have hsame : c.prev e = c.prev r := hb e r hin hhash.symm hdigest hreached
  have hsplit : rs = (done ++ skipped) ++ r :: rest' := by rw [hrs, hrest, List.append_assoc]
  have hfollows : c.Follows seed ((done ++ skipped) ++ r :: rest') := hsplit ▸ hg.follows
  have htip : c.prev r = c.tip seed (done ++ skipped) := hfollows.prev_eq
  by_cases hskip : skipped = []
  · exact ⟨r, rest', by rw [hrest, hskip, List.nil_append], hhash.symm⟩
  -- the hash that the skipped entries leave is not the one the walk stands at
  exfalso
  have hlast : c.tip seed done ∈ skipped.map c.hash := by
    rw [← hprev, hsame, htip, tip_append]
    exact tip_mem hskip
  have hin' : c.tip seed done ∈ rest.map c.hash := by
    rw [hrest, List.map_append]
    exact List.mem_append_left _ hlast
  by_cases hdone : done = []
  · apply hg.seed_notMem
    rw [hrs, hdone, List.nil_append]
    rwa [hdone] at hin'
  · have hnodup := hg.nodup
    rw [hrs, List.map_append] at hnodup
    exact (List.nodup_append.mp hnodup).2.2 _ (tip_mem hdone) _ hin' rfl

theorem Genuine.blank_of_left (hg : c.Genuine seed rs) (hb : c.Binding seed rs)
    (hrs : rs = done ++ rest) (hdone : done ≠ []) (hlinked : c.Linked c.blank ys)
    (hmem : ∀ y ∈ ys, c.hash y ≠ c.blank → c.hash y ∈ rest.map c.hash) :
    ∀ y ∈ ys, c.hash y = c.blank := by
  induction ys with
  | nil => intro y hy; exact absurd hy List.not_mem_nil
  | cons y ys ih =>
    have hy : c.hash y = c.blank := by
      by_contra hne
      obtain ⟨hprev, hdigest⟩ := hlinked.1.resolve_left hne
      obtain ⟨r, hr, hhash⟩ := List.mem_map.mp (hmem y List.mem_cons_self hne)
      obtain ⟨skipped, rest', hrest⟩ := List.append_of_mem hr
      have hin : r ∈ rs := by rw [hrs]; exact List.mem_append_right _ hr
      have hsame := hb y r hin hhash.symm hdigest (Or.inr (Or.inl hprev))
      have hsplit : rs = (done ++ skipped) ++ r :: rest' := by
        rw [hrs, hrest, List.append_assoc]
      have hfollows : c.Follows seed ((done ++ skipped) ++ r :: rest') := hsplit ▸ hg.follows
      apply hg.blank_notMem
      rw [← hprev, hsame, hfollows.prev_eq, hsplit, List.map_append]
      exact List.mem_append_left _ (tip_mem (by simp [hdone]))
    intro z hz
    rcases List.mem_cons.mp hz with rfl | hz
    · exact hy
    · refine ih ?_ (fun w hw => hmem w (List.mem_cons_of_mem y hw)) z hz
      have htail := hlinked.2
      rwa [hy] at htail

/-- Behind the entries `done` a walk goes on along the chain and then checks nothing more. -/
theorem Genuine.linked_behind (hg : c.Genuine seed rs) (hb : c.Binding seed rs)
    (hrs : rs = done ++ rest) (hdone : done ≠ []) (hlinked : c.Linked (c.tip seed done) ys)
    (hmem : ∀ y ∈ ys, c.hash y ≠ c.blank → c.hash y ∈ rest.map c.hash)
    (hnodup : ys.Pairwise fun x y => c.hash x ≠ c.blank → c.hash x ≠ c.hash y) :
    ∃ cs ds, ys = cs ++ ds ∧ (∀ d ∈ ds, c.hash d = c.blank) ∧
      cs.map c.hash <+: rest.map c.hash := by
  induction ys generalizing done rest with
  | nil => exact ⟨[], [], rfl, by simp, List.nil_prefix⟩
  | cons y ys ih =>
    by_cases hy : c.hash y = c.blank
    · refine ⟨[], y :: ys, rfl, ?_, List.nil_prefix⟩
      have htail := hlinked.2
      rw [hy] at htail
      have hrest := hg.blank_of_left hb hrs hdone htail
        fun w hw => hmem w (List.mem_cons_of_mem y hw)
      intro d hd
      rcases List.mem_cons.mp hd with rfl | hd
      · exact hy
      · exact hrest d hd
    · obtain ⟨hprev, hdigest⟩ := hlinked.1.resolve_left hy
      obtain ⟨r, rest', hrest, hhash⟩ :=
        hg.next hb hrs hprev hdigest (hmem y List.mem_cons_self hy)
      have htip : c.tip seed (done ++ [r]) = c.hash y := by rw [tip_concat, hhash]
      have hne := (List.pairwise_cons.mp hnodup).1
      have hrs' : rs = (done ++ [r]) ++ rest' := by rw [hrs, hrest, List.append_assoc]; rfl
      have htail := ih hrs' (by simp)
        (by rw [htip]; exact hlinked.2)
        (by
          intro z hz hzne
          have hzmem := hmem z (List.mem_cons_of_mem y hz) hzne
          rw [hrest, List.map_cons] at hzmem
          rcases List.mem_cons.mp hzmem with hzr | hzr
          · exact absurd (hhash.trans hzr.symm) (hne z hz hy)
          · exact hzr)
        (List.pairwise_cons.mp hnodup).2
      obtain ⟨cs, ds, hys, hds, hcs⟩ := htail
      refine ⟨y :: cs, ds, by rw [hys]; rfl, hds, ?_⟩
      rw [hrest, List.map_cons, List.map_cons, hhash]
      exact (List.prefix_cons_inj _).mpr hcs

/-- Entries without a hash, a first part of the genuine chain, entries without a hash: what a
walk over entries of a genuine chain finds linked has this form. -/
theorem Genuine.linked_split (hg : c.Genuine seed rs) (hb : c.Binding seed rs) {h : H}
    (hh : h = seed ∨ h = c.blank) (hlinked : c.Linked h ys)
    (hmem : ∀ y ∈ ys, c.hash y ≠ c.blank → c.hash y ∈ rs.map c.hash)
    (hnodup : ys.Pairwise fun x y => c.hash x ≠ c.blank → c.hash x ≠ c.hash y) :
    ∃ bs cs ds, ys = bs ++ cs ++ ds ∧ (∀ b ∈ bs, c.hash b = c.blank) ∧
      (∀ d ∈ ds, c.hash d = c.blank) ∧ cs.map c.hash <+: rs.map c.hash ∧
      (cs = [] ∨ c.tip h bs = seed) := by
  induction ys generalizing h with
  | nil => exact ⟨[], [], [], rfl, by simp, by simp, List.nil_prefix, Or.inl rfl⟩
  | cons y ys ih =>
    by_cases hy : c.hash y = c.blank
    · have htail := hlinked.2
      rw [hy] at htail
      have hrest := ih (Or.inr rfl) htail (fun z hz => hmem z (List.mem_cons_of_mem y hz))
        (List.pairwise_cons.mp hnodup).2
      obtain ⟨bs, cs, ds, hys, hbs, hds, hcs, hseed⟩ := hrest
      refine ⟨y :: bs, cs, ds, by rw [hys]; rfl, ?_, hds, hcs, ?_⟩
      · intro b hb
        rcases List.mem_cons.mp hb with rfl | hb
        · exact hy
        · exact hbs b hb
      · rw [tip_cons, hy]
        exact hseed
    · obtain ⟨hprev, hdigest⟩ := hlinked.1.resolve_left hy
      have hymem := hmem y List.mem_cons_self hy
      have hseed : h = seed := by
        rcases hh with hh | hh
        · exact hh
        -- an entry that starts from `blank` carries the hash of the first one
        obtain ⟨r, hr, hhash⟩ := List.mem_map.mp hymem
        obtain ⟨skipped, rest', hrs⟩ := List.append_of_mem hr
        have hsame := hb y r hr hhash.symm hdigest (Or.inr (Or.inl (hprev.trans hh)))
        have hfollows : c.Follows seed (skipped ++ r :: rest') := hrs ▸ hg.follows
        by_cases hskip : skipped = []
        · have htip := hfollows.prev_eq
          rw [hskip, tip_nil] at htip
          rw [← hprev, hsame, htip]
        exfalso
        apply hg.blank_notMem
        rw [← hh, ← hprev, hsame, hfollows.prev_eq, hrs, List.map_append]
        exact List.mem_append_left _ (tip_mem hskip)
      obtain ⟨r, rest, hrs, hhash⟩ :=
        hg.next hb (show rs = [] ++ rs from rfl) (by rw [hprev, hseed]; rfl) hdigest hymem
      have htip : c.tip seed [r] = c.hash y := by rw [tip_cons, tip_nil, hhash]
      have hne := (List.pairwise_cons.mp hnodup).1
      have hrs' : rs = [r] ++ rest := hrs
      have htail := hg.linked_behind hb hrs' (by simp)
        (by rw [htip]; exact hlinked.2)
        (by
          intro z hz hzne
          have hzmem := hmem z (List.mem_cons_of_mem y hz) hzne
          rw [hrs, List.map_cons] at hzmem
          rcases List.mem_cons.mp hzmem with hzr | hzr
          · exact absurd (hhash.trans hzr.symm) (hne z hz hy)
          · exact hzr)
        (List.pairwise_cons.mp hnodup).2
      obtain ⟨cs, ds, hys, hds, hcs⟩ := htail
      refine ⟨[], y :: cs, ds, by rw [hys]; rfl, by simp, hds, ?_, Or.inr hseed⟩
      rw [hrs, List.map_cons, List.map_cons, hhash]
      exact (List.prefix_cons_inj _).mpr hcs

end Rebuilt

end HashChain

end Sluicio.Lib
