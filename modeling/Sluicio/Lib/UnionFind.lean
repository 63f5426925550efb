import Mathlib.Data.List.Nodup
import Mathlib.Logic.Relation

/-!
# Union-find

A forest of parent pointers, in which a root is its own parent.  `find` follows the pointers to
the root and points everything on its way at it; `union` links the roots of two elements.

`RootIn p k x r` says that the root `r` of `x` is `k` steps up.  A pointer that skips to the root
changes no root, and a link changes those of one tree: `Represents.union` turns this into what a
client needs, that two elements have one root when the pairs joined so far connect them.
-/

namespace Sluicio.Lib

open Function (update)

variable {α : Type*} {p q : α → α} {k l : Nat} {x y r s : α}

/-- The root of an element, and how many steps up it is. -/
inductive RootIn (p : α → α) : Nat → α → α → Prop where
  | root {x : α} : p x = x → RootIn p 0 x x
  | step {k : Nat} {x r : α} : p x ≠ x → RootIn p k (p x) r → RootIn p (k + 1) x r

def RootOf (p : α → α) (x r : α) : Prop := ∃ k, RootIn p k x r

theorem RootIn.isRoot (h : RootIn p k x r) : p r = r := by
  induction h with
  | root hx => exact hx
  | step _ _ ih => exact ih

theorem RootIn.unique (h : RootIn p k x r) (h' : RootIn p l x s) : k = l ∧ r = s := by
  induction h generalizing l with
  | root hx =>
    cases h' with
    | root _ => exact ⟨rfl, rfl⟩
    | step hne _ => exact absurd hx hne
  | step hne _ ih =>
    cases h' with
    | root hx => exact absurd hx hne
    | step _ hrest =>
      obtain ⟨hk, hr⟩ := ih hrest
      exact ⟨congrArg (· + 1) hk, hr⟩

theorem RootOf.isRoot (h : RootOf p x r) : p r = r := by
  obtain ⟨k, hk⟩ := h
  exact hk.isRoot

theorem RootOf.unique (h : RootOf p x r) (h' : RootOf p x s) : r = s := by
  obtain ⟨k, hk⟩ := h
  obtain ⟨l, hl⟩ := h'
  exact (hk.unique hl).2

theorem RootOf.root (h : p x = x) : RootOf p x x := ⟨0, .root h⟩

theorem RootOf.step (hne : p x ≠ x) (h : RootOf p (p x) r) : RootOf p x r := by
  obtain ⟨k, hk⟩ := h
  exact ⟨k + 1, .step hne hk⟩

theorem RootOf.eq_of_root (h : RootOf p x r) (hx : p x = x) : r = x := h.unique (.root hx)

/-- Pointers that stay in a list, each element with a root. -/
structure Forest (nodes : List α) (p : α → α) : Prop where
  rooted : ∀ x, ∃ r, RootOf p x r
  closed : ∀ x ∈ nodes, p x ∈ nodes

variable {nodes : List α}

theorem RootIn.mem (hclosed : ∀ x ∈ nodes, p x ∈ nodes) (h : RootIn p k x r) (hx : x ∈ nodes) :
    r ∈ nodes := by
  induction h with
  | root _ => exact hx
  | step _ _ ih => exact ih (hclosed _ hx)

theorem RootIn.exists_path (hclosed : ∀ x ∈ nodes, p x ∈ nodes) (h : RootIn p k x r)
    (hx : x ∈ nodes) :
    ∃ path : List α, path.length = k + 1 ∧ path.Nodup ∧
      ∀ y ∈ path, y ∈ nodes ∧ ∃ l ≤ k, RootIn p l y r := by
  induction h with
  | @root x hroot =>
    refine ⟨[x], rfl, List.nodup_singleton x, ?_⟩
    intro y hy
    obtain rfl := List.mem_singleton.1 hy
    exact ⟨hx, 0, Nat.le_refl 0, .root hroot⟩
  | @step k x r hne hrest ih =>
    obtain ⟨path, hlength, hnodup, hall⟩ := ih (hclosed x hx)
    refine ⟨x :: path, congrArg (· + 1) hlength, List.nodup_cons.2 ⟨?_, hnodup⟩, ?_⟩
    · intro hmem
      obtain ⟨-, l, hl, hroot⟩ := hall x hmem
      have hsame := (hroot.unique (.step hne hrest)).1
      omega
    · intro y hy
      cases List.mem_cons.1 hy with
      | inl heq =>
        subst heq
        exact ⟨hx, k + 1, Nat.le_refl _, .step hne hrest⟩
      | inr hmem =>
        obtain ⟨hy, l, hl, hroot⟩ := hall y hmem
        exact ⟨hy, l, Nat.le_succ_of_le hl, hroot⟩

theorem RootIn.lt_length (hclosed : ∀ x ∈ nodes, p x ∈ nodes) (h : RootIn p k x r)
    (hx : x ∈ nodes) : k < nodes.length := by
  obtain ⟨path, hlength, hnodup, hall⟩ := h.exists_path hclosed hx
  have hle : path.length ≤ nodes.length :=
    List.Nodup.length_le_of_subset hnodup fun y hy => (hall y hy).1
  omega

/-! ## Two changes of pointers -/

section Update

variable [DecidableEq α]

theorem rootOf_update_root (hrooted : ∀ x, ∃ r, RootOf p x r) (h : RootOf p x r) (y s : α) :
    RootOf (update p x r) y s ↔ RootOf p y s := by
  have hforward {k : Nat} {y s : α} (hy : RootIn p k y s) : RootOf (update p x r) y s := by
    induction hy with
    | @root y hroot =>
      apply RootOf.root
      by_cases hyx : y = x
      · subst hyx
        rw [Function.update_self]
        exact h.eq_of_root hroot
      · rw [Function.update_of_ne hyx, hroot]
    | @step k y s hne hrest ih =>
      by_cases hyx : y = x
      · subst hyx
        have hs : s = r := RootOf.unique ⟨_, .step hne hrest⟩ h
        subst hs
        -- the root is another element, so its own pointer is as it was
        have hsy : s ≠ y := by
          intro heq
          rw [heq] at h
          exact hne h.isRoot
        have hself : update p y s y = s := Function.update_self ..
        apply RootOf.step
        · rw [hself]
          exact hsy
        · rw [hself]
          apply RootOf.root
          rw [Function.update_of_ne hsy]
          exact h.isRoot
      · have hsame : update p x r y = p y := Function.update_of_ne hyx ..
        apply RootOf.step
        · rw [hsame]
          exact hne
        · rw [hsame]
          exact ih
  constructor
  · intro hq
    obtain ⟨t, k, hk⟩ := hrooted y
    rw [hq.unique (hforward hk)]
    exact ⟨k, hk⟩
  · intro hp
    obtain ⟨k, hk⟩ := hp
    exact hforward hk

variable {ra rb b a : α} {R : α → α → Prop}

theorem rootOf_update_link (ha : p a = a) (hb : p b = b) (hab : a ≠ b) (h : RootOf p x r) :
    RootOf (update p a b) x (if r = a then b else r) := by
  have hother {c : α} (hc : c ≠ a) : update p a b c = p c := Function.update_of_ne hc ..
  have hself : update p a b a = b := Function.update_self ..
  obtain ⟨k, hk⟩ := h
  induction hk with
  | @root x hroot =>
    by_cases hxa : x = a
    · rw [if_pos hxa, hxa]
      apply RootOf.step
      · rw [hself]
        exact hab.symm
      · rw [hself]
        apply RootOf.root
        rw [hother hab.symm, hb]
    · rw [if_neg hxa]
      apply RootOf.root
      rw [hother hxa, hroot]
  | @step k x r hne _ ih =>
    have hxa : x ≠ a := by
      intro heq
      rw [heq] at hne
      exact hne ha
    apply RootOf.step
    · rw [hother hxa]
      exact hne
    · rw [hother hxa]
      exact ih

/-! ## The operations -/

/-- The root of an element, and the pointers with the way to it shortened. -/
def find : Nat → (α → α) → α → α × (α → α)
  | 0, p, x => (x, p)
  | fuel + 1, p, x =>
    if p x = x then (x, p)
    else
      let found := find fuel p (p x)
      (found.1, update found.2 x found.1)

/-- The pointers with the roots of two elements linked. -/
def union (fuel : Nat) (p : α → α) (a b : α) : α → α :=
  let ra := find fuel p a
  let rb := find fuel ra.2 b
  if ra.1 = rb.1 then rb.2 else update rb.2 ra.1 rb.1

/-- With the steps it takes, `find` finds the root and keeps all of them. -/
theorem find_of_rootIn {nodes : List α} (hp : Forest nodes p) (hx : x ∈ nodes)
    (h : RootIn p k x r) {fuel : Nat} (hfuel : k ≤ fuel) :
    (find fuel p x).1 = r ∧ Forest nodes (find fuel p x).2 ∧
      ∀ y s, RootOf (find fuel p x).2 y s ↔ RootOf p y s := by
  induction fuel generalizing k x with
  | zero =>
    cases h with
    | root _ => exact ⟨rfl, hp, fun y s => Iff.rfl⟩
    | step _ _ => omega
  | succ fuel ih =>
    cases h with
    | root hroot =>
      rw [find, if_pos hroot]
      exact ⟨rfl, hp, fun y s => Iff.rfl⟩
    | step hne hrest =>
      obtain ⟨hfound, hforest, hroots⟩ := ih (hp.closed x hx) hrest (by omega)
      have hr : RootOf (find fuel p (p x)).2 x r := (hroots x r).2 ⟨_, .step hne hrest⟩
      have hkeep := rootOf_update_root hforest.rooted hr
      rw [find, if_neg hne]
      simp only [hfound]
      refine ⟨trivial, ⟨?_, ?_⟩, fun y s => (hkeep y s).trans (hroots y s)⟩
      · intro y
        obtain ⟨s, hs⟩ := hforest.rooted y
        exact ⟨s, (hkeep y s).2 hs⟩
      · intro y hy
        by_cases hyx : y = x
        · rw [hyx, Function.update_self]
          exact hrest.mem hp.closed (hp.closed x hx)
        · rw [Function.update_of_ne hyx]
          exact hforest.closed y hy

variable {nodes : List α}

/-- `find` finds the root. -/
theorem Forest.find (hp : Forest nodes p) (hx : x ∈ nodes) :
    RootOf p x (find nodes.length p x).1 ∧ Forest nodes (find nodes.length p x).2 ∧
      ∀ y s, RootOf (find nodes.length p x).2 y s ↔ RootOf p y s := by
  obtain ⟨r, k, hk⟩ := hp.rooted x
  obtain ⟨hfound, hforest, hroots⟩ :=
    find_of_rootIn hp hx hk (Nat.le_of_lt (hk.lt_length hp.closed hx))
  exact ⟨⟨k, hfound ▸ hk⟩, hforest, hroots⟩

/-- The root of each element's key, found one after another. -/
def findAll {β : Type*} (fuel : Nat) (key : β → α) : (α → α) → List β → List (α × β) × (α → α)
  | p, [] => ([], p)
  | p, b :: bs =>
    let found := find fuel p (key b)
    let rest := findAll fuel key found.2 bs
    ((found.1, b) :: rest.1, rest.2)

theorem Forest.findAll {β : Type*} (hp : Forest nodes p) (key : β → α) {bs : List β}
    (hbs : ∀ b ∈ bs, key b ∈ nodes) :
    (findAll nodes.length key p bs).1.map Prod.snd = bs ∧
      (∀ f ∈ (findAll nodes.length key p bs).1, RootOf p (key f.2) f.1) ∧
      Forest nodes (findAll nodes.length key p bs).2 ∧
      ∀ y s, RootOf (findAll nodes.length key p bs).2 y s ↔ RootOf p y s := by
  induction bs generalizing p with
  | nil => exact ⟨rfl, fun f hf => absurd hf List.not_mem_nil, hp, fun y s => Iff.rfl⟩
  | cons b bs ih =>
    obtain ⟨hroot, hforest, hroots⟩ := hp.find (hbs b List.mem_cons_self)
    obtain ⟨hsnd, hfound, hforest', hroots'⟩ :=
      ih hforest fun c hc => hbs c (List.mem_cons_of_mem b hc)
    rw [Lib.findAll]
    refine ⟨congrArg (b :: ·) hsnd, ?_, hforest', fun y s => (hroots' y s).trans (hroots y s)⟩
    intro f hf
    cases List.mem_cons.1 hf with
    | inl heq =>
      subst heq
      exact hroot
    | inr hmem => exact (hroots _ _).1 (hfound f hmem)

def ofRoot {β : Type*} (found : List (α × β)) (r : α) : List β :=
  (found.filter fun f => f.1 = r).map Prod.snd

theorem mem_ofRoot {β : Type*} {key : β → α} {found : List (α × β)}
    (h : ∀ f ∈ found, RootOf p (key f.2) f.1) {b : β} :
    b ∈ ofRoot found r ↔ b ∈ found.map Prod.snd ∧ RootOf p (key b) r := by
  unfold ofRoot
  simp only [List.mem_map, List.mem_filter, decide_eq_true_eq]
  constructor
  · intro hb
    obtain ⟨f, hf, rfl⟩ := hb
    exact ⟨⟨f, hf.1, rfl⟩, hf.2 ▸ h f hf.1⟩
  · intro hb
    obtain ⟨⟨f, hf, rfl⟩, hroot⟩ := hb
    exact ⟨f, ⟨hf, (h f hf).unique hroot⟩, rfl⟩

theorem ofRoot_eq_filter {β : Type*} {key : β → α} {found : List (α × β)}
    (h : ∀ f ∈ found, RootOf p (key f.2) f.1) (inClass : β → Bool)
    (hinClass : ∀ b ∈ found.map Prod.snd, inClass b ↔ RootOf p (key b) r) :
    ofRoot found r = (found.map Prod.snd).filter inClass := by
  rw [ofRoot, List.filter_map]
  congr 1
  apply List.filter_congr
  intro f hf
  have hiff : f.1 = r ↔ inClass f.2 := by
    rw [hinClass f.2 (List.mem_map_of_mem hf)]
    constructor
    · intro heq
      exact heq ▸ h f hf
    · exact (h f hf).unique
  rw [Bool.eq_iff_iff, decide_eq_true_eq, hiff]
  rfl

theorem ofRoot_sublist {β : Type*} (found : List (α × β)) (r : α) :
    (ofRoot found r).Sublist (found.map Prod.snd) :=
  List.filter_sublist.map Prod.snd

/-! ## What the forest stands for -/

/-- Two elements have one root. -/
def Joined (p : α → α) (x y : α) : Prop := ∃ r, RootOf p x r ∧ RootOf p y r

/-- The trees are the classes of a relation. -/
structure Represents (nodes : List α) (p : α → α) (R : α → α → Prop) : Prop
    extends Forest nodes p where
  joined : ∀ x y, Joined p x y ↔ Relation.EqvGen R x y

omit [DecidableEq α] in
theorem represents_id (nodes : List α) : Represents nodes id fun _ _ => False where
  rooted x := ⟨x, .root rfl⟩
  closed _ hx := hx
  joined x y := by
    constructor
    · intro h
      obtain ⟨r, hx, hy⟩ := h
      rw [← hx.eq_of_root rfl, ← hy.eq_of_root rfl]
      exact .refl r
    · intro h
      have heq : x = y := by
        induction h with
        | rel _ _ hfalse => exact hfalse.elim
        | refl _ => rfl
        | symm _ _ _ ih => exact ih.symm
        | trans _ _ _ _ _ ih ih' => exact ih.trans ih'
      exact ⟨x, .root rfl, heq ▸ .root rfl⟩

omit [DecidableEq α] in
theorem Represents.of_roots (h : Represents nodes p R) (hq : Forest nodes q)
    (hroots : ∀ y s, RootOf q y s ↔ RootOf p y s) :
    Represents nodes q R where
  toForest := hq
  joined x y := by
    rw [← h.joined x y, Joined, Joined]
    simp only [hroots]

theorem Forest.link (h : Forest nodes p) (ha : RootOf p a ra) (hb : RootOf p b rb) (hne : ra ≠ rb)
    (hmem : rb ∈ nodes) : Forest nodes (update p ra rb) := by
  constructor
  · intro x
    obtain ⟨r, hx⟩ := h.rooted x
    exact ⟨_, rootOf_update_link ha.isRoot hb.isRoot hne hx⟩
  · intro x hx
    by_cases hxr : x = ra
    · rw [hxr, Function.update_self]
      exact hmem
    · rw [Function.update_of_ne hxr]
      exact h.closed x hx

theorem Joined.link {x y : α} (ha : RootOf p a ra) (hb : RootOf p b rb) (hne : ra ≠ rb)
    (hxy : Joined p x y) : Joined (update p ra rb) x y := by
  obtain ⟨r, hx, hy⟩ := hxy
  exact ⟨_, rootOf_update_link ha.isRoot hb.isRoot hne hx,
    rootOf_update_link ha.isRoot hb.isRoot hne hy⟩

theorem joined_link (ha : RootOf p a ra) (hb : RootOf p b rb) (hne : ra ≠ rb) :
    Joined (update p ra rb) a b := by
  have hroot := rootOf_update_link ha.isRoot hb.isRoot hne ha
  have hroot' := rootOf_update_link ha.isRoot hb.isRoot hne hb
  rw [if_pos rfl] at hroot
  rw [if_neg hne.symm] at hroot'
  exact ⟨rb, hroot, hroot'⟩

/-- Where the root of an element was before the link: it is joined to `a` and has moved to
`b`'s, or is where it was. -/
theorem Represents.exists_root_of_link (h : Represents nodes p R) {z t : α} (ha : RootOf p a ra)
    (hb : RootOf p b rb) (hne : ra ≠ rb) (hz : RootOf (update p ra rb) z t) :
    ∃ w, RootOf p w t ∧ Relation.EqvGen (fun x y => R x y ∨ (x = a ∧ y = b)) z w := by
  obtain ⟨r, hr⟩ := h.rooted z
  have ht := hz.unique (rootOf_update_link ha.isRoot hb.isRoot hne hr)
  by_cases hra : r = ra
  · rw [if_pos hra] at ht
    subst ht
    subst hra
    have hza := ((h.joined z a).1 ⟨r, hr, ha⟩).mono fun x y hR => Or.inl (b := x = a ∧ y = b) hR
    exact ⟨b, hb, hza.trans _ _ _ (.rel a b (.inr ⟨rfl, rfl⟩))⟩
  · rw [if_neg hra] at ht
    subst ht
    exact ⟨z, hr, .refl z⟩

theorem Represents.link (h : Represents nodes p R) (ha : RootOf p a ra) (hb : RootOf p b rb)
    (hne : ra ≠ rb) (hmem : rb ∈ nodes) :
    Represents nodes (update p ra rb) fun x y => R x y ∨ (x = a ∧ y = b) := by
  have hforest := h.toForest.link ha hb hne hmem
  refine ⟨hforest, ?_⟩
  intro x y
  constructor
  · intro hxy
    obtain ⟨t, hx, hy⟩ := hxy
    obtain ⟨w, hw, hxw⟩ := h.exists_root_of_link ha hb hne hx
    obtain ⟨w', hw', hyw⟩ := h.exists_root_of_link ha hb hne hy
    have hww := ((h.joined w w').1 ⟨t, hw, hw'⟩).mono fun x y hR =>
      Or.inl (b := x = a ∧ y = b) hR
    exact (hxw.trans _ _ _ hww).trans _ _ _ (hyw.symm _ _)
  · intro hxy
    induction hxy with
    | rel x y hR =>
      cases hR with
      | inl hR => exact ((h.joined x y).2 (.rel x y hR)).link ha hb hne
      | inr heq =>
        rw [heq.1, heq.2]
        exact joined_link ha hb hne
    | refl x =>
      obtain ⟨r, hr⟩ := hforest.rooted x
      exact ⟨r, hr, hr⟩
    | symm _ _ _ ih =>
      obtain ⟨t, hx, hy⟩ := ih
      exact ⟨t, hy, hx⟩
    | trans _ _ _ _ _ ih ih' =>
      obtain ⟨t, hx, hy⟩ := ih
      obtain ⟨t', hy', hz⟩ := ih'
      rw [hy'.unique hy] at hz
      exact ⟨t, hx, hz⟩

/-- **`union` joins its two elements.** -/
theorem Represents.union {R : α → α → Prop} (h : Represents nodes p R) {a b : α}
    (ha : a ∈ nodes) (hb : b ∈ nodes) :
    Represents nodes (union nodes.length p a b) fun x y => R x y ∨ (x = a ∧ y = b) := by
  obtain ⟨hra, hforest, hroots⟩ := h.toForest.find ha
  have h₁ := h.of_roots hforest hroots
  obtain ⟨hrb, hforest', hroots'⟩ := h₁.toForest.find hb
  have h₂ := h₁.of_roots hforest' hroots'
  have hra₂ := (hroots' _ _).2 ((hroots _ _).2 hra)
  have hrb₂ := (hroots' _ _).2 hrb
  unfold Lib.union
  simp only
  split
  · rename_i heq
    -- they were joined already
    rw [← heq] at hrb₂
    have hab := (h₂.joined a b).1 ⟨_, hra₂, hrb₂⟩
    refine ⟨h₂.toForest, fun x y => (h₂.joined x y).trans ⟨fun hxy => ?_, fun hxy => ?_⟩⟩
    · exact hxy.mono fun _ _ hR => .inl hR
    · induction hxy with
      | rel x y hR =>
        cases hR with
        | inl hR => exact .rel x y hR
        | inr heq =>
          rw [heq.1, heq.2]
          exact hab
      | refl x => exact .refl x
      | symm _ _ _ ih => exact ih.symm _ _
      | trans _ _ _ _ _ ih ih' => exact ih.trans _ _ _ ih'
  · rename_i hne
    obtain ⟨k, hk⟩ := hrb
    exact h₂.link hra₂ hrb₂ hne (hk.mem h₁.closed hb)

end Update

end Sluicio.Lib
