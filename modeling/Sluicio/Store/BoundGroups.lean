import Sluicio.Store.AttrGroups

/-!
# The clause of the attribute groups, bound

`boundGroups` builds the clause of a list of attribute groups with every argument in
place.  The compiler returns its text and its arguments (`attrGroupsClause_eq`), so that
the order of the arguments is settled once, by `Clause.emit`.  Every column the clause
reads is one its table has, and no name it writes has a question mark of its own.
-/

namespace Sluicio.Store

open Clause LogAttrFilter

variable {F : Type}

def memberGroups (groups : List (List LogAttrFilter)) : List (List LogAttrFilter × Nat) :=
  (groups.filter fun g => !isSourceGroup g).zipIdx.filter fun x => !x.1.isEmpty

/-! ## The bound clause -/

section Bound

variable (cfg : EnvironmentConfig) (engine : Engine F)

/-- A group's own condition. -/
def boundGroup (primaryMap : PrimaryMap) (g : List LogAttrFilter) : Clause (Arg F) :=
  .all (g.map fun f => .cond (attrCond cfg engine primaryMap f))

/-- The group's condition on the spans, as it is rendered from another table. -/
def boundOnSpans (primaryMap : PrimaryMap) (g : List LogAttrFilter) : Clause (Arg F) :=
  if primaryMap = .spanAttributes then boundGroup cfg engine .spanAttributes g
  else .any [boundGroup cfg engine .spanAttributes g]

/-- The group also selects the spans below its anchors. -/
def widened (primaryMap : PrimaryMap) (start stop : Int) (g : List LogAttrFilter) : Bool :=
  !(!g.any descendants || primaryMap = .metricAttributes || isZero start ||
    isZero stop)

/-- The spans at or below the group's anchors. -/
def boundSubtree (primaryMap : PrimaryMap) (start stop : Int) (g : List LogAttrFilter) :
    Clause (Arg F) :=
  .subtree (boundOnSpans cfg engine primaryMap g) (.time start) (.time stop) (.time start)
    (.time stop) (boundOnSpans cfg engine primaryMap g)

/-- One group's part of the union. -/
def boundPart (primaryMap : PrimaryMap) (start stop : Int) (g : List LogAttrFilter) :
    Clause (Arg F) :=
  if widened primaryMap start stop g then
    if primaryMap = .spanAttributes then boundSubtree cfg engine primaryMap start stop g
    else .any [boundGroup cfg engine primaryMap g, boundSubtree cfg engine primaryMap start stop g]
  else boundGroup cfg engine primaryMap g

def boundHaving (primaryMap : PrimaryMap) (ms : List (List LogAttrFilter × Nat))
    (member : Int) : Clause (Arg F) :=
  alternatives ((ms.filter fun x => groupMemberOf x.1 x.2 = member).map fun x =>
    .countIf (boundOnSpans cfg engine primaryMap x.1))

def memberOrder (ms : List (List LogAttrFilter × Nat)) : List Int :=
  (ms.map fun x => groupMemberOf x.1 x.2).eraseDups

/-- The row's trace satisfies every one of the members. -/
def boundGate (primaryMap : PrimaryMap) (start stop : Int)
    (ms : List (List LogAttrFilter × Nat)) : Clause (Arg F) :=
  .traceIn (.time start) (.time stop)
    (.any (ms.map fun x => boundOnSpans cfg engine primaryMap x.1))
    ((memberOrder ms).map (boundHaving cfg engine primaryMap ms))

/-- A group as the loop hands it to the gate. -/
def gatedGroup (primaryMap : PrimaryMap) (x : List LogAttrFilter × Nat) : GatedGroup F :=
  ⟨(boundOnSpans cfg engine primaryMap x.1).erase,
    (boundOnSpans cfg engine primaryMap x.1).holes, groupMemberOf x.1 x.2⟩

/-- The gate is asked. -/
def gated (primaryMap : PrimaryMap) (start stop : Int)
    (ms : List (List LogAttrFilter × Nat)) : Bool :=
  !(!(ms.any fun x => x.1.any requireAllGroups) || (memberOrder ms).length < 2 ||
    primaryMap = .metricAttributes || isZero start || isZero stop)

def boundMembers (primaryMap : PrimaryMap) (start stop : Int)
    (ms : List (List LogAttrFilter × Nat)) : Option (Clause (Arg F)) :=
  if ms.isEmpty then none
  else
    let union := Clause.any (ms.map fun x => boundPart cfg engine primaryMap start stop x.1)
    if gated primaryMap start stop ms then
      some (.all [union, boundGate cfg engine primaryMap start stop ms])
    else some union

/-- The whole predicate. -/
def boundGroups (primaryMap : PrimaryMap) (groups : List (List LogAttrFilter))
    (start stop : Int) : Option (Clause (Arg F)) :=
  let members := boundMembers cfg engine primaryMap start stop (memberGroups groups)
  let sources := (groups.filter isSourceGroup).map (boundGroup cfg engine primaryMap)
  if sources.isEmpty then members
  else
    match members with
    | none => some (.any sources)
    | some clause => some (.any (clause :: sources))

/-! ## The compiler returns its text and its arguments -/

variable {cfg engine}

theorem andGroup_eq (primaryMap : PrimaryMap) (g : List LogAttrFilter) :
    andGroup cfg engine primaryMap g = (boundGroup cfg engine primaryMap g).emit := by
  simp only [andGroup, boundGroup, Clause.emit, erase, eraseList_eq, List.map_map,
    holes_all, List.flatMap_map, attrClauseIn_eq]
  rfl

theorem boundGroup_stripDescendants (primaryMap : PrimaryMap) (g : List LogAttrFilter) :
    boundGroup cfg engine primaryMap (stripDescendants g) = boundGroup cfg engine primaryMap g := by
  simp only [boundGroup, stripDescendants, List.map_map]
  rfl

theorem emit_any (parts : List (Clause (Arg F))) :
    (Clause.any parts).emit = (.any (parts.map erase), parts.flatMap holes) := by
  rw [Clause.emit, erase, eraseList_eq, holes_any]

variable {groups : List (List LogAttrFilter)} {primaryMap : PrimaryMap} {start stop : Int}
  {c : Clause (Arg F)}

theorem not_isSourceGroup_of_filter (h : ¬ groups.any isSourceGroup) :
    (groups.filter isSourceGroup).isEmpty := by
  rw [List.isEmpty_iff, List.filter_eq_nil_iff]
  intro g hg hsrc
  exact h (List.any_eq_true.2 ⟨g, hg, hsrc⟩)

variable {x : List LogAttrFilter × Nat} {alts : List (Clause (Arg F))} {g : List LogAttrFilter}
  {self : PrimaryMap → List (List LogAttrFilter) → Int → Int → Compiled F}

theorem attrGroupsClause_onSpans (hg : g ≠ []) (hsource : ¬ isSourceGroup g) :
    attrGroupsClause cfg engine .spanAttributes [stripDescendants g] 0 0 =
      some (Clause.any [boundGroup cfg engine .spanAttributes g]).emit := by
  have hsources : (List.filter isSourceGroup [stripDescendants g]).isEmpty := by
    apply not_isSourceGroup_of_filter
    simpa [isSourceGroup_stripDescendants] using hsource
  have hne : (stripDescendants g).isEmpty = false := by
    simpa [stripDescendants] using hg
  rw [attrGroupsClause_unfold, attrGroupsBody]
  simp only [hsources, Bool.not_true, Bool.false_eq_true, if_false, List.zipIdx_cons,
    List.zipIdx_nil, List.foldl_cons, List.foldl_nil, addGroup, hne, if_true, isZero,
    decide_true, Bool.or_true, List.nil_append, List.isEmpty_cons, allGroupsClause]
  rw [andGroup_eq, boundGroup_stripDescendants, emit_any]
  simp [Clause.emit]

theorem subtreeClause_emit (anchor : Clause (Arg F)) (start stop : Int) :
    subtreeClause anchor.emit.1 anchor.emit.2 start stop =
      (subtree anchor (.time start) (.time stop) (.time start) (.time stop)
        anchor).emit := by
  rw [Clause.emit, Clause.emit, erase, holes_subtree]
  rfl

theorem addGroup_eq (hne : x.1 ≠ []) (loop : GroupsLoop F) (hself : primaryMap ≠ .spanAttributes →
      self .spanAttributes [stripDescendants x.1] 0 0 =
        some (Clause.any [boundGroup cfg engine .spanAttributes x.1]).emit) :
    addGroup cfg engine self primaryMap start stop loop x =
      { orParts := loop.orParts ++ [(boundPart cfg engine primaryMap start stop x.1).erase]
        args := loop.args ++ (boundPart cfg engine primaryMap start stop x.1).holes
        gated := loop.gated ++ [gatedGroup cfg engine primaryMap x]
        requireAll := loop.requireAll || x.1.any requireAllGroups } := by
  have hempty : x.1.isEmpty = false := by simpa using hne
  have honSpans : (if primaryMap = .spanAttributes then andGroup cfg engine primaryMap x.1
      else (self .spanAttributes [stripDescendants x.1] 0 0).getD
        (andGroup cfg engine primaryMap x.1)) =
      (boundOnSpans cfg engine primaryMap x.1).emit := by
    by_cases hspan : primaryMap = .spanAttributes
    · rw [if_pos hspan, andGroup_eq, boundOnSpans, if_pos hspan, hspan]
    · rw [if_neg hspan, hself hspan, boundOnSpans, if_neg hspan]
      rfl
  have hpart : (if !x.1.any descendants || primaryMap = .metricAttributes ||
        isZero start || isZero stop then andGroup cfg engine primaryMap x.1
      else if primaryMap = .spanAttributes then
        subtreeClause (boundOnSpans cfg engine primaryMap x.1).emit.1
          (boundOnSpans cfg engine primaryMap x.1).emit.2 start stop
      else
        (.any [(andGroup cfg engine primaryMap x.1).1,
            (subtreeClause (boundOnSpans cfg engine primaryMap x.1).emit.1
              (boundOnSpans cfg engine primaryMap x.1).emit.2 start stop).1],
          (andGroup cfg engine primaryMap x.1).2 ++
            (subtreeClause (boundOnSpans cfg engine primaryMap x.1).emit.1
              (boundOnSpans cfg engine primaryMap x.1).emit.2 start stop).2)) =
      (boundPart cfg engine primaryMap start stop x.1).emit := by
    rw [andGroup_eq, subtreeClause_emit]
    by_cases hplain : !x.1.any descendants || primaryMap = .metricAttributes ||
        isZero start || isZero stop
    · have hwidened : widened primaryMap start stop x.1 = false := by
        rw [widened, hplain]
        rfl
      rw [if_pos hplain, boundPart, hwidened]
      rfl
    have hwidened : widened primaryMap start stop x.1 := by
      rw [widened, Bool.not_eq_true _ |>.mp hplain]
      rfl
    rw [if_neg hplain, boundPart, hwidened, if_pos rfl]
    by_cases hspan : primaryMap = .spanAttributes
    · rw [if_pos hspan, if_pos hspan]
      rfl
    · rw [if_neg hspan, if_neg hspan, emit_any]
      simp [Clause.emit, boundSubtree]
  simp only [addGroup, hempty, Bool.false_eq_true, if_false, honSpans, hpart]
  rfl

/-- What the loop has collected after the groups `ms`. -/
theorem addGroup_foldl (ms : List (List LogAttrFilter × Nat)) (loop : GroupsLoop F)
    (hself : primaryMap ≠ .spanAttributes → ∀ x ∈ ms, x.1 ≠ [] →
      self .spanAttributes [stripDescendants x.1] 0 0 =
        some (Clause.any [boundGroup cfg engine .spanAttributes x.1]).emit) :
    ms.foldl (addGroup cfg engine self primaryMap start stop) loop =
      let kept := ms.filter fun x => !x.1.isEmpty
      let parts := kept.map fun x => boundPart cfg engine primaryMap start stop x.1
      { orParts := loop.orParts ++ parts.map erase
        args := loop.args ++ parts.flatMap holes
        gated := loop.gated ++ kept.map (gatedGroup cfg engine primaryMap)
        requireAll := loop.requireAll ||
          kept.any fun x => x.1.any requireAllGroups } := by
  induction ms generalizing loop with
  | nil => simp
  | cons x ms ih =>
    have hrest := ih (addGroup cfg engine self primaryMap start stop loop x)
      fun hp y hy => hself hp y (List.mem_cons_of_mem _ hy)
    rw [List.foldl_cons, hrest]
    by_cases hempty : x.1.isEmpty
    · have hskip : addGroup cfg engine self primaryMap start stop loop x = loop := by
        simp only [addGroup, hempty, if_true]
      simp [hskip, hempty]
    · have hne : x.1 ≠ [] := by simpa using hempty
      rw [addGroup_eq hne loop fun hp => hself hp x List.mem_cons_self hne]
      simp [hempty, Bool.or_assoc]

theorem emit_alternatives (alts : List (Clause (Arg F))) :
    (alternatives alts).emit =
      (alternatives (alts.map erase), alts.flatMap holes) := by
  match alts with
  | [] => rfl
  | [alt] => simp [Clause.emit, alternatives]
  | alt :: alt' :: alts =>
    rw [alternatives, emit_any]
    · rfl
    · intro c h
      cases h

theorem boundHaving_emit (primaryMap : PrimaryMap) (ms : List (List LogAttrFilter × Nat))
    (member : Int) :
    (boundHaving cfg engine primaryMap ms member).emit =
      (memberHaving (ms.map (gatedGroup cfg engine primaryMap)) member,
        ((ms.map (gatedGroup cfg engine primaryMap)).filter fun g => g.member = member).flatMap
          GatedGroup.args) := by
  have hfilter : (ms.map (gatedGroup cfg engine primaryMap)).filter
      (fun g => g.member = member) =
      (ms.filter fun x => groupMemberOf x.1 x.2 = member).map
        (gatedGroup cfg engine primaryMap) := by
    rw [List.filter_map]
    rfl
  rw [boundHaving, emit_alternatives, memberHaving, hfilter, List.map_map, List.map_map,
    List.flatMap_map, List.flatMap_map]
  simp only [holes_countIf]
  rfl

theorem allGroupsClause_eq (primaryMap : PrimaryMap) (start stop : Int)
    (ms : List (List LogAttrFilter × Nat)) :
    allGroupsClause primaryMap (ms.map (gatedGroup cfg engine primaryMap))
        (ms.any fun x => x.1.any requireAllGroups) start stop =
      if gated primaryMap start stop ms then
        some (boundGate cfg engine primaryMap start stop ms).emit
      else none := by
  have horder : ((ms.map (gatedGroup cfg engine primaryMap)).map GatedGroup.member).eraseDups =
      memberOrder ms := by
    rw [List.map_map]
    rfl
  have hhaving (m : Int) := @boundHaving_emit F cfg engine primaryMap ms m
  have hgate : (boundGate cfg engine primaryMap start stop ms).emit =
      (.traceIn () () (.any ((ms.map (gatedGroup cfg engine primaryMap)).map GatedGroup.sql))
          ((memberOrder ms).map (memberHaving (ms.map (gatedGroup cfg engine primaryMap)))),
        .time start :: .time stop ::
          ((ms.map (gatedGroup cfg engine primaryMap)).flatMap GatedGroup.args ++
            (memberOrder ms).flatMap fun m => ((ms.map (gatedGroup cfg engine primaryMap)).filter
              fun g => g.member = m).flatMap GatedGroup.args)) := by
    rw [Clause.emit, boundGate, erase, erase, eraseList_eq,
      eraseList_eq, holes_traceIn, holes_any]
    have hsql (m : Int) := congrArg Prod.fst (hhaving m)
    have hargs (m : Int) := congrArg Prod.snd (hhaving m)
    simp only [Clause.emit] at hsql hargs
    simp only [List.map_map, List.flatMap_map, hargs]
    refine Prod.ext ?_ rfl
    show traceIn () () _ ((memberOrder ms).map fun m =>
      (boundHaving cfg engine primaryMap ms m).erase) = _
    simp only [hsql]
    rfl
  by_cases hgated : gated primaryMap start stop ms
  · rw [if_pos hgated, hgate]
    simp only [allGroupsClause, horder]
    rw [gated, Bool.not_eq_true'] at hgated
    rw [hgated]
    rfl
  rw [if_neg hgated]
  simp only [allGroupsClause, horder]
  rw [gated, Bool.not_eq_true', Bool.not_eq_false] at hgated
  rw [hgated]
  rfl

theorem memberGroups_fst_ne (hx : x ∈ memberGroups groups) :
    x.1 ≠ [] ∧ ¬ isSourceGroup x.1 ∧ x.1 ∈ groups := by
  obtain ⟨hzip, hne⟩ := List.mem_filter.1 hx
  obtain ⟨hmem, hsource⟩ := List.mem_filter.1 (List.fst_mem_of_mem_zipIdx hzip)
  exact ⟨by simpa using hne, by simpa using hsource, hmem⟩

theorem attrGroupsClause_members (primaryMap : PrimaryMap) (start stop : Int)
    (hsource : ¬ groups.any isSourceGroup) :
    attrGroupsClause cfg engine primaryMap groups start stop =
      (boundMembers cfg engine primaryMap start stop (memberGroups groups)).map Clause.emit := by
  have hall : (groups.filter fun g => !isSourceGroup g) = groups := by
    rw [List.filter_eq_self]
    intro g hg
    have : ¬ isSourceGroup g := fun hsrc => hsource (List.any_eq_true.2 ⟨g, hg, hsrc⟩)
    simpa using this
  have hself : primaryMap ≠ .spanAttributes → ∀ x ∈ groups.zipIdx, x.1 ≠ [] →
      attrGroupsClause cfg engine .spanAttributes [stripDescendants x.1] 0 0 =
        some (Clause.any [boundGroup cfg engine .spanAttributes x.1]).emit := by
    intro _ x hx hne
    refine attrGroupsClause_onSpans hne fun hsrc => hsource (List.any_eq_true.2 ?_)
    exact ⟨x.1, List.fst_mem_of_mem_zipIdx hx, hsrc⟩
  have hms : memberGroups groups = groups.zipIdx.filter fun x => !x.1.isEmpty := by
    rw [memberGroups, hall]
  rw [attrGroupsClause_unfold, attrGroupsBody]
  simp only [not_isSourceGroup_of_filter hsource, Bool.not_true, Bool.false_eq_true, if_false]
  rw [addGroup_foldl groups.zipIdx {} hself, ← hms]
  simp only [List.nil_append, Bool.false_or, allGroupsClause_eq, List.isEmpty_map, boundMembers]
  by_cases hempty : (memberGroups groups).isEmpty
  · simp [hempty]
  simp only [hempty, Bool.false_eq_true, if_false]
  by_cases hgated : gated primaryMap start stop (memberGroups groups)
  · simp only [hgated, if_true, Option.map_some]
    simp [Clause.emit, erase, eraseList_eq]
  · simp only [hgated, Bool.false_eq_true, if_false, Option.map_some, emit_any]

theorem memberGroups_filter (groups : List (List LogAttrFilter)) :
    memberGroups (groups.filter fun g => !isSourceGroup g) = memberGroups groups := by
  simp only [memberGroups, List.filter_filter, Bool.and_self]

theorem attrGroupsClause_eq (primaryMap : PrimaryMap) (groups : List (List LogAttrFilter))
    (start stop : Int) :
    attrGroupsClause cfg engine primaryMap groups start stop =
      (boundGroups cfg engine primaryMap groups start stop).map Clause.emit := by
  by_cases hsource : groups.any isSourceGroup
  · have hsources : (groups.filter isSourceGroup).isEmpty = false := by
      rw [← Bool.not_eq_true]
      intro h
      obtain ⟨g, hg, hsrc⟩ := List.any_eq_true.1 hsource
      rw [List.isEmpty_iff, List.filter_eq_nil_iff] at h
      exact h g hg hsrc
    have hkept : ((groups.filter isSourceGroup).filter fun g => !g.isEmpty) =
        groups.filter isSourceGroup := by
      rw [List.filter_eq_self]
      intro g hg
      have hsrc := (List.mem_filter.1 hg).2
      cases g with
      | nil => simp [isSourceGroup] at hsrc
      | cons f g => rfl
    have hmembers : attrGroupsClause cfg engine primaryMap
        (groups.filter fun g => !isSourceGroup g) start stop = _ :=
      attrGroupsClause_members primaryMap start stop (by simp)
    rw [memberGroups_filter] at hmembers
    rw [attrGroupsClause_unfold, attrGroupsBody, hmembers]
    simp only [hsources, hkept, Bool.not_false, if_true, List.isEmpty_map, Bool.false_eq_true,
      if_false, boundGroups, andGroup_eq]
    cases boundMembers cfg engine primaryMap start stop (memberGroups groups) with
    | none =>
      simp only [Option.map_none, Option.map_some, emit_any, List.map_map, List.flatMap_map]
      rfl
    | some clause =>
      simp only [Option.map_some, emit_any, List.map_cons, List.flatMap_cons, List.map_map,
        List.flatMap_map]
      rfl
  · have hnone := not_isSourceGroup_of_filter hsource
    rw [attrGroupsClause_members primaryMap start stop hsource, boundGroups]
    simp only [List.isEmpty_map, hnone, if_true]

/-! ## It runs, and its text counts its arguments -/

theorem boundGroup_runsIn (primaryMap : PrimaryMap) (g : List LogAttrFilter) :
    (boundGroup cfg engine primaryMap g).runsIn (.table primaryMap) := by
  rw [boundGroup, runsIn, listRunsIn_iff, List.forall_mem_map]
  exact fun f _ => attrCond_runsOn cfg engine primaryMap f

theorem boundOnSpans_runsIn (primaryMap : PrimaryMap) (g : List LogAttrFilter) :
    (boundOnSpans cfg engine primaryMap g).runsIn (.table .spanAttributes) := by
  have hgroup : (boundGroup cfg engine .spanAttributes g).runsIn (.table .spanAttributes) :=
    boundGroup_runsIn .spanAttributes g
  unfold boundOnSpans
  split
  · exact hgroup
  · rw [runsIn, listRunsIn_iff]
    simpa using hgroup

theorem boundPart_runsIn (primaryMap : PrimaryMap) (start stop : Int) (g : List LogAttrFilter) :
    (boundPart cfg engine primaryMap start stop g).runsIn (.table primaryMap) := by
  have hgroup : (boundGroup cfg engine primaryMap g).runsIn (.table primaryMap) :=
    boundGroup_runsIn primaryMap g
  have hspans : (boundOnSpans cfg engine primaryMap g).runsIn (.table .spanAttributes) :=
    boundOnSpans_runsIn primaryMap g
  unfold boundPart
  by_cases hwidened : widened primaryMap start stop g
  · have htrace : primaryMap.hasTrace := by
      cases primaryMap with
      | metricAttributes => simp [widened] at hwidened
      | _ => rfl
    have hsubtree : (boundSubtree cfg engine primaryMap start stop g).runsIn
        (.table primaryMap) := by
      simp only [boundSubtree, runsIn, htrace, hspans, Bool.and_self]
    rw [if_pos hwidened]
    split
    · exact hsubtree
    · rw [runsIn, listRunsIn_iff]
      simp [hgroup, hsubtree]
  · rw [if_neg hwidened]
    exact hgroup

theorem alternatives_runsIn {place : Place} (h : ∀ alt ∈ alts, alt.runsIn place) :
    (alternatives alts).runsIn place := by
  match alts with
  | [] => rfl
  | [alt] => exact h alt List.mem_cons_self
  | alt :: alt' :: alts => exact listRunsIn_iff.2 h

theorem boundHaving_runsIn (primaryMap : PrimaryMap) (ms : List (List LogAttrFilter × Nat))
    (member : Int) : (boundHaving cfg engine primaryMap ms member).runsIn .having := by
  apply alternatives_runsIn
  simp only [List.forall_mem_map]
  exact fun x _ => boundOnSpans_runsIn primaryMap x.1

variable {ms : List (List LogAttrFilter × Nat)}

theorem boundMembers_runsIn (hc : boundMembers cfg engine primaryMap start stop ms = some c) :
    c.runsIn (.table primaryMap) := by
  have hunion : (Clause.any (ms.map fun x =>
      boundPart cfg engine primaryMap start stop x.1)).runsIn (.table primaryMap) := by
    rw [runsIn, listRunsIn_iff, List.forall_mem_map]
    exact fun x _ => boundPart_runsIn primaryMap start stop x.1
  unfold boundMembers at hc
  split at hc
  · cases hc
  by_cases hgated : gated primaryMap start stop ms
  · have htrace : primaryMap.hasTrace := by
      cases primaryMap with
      | metricAttributes => simp [gated] at hgated
      | _ => rfl
    have hgroups : (Clause.any (ms.map fun x =>
        boundOnSpans cfg engine primaryMap x.1)).runsIn (.table .spanAttributes) := by
      rw [runsIn, listRunsIn_iff, List.forall_mem_map]
      exact fun x _ => boundOnSpans_runsIn primaryMap x.1
    have hhaving : listRunsIn ((memberOrder ms).map
        (boundHaving cfg engine primaryMap ms)) .having := by
      rw [listRunsIn_iff, List.forall_mem_map]
      exact fun m _ => boundHaving_runsIn primaryMap ms m
    have hgate : (boundGate cfg engine primaryMap start stop ms).runsIn (.table primaryMap) := by
      simp only [boundGate, runsIn, htrace, Bool.true_and, Bool.and_eq_true]
      exact ⟨hgroups, hhaving⟩
    simp only [hgated, if_true] at hc
    cases hc
    rw [runsIn, listRunsIn_iff]
    simp [hunion, hgate]
  · simp only [hgated, Bool.false_eq_true, if_false] at hc
    cases hc
    exact hunion

theorem boundGroups_runsIn (hc : boundGroups cfg engine primaryMap groups start stop = some c) :
    c.runsIn (.table primaryMap) := by
  have hsources : listRunsIn ((groups.filter isSourceGroup).map
      (boundGroup cfg engine primaryMap)) (.table primaryMap) := by
    rw [listRunsIn_iff, List.forall_mem_map]
    exact fun g _ => boundGroup_runsIn primaryMap g
  unfold boundGroups at hc
  simp only at hc
  split at hc
  · exact boundMembers_runsIn hc
  split at hc
  · cases hc
    exact hsources
  rename_i clause hm
  cases hc
  rw [runsIn, listRunsIn, boundMembers_runsIn hm, hsources]
  rfl

theorem boundGroup_clean_iff (primaryMap : PrimaryMap) (g : List LogAttrFilter) :
    (boundGroup cfg engine primaryMap g).Clean ↔ ∀ f ∈ g, ¬ f.WritesMark cfg engine := by
  rw [boundGroup, Clause.Clean, listClean_iff, List.forall_mem_map]
  exact forall₂_congr fun f _ => attrCond_clean_iff engine

theorem boundOnSpans_clean_iff (primaryMap : PrimaryMap) (g : List LogAttrFilter) :
    (boundOnSpans cfg engine primaryMap g).Clean ↔ ∀ f ∈ g, ¬ f.WritesMark cfg engine := by
  have hgroup : (boundGroup cfg engine .spanAttributes g).Clean ↔
      ∀ f ∈ g, ¬ f.WritesMark cfg engine := boundGroup_clean_iff .spanAttributes g
  unfold boundOnSpans
  split
  · exact hgroup
  · show (boundGroup cfg engine .spanAttributes g).Clean ∧ True ↔ _
    rw [and_true, hgroup]

theorem boundPart_clean_iff (primaryMap : PrimaryMap) (start stop : Int) (g : List LogAttrFilter) :
    (boundPart cfg engine primaryMap start stop g).Clean ↔ ∀ f ∈ g, ¬ f.WritesMark cfg engine := by
  have hgroup : (boundGroup cfg engine primaryMap g).Clean ↔
      ∀ f ∈ g, ¬ f.WritesMark cfg engine := boundGroup_clean_iff primaryMap g
  have hsubtree : (boundSubtree cfg engine primaryMap start stop g).Clean ↔
      ∀ f ∈ g, ¬ f.WritesMark cfg engine := by
    show (boundOnSpans cfg engine primaryMap g).Clean ∧
      (boundOnSpans cfg engine primaryMap g).Clean ↔ _
    rw [and_self, boundOnSpans_clean_iff]
  unfold boundPart
  split
  · split
    · exact hsubtree
    · show (boundGroup cfg engine primaryMap g).Clean ∧
        (boundSubtree cfg engine primaryMap start stop g).Clean ∧ True ↔ _
      rw [and_true, hgroup, hsubtree, and_self]
  · exact hgroup

theorem alternatives_clean (h : ∀ alt ∈ alts, alt.Clean) : (alternatives alts).Clean := by
  match alts with
  | [] => trivial
  | [alt] => exact h alt List.mem_cons_self
  | alt :: alt' :: alts => exact listClean_iff.2 h

theorem boundHaving_clean (primaryMap : PrimaryMap)
    (h : ∀ x ∈ ms, ∀ f ∈ x.1, ¬ f.WritesMark cfg engine) (member : Int) :
    (boundHaving cfg engine primaryMap ms member).Clean := by
  apply alternatives_clean
  rw [List.forall_mem_map]
  exact fun x hx => (boundOnSpans_clean_iff primaryMap x.1).2 (h x (List.mem_filter.1 hx).1)

theorem boundMembers_clean_iff (hc : boundMembers cfg engine primaryMap start stop ms = some c) :
    c.Clean ↔ ∀ x ∈ ms, ∀ f ∈ x.1, ¬ f.WritesMark cfg engine := by
  have hunion : (Clause.any (ms.map fun x =>
      boundPart cfg engine primaryMap start stop x.1)).Clean ↔
      ∀ x ∈ ms, ∀ f ∈ x.1, ¬ f.WritesMark cfg engine := by
    rw [Clause.Clean, listClean_iff, List.forall_mem_map]
    exact forall₂_congr fun x _ => boundPart_clean_iff primaryMap start stop x.1
  have hgate (h : ∀ x ∈ ms, ∀ f ∈ x.1, ¬ f.WritesMark cfg engine) :
      (boundGate cfg engine primaryMap start stop ms).Clean := by
    refine ⟨listClean_iff.2 ?_, listClean_iff.2 ?_⟩
    · rw [List.forall_mem_map]
      exact fun x hx => (boundOnSpans_clean_iff primaryMap x.1).2 (h x hx)
    · rw [List.forall_mem_map]
      exact fun m _ => boundHaving_clean primaryMap h m
  unfold boundMembers at hc
  split at hc
  · cases hc
  simp only at hc
  split at hc <;> cases hc
  · constructor
    · exact fun h => hunion.1 h.1
    · exact fun h => ⟨hunion.2 h, hgate h, trivial⟩
  · exact hunion

theorem exists_memberGroups (hg : g ∈ groups) (hne : g ≠ []) (hsource : ¬ isSourceGroup g) :
    ∃ x ∈ memberGroups groups, x.1 = g := by
  have hkept : g ∈ groups.filter fun g => !isSourceGroup g :=
    List.mem_filter.2 ⟨hg, by simpa using hsource⟩
  obtain ⟨n, hn⟩ := List.mem_iff_getElem?.1 hkept
  refine ⟨(g, n), List.mem_filter.2 ⟨List.mk_mem_zipIdx_iff_getElem?.2 hn, ?_⟩, rfl⟩
  simpa using hne

theorem boundGroups_clean_iff (hc : boundGroups cfg engine primaryMap groups start stop = some c) :
    c.Clean ↔ ∀ g ∈ groups, ∀ f ∈ g, ¬ f.WritesMark cfg engine := by
  have hsources : Clause.ListClean ((groups.filter isSourceGroup).map
      (boundGroup cfg engine primaryMap)) ↔
      ∀ g ∈ groups.filter isSourceGroup, ∀ f ∈ g, ¬ f.WritesMark cfg engine := by
    rw [listClean_iff, List.forall_mem_map]
    exact forall₂_congr fun g _ => boundGroup_clean_iff primaryMap g
  have hapart : (∀ g ∈ groups, ∀ f ∈ g, ¬ f.WritesMark cfg engine) ↔
      (∀ x ∈ memberGroups groups, ∀ f ∈ x.1, ¬ f.WritesMark cfg engine) ∧
        ∀ g ∈ groups.filter isSourceGroup, ∀ f ∈ g, ¬ f.WritesMark cfg engine := by
    constructor
    · intro h
      refine ⟨fun x hx => h x.1 (memberGroups_fst_ne hx).2.2, fun g hg => ?_⟩
      exact h g (List.mem_filter.1 hg).1
    · intro h g hg f hf
      by_cases hsource : isSourceGroup g
      · exact h.2 g (List.mem_filter.2 ⟨hg, hsource⟩) f hf
      · obtain ⟨x, hx, rfl⟩ := exists_memberGroups hg (List.ne_nil_of_mem hf) hsource
        exact h.1 x hx f hf
  rw [hapart]
  unfold boundGroups at hc
  simp only at hc
  split at hc
  · next hempty =>
    rw [List.isEmpty_map, List.isEmpty_iff] at hempty
    rw [boundMembers_clean_iff hc, hempty]
    exact (and_iff_left fun g hg => absurd hg List.not_mem_nil).symm
  · split at hc
    · next hm =>
      cases hc
      have hnone : ∀ x ∈ memberGroups groups, ∀ f ∈ x.1, ¬ f.WritesMark cfg engine := by
        intro x hx
        unfold boundMembers at hm
        split at hm
        · next hempty =>
          rw [List.isEmpty_iff] at hempty
          rw [hempty] at hx
          cases hx
        · simp only at hm
          split at hm <;> cases hm
      rw [Clause.Clean, hsources, and_iff_right hnone]
    · next clause hm =>
      cases hc
      show clause.Clean ∧ Clause.ListClean _ ↔ _
      rw [boundMembers_clean_iff hm, hsources]

def NothingToMatch (groups : List (List LogAttrFilter)) : Prop := ∀ g ∈ groups, g = []

theorem boundGroups_eq_none :
    boundGroups cfg engine primaryMap groups start stop = none ↔ NothingToMatch groups := by
  have hmembers : boundMembers cfg engine primaryMap start stop (memberGroups groups) = none ↔
      memberGroups groups = [] := by
    unfold boundMembers
    split
    · rename_i h
      simpa using h
    · rename_i h
      simp only
      split <;> simpa using h
  have hsource {g : List LogAttrFilter} (h : isSourceGroup g) : g ≠ [] := by
    intro hnil
    subst hnil
    exact Bool.noConfusion h
  unfold boundGroups
  simp only
  constructor
  · intro h g hg
    by_contra hne
    by_cases hempty : ((groups.filter isSourceGroup).map (boundGroup cfg engine primaryMap)).isEmpty
    · rw [if_pos hempty, hmembers] at h
      have hnosource : ¬ isSourceGroup g := by
        intro hsrc
        have hmem : g ∈ groups.filter isSourceGroup := List.mem_filter.2 ⟨hg, hsrc⟩
        rw [List.isEmpty_map, List.isEmpty_iff] at hempty
        rw [hempty] at hmem
        exact List.not_mem_nil hmem
      obtain ⟨x, hmem, _⟩ := exists_memberGroups hg hne hnosource
      rw [h] at hmem
      exact List.not_mem_nil hmem
    · rw [if_neg hempty] at h
      split at h <;> cases h
  · intro h
    have hempty : groups.filter isSourceGroup = [] := by
      rw [List.filter_eq_nil_iff]
      intro g hg hsrc
      exact hsource hsrc (h g hg)
    have hnone : memberGroups groups = [] := by
      rw [List.eq_nil_iff_forall_not_mem]
      intro x hx
      exact (memberGroups_fst_ne hx).1 (h x.1 (memberGroups_fst_ne hx).2.2)
    rw [hempty, List.map_nil, List.isEmpty_nil, if_pos rfl]
    exact hmembers.2 hnone

end Bound

end Sluicio.Store
