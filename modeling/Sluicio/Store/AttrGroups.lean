import Sluicio.Store.AttrClause

/-!
# Attribute groups

`attrGroupsClause` renders a list of attribute groups against the table of a signal.
The filters of a group are AND-ed and the groups OR-ed.  A group marked as a source
stands beside the members' predicate; a group marked with descendants also selects the
spans below the ones it matches; and when the members are all required the row's trace
is asked for a span of each (`allGroupsClause`).

The source's function calls itself, for the members beside the sources and to render a
group against the spans.  The calls are three deep at the most, so `attrGroupsClause`
is its body applied three times over, and `attrGroupsClause_unfold` is the source's
recursive definition.  No clause is `none`.
-/

namespace Sluicio.Store

variable {F : Type}

/-- A clause's text and its arguments; `none` when there is nothing to match. -/
abbrev Compiled (F : Type) := Option (Clause Unit × List (Arg F))

/-- `time.Time.IsZero`, the zero time being `0`. -/
def isZero (t : Int) : Bool := t = 0

def isSourceGroup (g : List LogAttrFilter) : Bool := g.any LogAttrFilter.source

/-- `groupMemberOf`: the first member a filter names, or the group's own. -/
def groupMemberOf (g : List LogAttrFilter) (index : Nat) : Int :=
  match g.findSome? LogAttrFilter.member with
  | some m => m
  | none => -1 - index

def stripDescendants (g : List LogAttrFilter) : List LogAttrFilter :=
  g.map fun f => { f with descendants := false, requireAllGroups := false }

def subtreeClause (anchor : Clause Unit) (anchorArgs : List (Arg F)) (start stop : Int) :
    Clause Unit × List (Arg F) :=
  (.subtree anchor () () () () anchor,
    anchorArgs ++ [.time start, .time stop, .time start, .time stop] ++ anchorArgs)

/-- A group as the gate asks for it: `groups`, `args` and `members` at one index. -/
structure GatedGroup (F : Type) where
  sql : Clause Unit
  args : List (Arg F)
  member : Int

/-- One alternative stands bare, several are joined. -/
def alternatives {α : Type} : List (Clause α) → Clause α
  | [alt] => alt
  | alts => .any alts

def memberHaving (groups : List (GatedGroup F)) (member : Int) : Clause Unit :=
  alternatives ((groups.filter fun g => g.member = member).map fun g => .countIf g.sql)

/-- `allGroupsClause`: the row's trace satisfies every one of the members. -/
def allGroupsClause (primaryMap : PrimaryMap) (groups : List (GatedGroup F))
    (requireAll : Bool) (start stop : Int) : Compiled F :=
  let order := (groups.map GatedGroup.member).eraseDups
  if !requireAll || order.length < 2 || primaryMap = .metricAttributes || isZero start ||
      isZero stop then
    none
  else
    some (.traceIn () () (.any (groups.map GatedGroup.sql)) (order.map (memberHaving groups)),
      .time start :: .time stop :: (groups.flatMap GatedGroup.args ++
        order.flatMap fun m => (groups.filter fun g => g.member = m).flatMap GatedGroup.args))

structure GroupsLoop (F : Type) where
  orParts : List (Clause Unit) := []
  args : List (Arg F) := []
  gated : List (GatedGroup F) := []
  requireAll : Bool := false

section Compile

variable (cfg : EnvironmentConfig) (engine : Engine F)

/-- `andParts`, joined: the group's own condition, and its arguments. -/
def andGroup (primaryMap : PrimaryMap) (g : List LogAttrFilter) : Clause Unit × List (Arg F) :=
  (.all (g.map fun f => .cond (attrClauseIn cfg engine primaryMap f).1),
    g.flatMap fun f => (attrClauseIn cfg engine primaryMap f).2)

/-- The loop's body.  `self` renders the group against the spans for the gate and for
the anchors; it has a clause for every group that has a filter and is no source. -/
def addGroup (self : PrimaryMap → List (List LogAttrFilter) → Int → Int → Compiled F)
    (primaryMap : PrimaryMap) (start stop : Int) (loop : GroupsLoop F)
    (group : List LogAttrFilter × Nat) : GroupsLoop F :=
  let g := group.1
  if g.isEmpty then loop
  else
    let plain := andGroup cfg engine primaryMap g
    let onSpans :=
      if primaryMap = .spanAttributes then plain
      else (self .spanAttributes [stripDescendants g] 0 0).getD plain
    let part :=
      if !g.any LogAttrFilter.descendants || primaryMap = .metricAttributes || isZero start ||
          isZero stop then
        plain
      else
        let sub := subtreeClause onSpans.1 onSpans.2 start stop
        if primaryMap = .spanAttributes then sub
        else (.any [plain.1, sub.1], plain.2 ++ sub.2)
    { orParts := loop.orParts ++ [part.1]
      args := loop.args ++ part.2
      gated := loop.gated ++ [⟨onSpans.1, onSpans.2, groupMemberOf g group.2⟩]
      requireAll := loop.requireAll || g.any LogAttrFilter.requireAllGroups }

/-- The body of `attrGroupsClause`, `self` being its calls of itself. -/
def attrGroupsBody (self : PrimaryMap → List (List LogAttrFilter) → Int → Int → Compiled F)
    (primaryMap : PrimaryMap) (groups : List (List LogAttrFilter)) (start stop : Int) :
    Compiled F :=
  let members := groups.filter fun g => !isSourceGroup g
  let sources := groups.filter isSourceGroup
  if !sources.isEmpty then
    let clause := self primaryMap members start stop
    let srcParts := (sources.filter fun g => !g.isEmpty).map fun g =>
      (andGroup cfg engine primaryMap g).1
    let srcArgs := sources.flatMap fun g => (andGroup cfg engine primaryMap g).2
    if srcParts.isEmpty then clause
    else
      match clause with
      | none => some (.any srcParts, srcArgs)
      | some (sql, args) => some (.any (sql :: srcParts), args ++ srcArgs)
  else
    let loop := groups.zipIdx.foldl (addGroup cfg engine self primaryMap start stop) {}
    if loop.orParts.isEmpty then none
    else
      match allGroupsClause primaryMap loop.gated loop.requireAll start stop with
      | none => some (.any loop.orParts, loop.args)
      | some (gate, gateArgs) => some (.all [.any loop.orParts, gate], loop.args ++ gateArgs)

def attrGroupsClause : PrimaryMap → List (List LogAttrFilter) → Int → Int → Compiled F :=
  attrGroupsBody cfg engine (attrGroupsBody cfg engine (attrGroupsBody cfg engine
    fun _ _ _ _ => none))

/-! ## The calls are three deep -/

variable {cfg engine}

theorem isSourceGroup_stripDescendants (g : List LogAttrFilter) :
    isSourceGroup (stripDescendants g) = isSourceGroup g := by
  simp only [isSourceGroup, stripDescendants, List.any_map]
  rfl

theorem attrGroupsBody_congr
    {self self' : PrimaryMap → List (List LogAttrFilter) → Int → Int → Compiled F}
    {primaryMap : PrimaryMap} {groups : List (List LogAttrFilter)} {start stop : Int}
    (hmembers : groups.any isSourceGroup →
      self primaryMap (groups.filter fun g => !isSourceGroup g) start stop =
        self' primaryMap (groups.filter fun g => !isSourceGroup g) start stop)
    (hspans : primaryMap ≠ .spanAttributes → ¬ groups.any isSourceGroup → ∀ g ∈ groups,
      self .spanAttributes [stripDescendants g] 0 0 =
        self' .spanAttributes [stripDescendants g] 0 0) :
    attrGroupsBody cfg engine self primaryMap groups start stop =
      attrGroupsBody cfg engine self' primaryMap groups start stop := by
  by_cases hsource : groups.any isSourceGroup
  · have hsources : (groups.filter isSourceGroup).isEmpty = false := by
      rw [← Bool.not_eq_true, List.isEmpty_iff, List.filter_eq_nil_iff]
      intro h
      obtain ⟨g, hg, hsrc⟩ := List.any_eq_true.1 hsource
      exact h g hg hsrc
    simp only [attrGroupsBody, hsources, Bool.not_false, if_true, hmembers hsource]
  have hnone : (groups.filter isSourceGroup).isEmpty := by
    rw [List.isEmpty_iff, List.filter_eq_nil_iff]
    intro g hg hsrc
    exact hsource (List.any_eq_true.2 ⟨g, hg, hsrc⟩)
  have hloop : ∀ (l : List (List LogAttrFilter × Nat)) (acc : GroupsLoop F),
      (∀ x ∈ l, x.1 ∈ groups) →
      l.foldl (addGroup cfg engine self primaryMap start stop) acc =
        l.foldl (addGroup cfg engine self' primaryMap start stop) acc := by
    intro l
    induction l with
    | nil => exact fun _ _ => rfl
    | cons x l ih =>
      intro acc hl
      have hx : addGroup cfg engine self primaryMap start stop acc x =
          addGroup cfg engine self' primaryMap start stop acc x := by
        by_cases hspan : primaryMap = .spanAttributes
        · simp only [addGroup, hspan, if_true]
        · have := hspans hspan hsource x.1 (hl x List.mem_cons_self)
          simp only [addGroup, this]
      rw [List.foldl_cons, List.foldl_cons, hx]
      exact ih _ fun y hy => hl y (List.mem_cons_of_mem _ hy)
  have := hloop groups.zipIdx {} fun x hx => List.fst_mem_of_mem_zipIdx hx
  simp only [attrGroupsBody, hnone, Bool.not_true, Bool.false_eq_true, if_false, this]

/-- `attrGroupsClause` is the source's recursive definition. -/
theorem attrGroupsClause_unfold (primaryMap : PrimaryMap) (groups : List (List LogAttrFilter))
    (start stop : Int) :
    attrGroupsClause cfg engine primaryMap groups start stop =
      attrGroupsBody cfg engine (attrGroupsClause cfg engine) primaryMap groups start stop := by
  have hnosource (groups : List (List LogAttrFilter)) :
      ¬ (groups.filter fun g => !isSourceGroup g).any isSourceGroup := by
    simp
  -- against the spans nothing is called; then the spans are; then the members beside sources
  have hone (self self' : PrimaryMap → List (List LogAttrFilter) → Int → Int → Compiled F)
      (groups : List (List LogAttrFilter)) (start stop : Int) (h : ¬ groups.any isSourceGroup) :
      attrGroupsBody cfg engine self .spanAttributes groups start stop =
        attrGroupsBody cfg engine self' .spanAttributes groups start stop :=
    attrGroupsBody_congr (fun hs => absurd hs h) (fun hspan => absurd rfl hspan)
  have htwo (self self' : PrimaryMap → List (List LogAttrFilter) → Int → Int → Compiled F)
      (p : PrimaryMap) (groups : List (List LogAttrFilter)) (start stop : Int)
      (h : ¬ groups.any isSourceGroup) :
      attrGroupsBody cfg engine (attrGroupsBody cfg engine self) p groups start stop =
        attrGroupsBody cfg engine (attrGroupsBody cfg engine self') p groups start stop := by
    refine attrGroupsBody_congr (fun hs => absurd hs h) fun _ _ g hg => hone _ _ _ _ _ ?_
    intro hsrc
    apply h
    rw [List.any_eq_true]
    exact ⟨g, hg, by simpa [isSourceGroup_stripDescendants] using hsrc⟩
  have hthree (self self' : PrimaryMap → List (List LogAttrFilter) → Int → Int → Compiled F)
      (p : PrimaryMap) (groups : List (List LogAttrFilter)) (start stop : Int) :
      attrGroupsBody cfg engine (attrGroupsBody cfg engine (attrGroupsBody cfg engine self))
          p groups start stop =
        attrGroupsBody cfg engine (attrGroupsBody cfg engine (attrGroupsBody cfg engine self'))
          p groups start stop := by
    refine attrGroupsBody_congr (fun _ => htwo _ _ _ _ _ _ (hnosource groups)) ?_
    intro _ h g hg
    refine htwo _ _ _ _ _ _ ?_
    intro hsrc
    apply h
    rw [List.any_eq_true]
    exact ⟨g, hg, by simpa [isSourceGroup_stripDescendants] using hsrc⟩
  exact hthree _ (attrGroupsBody cfg engine fun _ _ _ _ => none) primaryMap groups start stop

end Compile

end Sluicio.Store
