import Sluicio.Integrations.Resolver
import Sluicio.Lib.Ordered
import Sluicio.Store.Selection

/-!
# The groups of an integration's matchers

The matchers of an integration become the attribute groups that its telemetry queries carry:
one group for each `match_group`, its filters in the order of the matchers, the groups in
the order of their numbers.  Each filter names the member its group belongs to, so no group
is left to be a member of its own.
-/

namespace Sluicio.Integrations

open Store (LogAttrFilter AttrOp isSourceGroup memberGroups MembersApart)

structure GroupedMatcher extends Matcher where
  matchGroup : Int := 0
  includeDescendants : Bool := false
  member : Option Int := none
  deriving DecidableEq

def GroupedMatcher.memberID (m : GroupedMatcher) : Int := m.member.getD m.matchGroup

/-- `RuleMatch`; an empty value reads as `any`. -/
inductive RuleMatch where
  | any | all
  deriving DecidableEq

def RuleMatch.requiresAll (mode : RuleMatch) : Bool := mode = .all

/-- The operator of `attrFilterFromMatcher`; one it does not know is an equality. -/
def attrOpOf : Operator → AttrOp
  | .startsWith => .startsWith
  | .endsWith => .endsWith
  | .contains => .contains
  | .regex => .regex
  | .notEquals => .neq
  | .notContains => .notContains
  | .keyExists => .present
  | .keyNotExists => .absent
  | .equals | .other => .eq

def attrFilterFromMatcher (m : GroupedMatcher) : LogAttrFilter where
  key := m.attr
  op := attrOpOf m.operator
  value := m.value
  descendants := m.includeDescendants

def taggedFilter (mode : RuleMatch) (m : GroupedMatcher) : LogAttrFilter :=
  { attrFilterFromMatcher m with
    requireAllGroups := mode.requiresAll
    member := some m.memberID }

/-- The group numbers, ascending. -/
def groupOrder (matchers : List GroupedMatcher) : List Int :=
  Lib.orderBy id (matchers.map GroupedMatcher.matchGroup).eraseDups

def attrGroupsFromMatchers (matchers : List GroupedMatcher) (mode : RuleMatch) :
    List (List LogAttrFilter) :=
  (groupOrder matchers).map fun g =>
    (matchers.filter fun m => m.matchGroup = g).map (taggedFilter mode)

/-- The environment filter that `WithEnvironment` adds to a group. -/
def environmentFilter (op : AttrOp) (value : String) (g : List LogAttrFilter) : LogAttrFilter :=
  match g with
  | [] => { key := Store.environmentAttrKey, op := op, value := value }
  | f :: _ =>
    { key := Store.environmentAttrKey, op := op, value := value,
      requireAllGroups := f.requireAllGroups, member := f.member }

/-- `WithEnvironment`, for any operator. -/
def narrowed (op : AttrOp) (value : String) (groups : List (List LogAttrFilter)) :
    List (List LogAttrFilter) :=
  if groups = [] then [[environmentFilter op value []]]
  else groups.map fun g => g ++ [environmentFilter op value g]

def quoteMeta (s : String) : String :=
  String.ofList (s.toList.flatMap fun c =>
    if c ∈ "\\.+*?()|[]\x7b\x7d^$".toList then ['\\', c] else [c])

/-- `WithEnvironments`: one environment is an equality, several a match of the whole name. -/
def withEnvironments (groups : List (List LogAttrFilter)) (envs : List String) :
    List (List LogAttrFilter) :=
  match envs with
  | [] => groups
  | [env] => narrowed .eq env groups
  | envs => narrowed .regex ("^(?:" ++ "|".intercalate (envs.map quoteMeta) ++ ")$") groups

/-- `integrationGroups`, for a request that reads the environments `envs`. -/
def integrationGroups (matchers : List GroupedMatcher) (mode : RuleMatch)
    (envs : List String) : List (List LogAttrFilter) :=
  withEnvironments (attrGroupsFromMatchers matchers mode) envs

/-! ## Every group names its member -/

/-- Groups as the matchers give them: none is empty or a source, and a group that names no
member is the only one. -/
structure FromMatchers (groups : List (List LogAttrFilter)) : Prop where
  nonempty : ∀ g ∈ groups, g ≠ []
  noSource : ∀ g ∈ groups, ¬ isSourceGroup g
  named : (∀ g ∈ groups, g.findSome? LogAttrFilter.member ≠ none) ∨ ∃ g, groups = [g]

theorem attrGroupsFromMatchers_fromMatchers (matchers : List GroupedMatcher)
    (mode : RuleMatch) : FromMatchers (attrGroupsFromMatchers matchers mode) := by
  have hgroup : ∀ g ∈ attrGroupsFromMatchers matchers mode, ∃ m ∈ matchers,
      taggedFilter mode m ∈ g ∧ ∀ f ∈ g, f.source = false ∧ f.member ≠ none := by
    intro g hg
    obtain ⟨n, hn, rfl⟩ := List.mem_map.1 hg
    have hn' : n ∈ matchers.map GroupedMatcher.matchGroup := by
      simpa [groupOrder, List.mem_eraseDups] using hn
    obtain ⟨m, hm, hmn⟩ := List.mem_map.1 hn'
    refine ⟨m, hm, List.mem_map.2 ⟨m, List.mem_filter.2 ⟨hm, by simpa using hmn⟩, rfl⟩, ?_⟩
    intro f hf
    obtain ⟨m', _, rfl⟩ := List.mem_map.1 hf
    simp [taggedFilter, attrFilterFromMatcher]
  constructor
  · intro g hg hnil
    obtain ⟨m, _, hmem, _⟩ := hgroup g hg
    rw [hnil] at hmem
    cases hmem
  · intro g hg hsource
    obtain ⟨_, _, _, hall⟩ := hgroup g hg
    obtain ⟨f, hf, hsrc⟩ := List.any_eq_true.1 hsource
    rw [(hall f hf).1] at hsrc
    cases hsrc
  · left
    intro g hg hnone
    obtain ⟨m, _, hmem, hall⟩ := hgroup g hg
    exact (hall _ hmem).2 (List.findSome?_eq_none_iff.1 hnone _ hmem)

theorem FromMatchers.narrowed {groups : List (List LogAttrFilter)} (h : FromMatchers groups)
    (op : AttrOp) (value : String) : FromMatchers (narrowed op value groups) := by
  unfold Integrations.narrowed
  split
  · exact {
      nonempty := fun g hg => by rw [List.mem_singleton.1 hg]; exact List.cons_ne_nil _ _
      noSource := fun g hg => by
        rw [List.mem_singleton.1 hg]
        simp [isSourceGroup, environmentFilter]
      named := Or.inr ⟨_, rfl⟩ }
  constructor
  · intro g hg
    obtain ⟨g₀, _, rfl⟩ := List.mem_map.1 hg
    simp
  · intro g hg hsource
    obtain ⟨g₀, hg₀, rfl⟩ := List.mem_map.1 hg
    have hadded : (environmentFilter op value g₀).source = false := by cases g₀ <;> rfl
    have hold : isSourceGroup g₀ = false := by simpa using h.noSource g₀ hg₀
    rw [isSourceGroup, List.any_append] at hsource
    simp only [isSourceGroup] at hold
    simp [hold, hadded] at hsource
  · rcases h.named with hnamed | ⟨g, rfl⟩
    · left
      intro g hg hnone
      obtain ⟨g₀, hg₀, rfl⟩ := List.mem_map.1 hg
      rw [List.findSome?_append] at hnone
      cases hfirst : g₀.findSome? LogAttrFilter.member with
      | none => exact hnamed g₀ hg₀ hfirst
      | some m => simp [hfirst] at hnone
    · exact Or.inr ⟨_, rfl⟩

theorem integrationGroups_fromMatchers (matchers : List GroupedMatcher) (mode : RuleMatch)
    (envs : List String) : FromMatchers (integrationGroups matchers mode envs) := by
  have hgroups := attrGroupsFromMatchers_fromMatchers matchers mode
  unfold integrationGroups withEnvironments
  split
  · exact hgroups
  · exact hgroups.narrowed _ _
  · exact hgroups.narrowed _ _

variable {groups : List (List LogAttrFilter)}

theorem FromMatchers.memberGroups_eq (h : FromMatchers groups) :
    memberGroups groups = groups.zipIdx := by
  have hmembers : (groups.filter fun g => !isSourceGroup g) = groups := by
    rw [List.filter_eq_self]
    intro g hg
    simpa using h.noSource g hg
  rw [memberGroups, hmembers, List.filter_eq_self]
  intro x hx
  simpa using h.nonempty x.1 (List.fst_mem_of_mem_zipIdx hx)

theorem FromMatchers.membersApart (h : FromMatchers groups) : MembersApart groups := by
  intro x hx y hy hnone hsome
  rw [h.memberGroups_eq] at hx hy
  rcases h.named with hnamed | ⟨g, rfl⟩
  · exact hnamed y.1 (List.fst_mem_of_mem_zipIdx hy) hnone
  · have hxg : x.1 = g := List.mem_singleton.1 (List.fst_mem_of_mem_zipIdx hx)
    have hyg : y.1 = g := List.mem_singleton.1 (List.fst_mem_of_mem_zipIdx hy)
    rw [hyg] at hnone
    rw [hxg, hnone] at hsome
    cases hsome

end Sluicio.Integrations
