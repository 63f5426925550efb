import Mathlib.Data.List.Infix
import Sluicio.Lib.Run
import Sluicio.Alerting.Types

/-!
# The integration resolver's cache

`IntegrationsFor` answers from the matchers it loaded last, as long as they are fresh.
The look at the cache, the query and the write of its result are separate steps, so
calls of several organizations, changes of the store and invalidations interleave with
them.
-/

namespace Sluicio.Integrations

open Lib Alerting

inductive Operator where
  | equals | startsWith | endsWith | contains | regex
  | notEquals | notContains
  | keyExists | keyNotExists
  | other
  deriving DecidableEq

structure Matcher where
  attr : String
  operator : Operator
  value : String
  deriving DecidableEq

def Matcher.isServiceMatcher (m : Matcher) : Bool :=
  m.attr = "" || m.attr = "service.name"

/-- `Match`.  `compile` is `regexp.Compile`; a pattern that does not compile matches
nothing. -/
def Matcher.matchService (compile : String → Option (String → Bool)) (m : Matcher)
    (serviceName : String) : Bool :=
  match m.operator with
  | .equals => serviceName = m.value
  | .startsWith => m.value.toList.isPrefixOf serviceName.toList
  | .endsWith => m.value.toList.isSuffixOf serviceName.toList
  | .contains => decide (m.value.toList <:+: serviceName.toList)
  | .regex =>
    match compile m.value with
    | some re => re serviceName
    | none => false
  | .notEquals => serviceName != m.value
  | .notContains => !decide (m.value.toList <:+: serviceName.toList)
  | .keyExists | .keyNotExists | .other => false

structure Integration where
  id : UUID
  organizationID : UUID
  name : String
  deriving DecidableEq

structure MatcherWithIntegration where
  matcher : Matcher
  integration : Integration
  deriving DecidableEq

def allMatchersWithIntegration (table : List MatcherWithIntegration) (orgID : UUID) :
    List MatcherWithIntegration :=
  table.filter fun mi => mi.integration.organizationID = orgID

/-- The loop of `IntegrationsFor`: each integration once, for its service matchers. -/
def classify (compile : String → Option (String → Bool)) (serviceName : String) :
    List UUID → List MatcherWithIntegration → List Integration
  | _, [] => []
  | seen, mi :: rest =>
    if mi.integration.id ∈ seen then classify compile serviceName seen rest
    else if mi.matcher.isServiceMatcher && mi.matcher.matchService compile serviceName then
      mi.integration :: classify compile serviceName (mi.integration.id :: seen) rest
    else classify compile serviceName seen rest

variable {i : Integration} {compile : String → Option (String → Bool)} {seen : List UUID}
  {serviceName : String}

theorem mem_classify {rows : List MatcherWithIntegration}
    (h : i ∈ classify compile serviceName seen rows) : ∃ mi ∈ rows, mi.integration = i := by
  induction rows generalizing seen with
  | nil => cases h
  | cons mi rest ih =>
    have hrest : ∀ {seen'}, i ∈ classify compile serviceName seen' rest →
        ∃ mi' ∈ mi :: rest, mi'.integration = i := by
      intro seen' hi
      obtain ⟨mi', hmi', heq⟩ := ih hi
      exact ⟨mi', List.mem_cons_of_mem _ hmi', heq⟩
    unfold classify at h
    split at h
    · exact hrest h
    split at h
    · rcases List.mem_cons.1 h with rfl | hi
      · exact ⟨mi, List.mem_cons_self, rfl⟩
      · exact hrest hi
    · exact hrest h

/-- **An organization's own matchers name its own integrations.** -/
theorem organizationID_of_classify {table : List MatcherWithIntegration} {orgID : UUID}
    (h : i ∈ classify compile serviceName seen (allMatchersWithIntegration table orgID)) :
    i.organizationID = orgID := by
  obtain ⟨mi, hmi, rfl⟩ := mem_classify h
  simpa using (List.mem_filter.1 hmi).2

/-! ## The cache and its calls -/

/-- The rows of one query.  For whom and from which contents of the store they were read
is not kept by the resolver: the two fields only record it. -/
structure Loaded where
  orgID : UUID
  version : Nat
  matchers : List MatcherWithIntegration
  deriving DecidableEq

/-- How far a call of `IntegrationsFor` has come. -/
inductive Phase where
  | missed
  /-- it has queried the store, and has not written the cache yet -/
  | queried (loaded : Loaded)
  | answered (ints : List Integration)
  | failed
  deriving DecidableEq

/-- `since` is the version of the store at the last invalidation before the call. -/
structure Call where
  orgID : UUID
  serviceName : String
  since : Nat
  phase : Phase
  deriving DecidableEq

/-- The resolver, the store it reads with the contents it had before, and the calls. -/
structure State where
  ttl : Duration
  compile : String → Option (String → Bool)
  table : List MatcherWithIntegration
  past : List (List MatcherWithIntegration) := []
  now : Time := 0
  loadedAt : Option Time := none
  cache : Loaded := ⟨0, 0, []⟩
  invalidated : Nat := 0
  calls : List Call := []

/-- The contents of the store, oldest first. -/
def State.versions (s : State) : List (List MatcherWithIntegration) := s.past ++ [s.table]

def State.fresh (s : State) : Bool :=
  match s.loadedAt with
  | some t => (s.now : Int) - t < s.ttl
  | none => false

inductive Action where
  | start (orgID : UUID) (serviceName : String)
  | query (k : Nat) (fails : Bool)
  | store (k : Nat)
  | invalidate
  | change (table : List MatcherWithIntegration)
  | advance (d : Nat)

def State.step (s : State) : Action → State
  | .start orgID serviceName =>
    { s with
      calls := s.calls ++ [{
        orgID := orgID, serviceName := serviceName, since := s.invalidated
        phase := if s.fresh then .answered (classify s.compile serviceName [] s.cache.matchers)
                 else .missed }] }
  | .query k fails =>
    match s.calls[k]? with
    | some ⟨orgID, serviceName, since, .missed⟩ =>
      { s with
        calls := s.calls.set k ⟨orgID, serviceName, since,
          if fails then .failed
          else .queried ⟨orgID, s.past.length, allMatchersWithIntegration s.table orgID⟩⟩ }
    | _ => s
  | .store k =>
    match s.calls[k]? with
    | some ⟨orgID, serviceName, since, .queried loaded⟩ =>
      { s with
        cache := loaded, loadedAt := some s.now
        calls := s.calls.set k ⟨orgID, serviceName, since,
          .answered (classify s.compile serviceName [] loaded.matchers)⟩ }
    | _ => s
  | .invalidate => { s with loadedAt := none, invalidated := s.past.length }
  | .change table => { s with past := s.past ++ [s.table], table := table }
  | .advance d => { s with now := s.now + d }

/-! ## Tenant isolation and freshness -/

/-- The integrations a call returned belong to its organization. -/
def Call.Isolated (c : Call) : Prop :=
  ∀ ints, c.phase = .answered ints → ∀ i ∈ ints, i.organizationID = c.orgID

/-- A call returned what its organization's matchers say in some contents of the store
that are no older than the last invalidation before the call. -/
def State.Current (s : State) (c : Call) : Prop :=
  ∀ ints, c.phase = .answered ints → ∃ version table, c.since ≤ version ∧
    s.versions[version]? = some table ∧
    ints = classify s.compile c.serviceName [] (allMatchersWithIntegration table c.orgID)

/-- No call finds a fresh cache that another organization's call has written, and none
writes rows that it read before the changes of an invalidation. -/
def KeepsCache (s : State) : Action → Prop
  | .start orgID _ => s.fresh → s.cache.orgID = orgID
  | .store k => ∀ c loaded, s.calls[k]? = some c → c.phase = .queried loaded →
      s.invalidated ≤ loaded.version
  | _ => True

/-- The rows are what the store held, for an organization, at their version. -/
def State.Read (s : State) (l : Loaded) : Prop :=
  ∃ table, s.versions[l.version]? = some table ∧
    l.matchers = allMatchersWithIntegration table l.orgID

/-- Rows a call may answer from. -/
def State.Serves (s : State) (c : Call) (l : Loaded) : Prop :=
  l.orgID = c.orgID ∧ c.since ≤ l.version ∧ s.Read l

def State.CallSound (s : State) (c : Call) : Prop :=
  match c.phase with
  | .missed | .failed => c.since ≤ s.past.length
  | .queried loaded => s.Serves c loaded
  | .answered ints => ∃ loaded, s.Serves c loaded ∧
      ints = classify s.compile c.serviceName [] loaded.matchers

structure State.Sound (s : State) : Prop where
  invalidated : s.invalidated ≤ s.past.length
  cache : s.loadedAt.isSome → s.invalidated ≤ s.cache.version ∧ s.Read s.cache
  calls : ∀ c ∈ s.calls, s.CallSound c

section Sound

variable {s t : State}

theorem State.sound_init (ttl : Duration) (compile : String → Option (String → Bool))
    (table : List MatcherWithIntegration) :
    State.Sound { ttl := ttl, compile := compile, table := table } :=
  ⟨Nat.zero_le _, by simp, by simp⟩

variable {c : Call}

theorem State.CallSound.congr (h : s.CallSound c) (hread : ∀ l, s.Read l → t.Read l)
    (hpast : s.past.length ≤ t.past.length) (hcompile : t.compile = s.compile) : t.CallSound c := by
  unfold State.CallSound at h ⊢
  rw [hcompile]
  split at h
  · exact Nat.le_trans h hpast
  · exact Nat.le_trans h hpast
  · exact ⟨h.1, h.2.1, hread _ h.2.2⟩
  · obtain ⟨loaded, hserves, hints⟩ := h
    exact ⟨loaded, ⟨hserves.1, hserves.2.1, hread _ hserves.2.2⟩, hints⟩

theorem State.Read.change {l : Loaded} (h : s.Read l) (table : List MatcherWithIntegration) :
    (s.step (.change table)).Read l := by
  obtain ⟨old, hold, hrows⟩ := h
  refine ⟨old, ?_, hrows⟩
  have hlt := (List.getElem?_eq_some_iff.1 hold).1
  show (s.versions ++ [table])[l.version]? = some old
  rw [List.getElem?_append_left hlt]
  exact hold

theorem State.Sound.set (h : s.Sound) {k : Nat} (hc : s.CallSound c) :
    ∀ c' ∈ s.calls.set k c, s.CallSound c' := by
  intro c' hc'
  rcases List.mem_or_eq_of_mem_set hc' with hold | rfl
  · exact h.calls c' hold
  · exact hc

theorem State.read_current (s : State) (orgID : UUID) :
    s.Read ⟨orgID, s.past.length, allMatchersWithIntegration s.table orgID⟩ :=
  ⟨s.table, by simp [State.versions], rfl⟩

theorem State.Sound.start (h : s.Sound) {orgID : UUID} {serviceName : String}
    (hkeeps : KeepsCache s (.start orgID serviceName)) :
    (s.step (.start orgID serviceName)).Sound where
  invalidated := h.invalidated
  cache := h.cache
  calls := by
    intro c hc
    rcases List.mem_append.1 hc with hold | hnew
    · exact (h.calls c hold).congr (fun _ hl => hl) (Nat.le_refl _) rfl
    obtain rfl := List.mem_singleton.1 hnew
    unfold State.CallSound
    cases hfresh : s.fresh with
    | false => exact h.invalidated
    | true =>
      have hloaded : s.loadedAt.isSome := by
        unfold State.fresh at hfresh
        split at hfresh
        · next t hat => simp [hat]
        · cases hfresh
      obtain ⟨hversion, hread⟩ := h.cache hloaded
      exact ⟨s.cache, ⟨hkeeps hfresh, hversion, hread⟩, rfl⟩

theorem State.Sound.query (h : s.Sound) (k : Nat) (fails : Bool) :
    (s.step (.query k fails)).Sound := by
  simp only [State.step]
  split
  · next orgID serviceName since hk =>
    have hc : since ≤ s.past.length := h.calls _ (List.mem_of_getElem? hk)
    refine ⟨h.invalidated, h.cache, ?_⟩
    refine State.Sound.set h ?_
    cases fails with
    | true => exact hc
    | false => exact ⟨rfl, hc, s.read_current orgID⟩
  · exact h

theorem State.Sound.store (h : s.Sound) {k : Nat} (hkeeps : KeepsCache s (.store k)) :
    (s.step (.store k)).Sound := by
  simp only [State.step]
  split
  · next orgID serviceName since loaded hk =>
    have hc : s.Serves ⟨orgID, serviceName, since, .queried loaded⟩ loaded :=
      h.calls _ (List.mem_of_getElem? hk)
    have hversion := hkeeps _ loaded hk rfl
    refine ⟨h.invalidated, fun _ => ⟨hversion, hc.2.2⟩, ?_⟩
    exact State.Sound.set h ⟨loaded, hc, rfl⟩
  · exact h

/-- **Step lemma.** -/
theorem State.Sound.step (h : s.Sound) {a : Action} (hkeeps : KeepsCache s a) :
    (s.step a).Sound := by
  cases a with
  | start orgID serviceName => exact h.start hkeeps
  | query k fails => exact h.query k fails
  | store k => exact h.store hkeeps
  | invalidate => exact ⟨Nat.le_refl _, by simp [State.step], h.calls⟩
  | advance d => exact ⟨h.invalidated, h.cache, h.calls⟩
  | change table =>
    have hpast : s.past.length ≤ (s.step (.change table)).past.length := by
      simp [State.step]
    refine ⟨Nat.le_trans h.invalidated hpast, fun hloaded => ?_, fun c hc => ?_⟩
    · obtain ⟨hversion, hread⟩ := h.cache hloaded
      exact ⟨hversion, hread.change table⟩
    · exact (h.calls c hc).congr (fun _ hl => hl.change table) hpast rfl

theorem State.Sound.current (h : s.Sound) (hc : c ∈ s.calls) : s.Current c := by
  intro ints hints
  have hsound := h.calls c hc
  unfold State.CallSound at hsound
  rw [hints] at hsound
  obtain ⟨loaded, ⟨horg, hsince, table, htable, hrows⟩, rfl⟩ := hsound
  exact ⟨loaded.version, table, hsince, htable, by rw [hrows, horg]⟩

theorem State.Current.isolated (h : s.Current c) : c.Isolated := by
  intro ints hints i hi
  obtain ⟨_, _, _, _, rfl⟩ := h ints hints
  exact organizationID_of_classify hi

end Sound

/-- **Isolation and freshness.**  In every interleaving of calls, changes and
invalidations in which no call finds another organization's rows fresh and no rows from
before an invalidation are written after it. -/
theorem isolated_of_keepsCache (ttl : Duration) (compile : String → Option (String → Bool))
    (table : List MatcherWithIntegration) (as : List Action)
    (hrun : StepsMeet State.step KeepsCache { ttl := ttl, compile := compile, table := table } as) :
    ∀ c ∈ (run State.step { ttl := ttl, compile := compile, table := table } as).calls,
      c.Isolated ∧
        (run State.step { ttl := ttl, compile := compile, table := table } as).Current c := by
  have hend : (run State.step { ttl := ttl, compile := compile, table := table } as).Sound :=
    hrun.invariant (fun _ _ h ha => h.step ha) (State.sound_init ttl compile table)
  intro c hc
  have hcurrent := hend.current hc
  exact ⟨hcurrent.isolated, hcurrent⟩

private def orders : MatcherWithIntegration :=
  ⟨⟨"", .equals, "api"⟩, ⟨10, 1, "orders"⟩⟩

private def resolver (table : List MatcherWithIntegration) : State :=
  { ttl := 5 * second, compile := fun _ => none, table := table }

private def ordersAdded : List Action :=
  [.start 1 "api", .query 0 false, .store 0, .change [orders], .invalidate, .start 1 "api",
    .query 1 false, .store 1]

theorem isolated_example :
    (Call.mk 1 "api" 1 (.answered [⟨10, 1, "orders"⟩])).Isolated ∧
      (run State.step (resolver []) ordersAdded).Current
        ⟨1, "api", 1, .answered [⟨10, 1, "orders"⟩]⟩ := by
  refine isolated_of_keepsCache (5 * second) (fun _ => none) [] ordersAdded
    ⟨fun hfresh => (nomatch hfresh), trivial, ?_, trivial, trivial,
      fun hfresh => (nomatch hfresh), trivial, ?_, trivial⟩
    ⟨1, "api", 1, .answered [⟨10, 1, "orders"⟩]⟩ (by decide +kernel)
  · intro c loaded hc hphase
    exact Nat.zero_le _
  · intro c loaded hc hphase
    obtain rfl := Option.some.inj hc
    cases hphase
    exact Nat.le_refl _

private def twoOrganizations : State :=
  run State.step (resolver [orders]) [.start 1 "api", .query 0 false, .store 0, .start 2 "api"]

/-- The first call queries, the integration is deleted, the cache is invalidated, and the
first call writes what it read. -/
private def overtaken : State :=
  run State.step (resolver [orders])
    [.start 1 "api", .query 0 false, .change [], .invalidate, .store 0, .start 1 "api"]

/-- Another organization's integrations are returned while the cache is fresh, and a load
that an invalidation overtakes brings the old ones back. -/
theorem cache_shared_and_stale :
    (∃ c ∈ twoOrganizations.calls, ¬ c.Isolated) ∧
      ∃ c ∈ overtaken.calls, ¬ overtaken.Current c := by
  constructor
  · refine ⟨⟨2, "api", 0, .answered [⟨10, 1, "orders"⟩]⟩, by decide +kernel, fun h => ?_⟩
    exact absurd (h _ rfl ⟨10, 1, "orders"⟩ List.mem_cons_self) (by decide)
  · refine ⟨⟨1, "api", 1, .answered [⟨10, 1, "orders"⟩]⟩, by decide +kernel, fun h => ?_⟩
    obtain ⟨version, table, hsince, htable, hints⟩ := h _ rfl
    have hversions : overtaken.versions = [[orders], []] := by decide +kernel
    rw [hversions] at htable
    match version, hsince with
    | 1, _ =>
      obtain rfl := Option.some.inj htable
      cases hints
    | _ + 2, _ => cases htable

end Sluicio.Integrations
