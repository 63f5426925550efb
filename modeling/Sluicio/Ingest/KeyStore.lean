import Sluicio.Catalog
import Sluicio.Lib.Run

/-!
# The ingest key cache

A key that a collector presents is looked up by its hash, first in the cache and then, on a
miss, in the table of keys.  `Refresh` builds the cache anew from the keys that are not
revoked; a lookup that found a row puts it into whatever cache there is by then.  Neither
holds the lock while it reads the table, so calls are taken apart into the statements
between which others may run.
-/

namespace Sluicio.Ingest

open Lib

/-- A row of `ingest_keys`. -/
structure IngestKey where
  id : UUID
  organization : UUID
  keyHash : String
  revoked : Bool := false

/-- The table `ingest_keys`, whose hashes are unique. -/
structure KeyTable where
  rows : List IngestKey
  unique : (rows.map IngestKey.keyHash).Nodup

/-- `map[string]uuid.UUID`, hash to organization. -/
abbrev KeyMap := List (String × UUID)

/-- `m[h] = org`. -/
def KeyMap.put (m : KeyMap) (h : String) (org : UUID) : KeyMap :=
  (h, org) :: m.filter fun e => e.1 ≠ h

namespace KeyTable

/-- `SELECT key_hash, organization_id FROM ingest_keys WHERE revoked_at IS NULL`. -/
def live (t : KeyTable) : KeyMap :=
  (t.rows.filter fun k => !k.revoked).map fun k => (k.keyHash, k.organization)

/-- `SELECT organization_id … WHERE key_hash = $1 AND revoked_at IS NULL`. -/
def liveOrg (t : KeyTable) (h : String) : Option UUID := t.live.lookup h

def revoked (t : KeyTable) : List String :=
  (t.rows.filter IngestKey.revoked).map IngestKey.keyHash

/-- The row, with `revoked_at` set when it is the organization's key. -/
def revokedRow (org id : UUID) (k : IngestKey) : IngestKey :=
  if k.id = id ∧ k.organization = org then { k with revoked := true } else k

theorem revokedRow_keyHash (org id : UUID) (k : IngestKey) :
    (revokedRow org id k).keyHash = k.keyHash := by
  unfold revokedRow
  split <;> rfl

theorem revokedRow_revoked {org id : UUID} {k : IngestKey} (h : k.revoked) :
    (revokedRow org id k).revoked := by
  unfold revokedRow
  split
  · rfl
  · exact h

def revoke (t : KeyTable) (org id : UUID) : KeyTable where
  rows := t.rows.map (revokedRow org id)
  unique := by
    have hsame : IngestKey.keyHash ∘ revokedRow org id = IngestKey.keyHash :=
      funext (revokedRow_keyHash org id)
    rw [List.map_map, hsame]
    exact t.unique

/-- `Create`; a hash that is there already is refused. -/
def create (t : KeyTable) (key : IngestKey) : KeyTable :=
  if hnew : key.keyHash ∈ t.rows.map IngestKey.keyHash then t
  else
    { rows := key :: t.rows
      unique := List.nodup_cons.2 ⟨hnew, t.unique⟩ }

variable {t : KeyTable} {h : String}

theorem not_live_of_revoked (hrevoked : h ∈ t.revoked) : ∀ e ∈ t.live, e.1 ≠ h := by
  intro e he heq
  obtain ⟨k, hk, rfl⟩ := List.mem_map.1 he
  obtain ⟨k', hk', hsame⟩ := List.mem_map.1 hrevoked
  have hlive := List.mem_filter.1 hk
  have hdead := List.mem_filter.1 hk'
  have hkey : k = k' :=
    List.inj_on_of_nodup_map t.unique hlive.1 hdead.1 (heq.trans hsame.symm)
  have hnot : k.revoked = false := by simpa using hlive.2
  rw [hkey, hdead.2] at hnot
  cases hnot

theorem liveOrg_of_revoked (hrevoked : h ∈ t.revoked) : t.liveOrg h = none := by
  rw [liveOrg, List.lookup_eq_none_iff]
  intro e he
  have hne := not_live_of_revoked hrevoked e he
  simpa using fun heq => hne heq.symm

theorem revoked_revoke {org id : UUID} (hrevoked : h ∈ t.revoked) :
    h ∈ (t.revoke org id).revoked := by
  obtain ⟨k, hk, rfl⟩ := List.mem_map.1 hrevoked
  have hmem := List.mem_filter.1 hk
  refine List.mem_map.2 ⟨revokedRow org id k, List.mem_filter.2 ⟨?_, ?_⟩, ?_⟩
  · exact List.mem_map_of_mem hmem.1
  · exact revokedRow_revoked hmem.2
  · exact revokedRow_keyHash org id k

theorem revoked_create {key : IngestKey} (hrevoked : h ∈ t.revoked) :
    h ∈ (t.create key).revoked := by
  obtain ⟨k, hk, rfl⟩ := List.mem_map.1 hrevoked
  have hmem := List.mem_filter.1 hk
  unfold create
  split
  · exact hrevoked
  · exact List.mem_map_of_mem (List.mem_filter.2 ⟨List.mem_cons_of_mem _ hmem.1, hmem.2⟩)

end KeyTable

/-- A `Refresh` in progress: the hashes that were revoked when it began, and the map it has
built once it has read the table. -/
structure Refresh where
  call : Nat
  revokedBefore : List String
  next : Option KeyMap := none

/-- A `Resolve` that missed the cache: what it was asked, whether the key had been dropped
when it began, and the row once it is read. -/
structure Resolve where
  call : Nat
  presented : String
  dropped : Bool
  found : Option UUID := none

/-- What a `Resolve` returned. -/
structure Answer where
  presented : String
  dropped : Bool
  org : Option UUID

/-- The table, the key store and the calls in progress.  `dropped` are the hashes of the keys
that were revoked when some `Refresh`, completed since, began. -/
structure State where
  keys : KeyTable
  cache : KeyMap := []
  refreshes : List Refresh := []
  resolves : List Resolve := []
  dropped : List String := []
  answers : List Answer := []

inductive Action where
  | create (key : IngestKey)
  | revoke (org id : UUID)
  | beginRefresh (call : Nat)
  | query (call : Nat)
  | store (call : Nat)
  | failRefresh (call : Nat)
  /-- `Resolve` is called and looks at the cache -/
  | beginResolve (call : Nat) (presented : String)
  /-- its query returns, with an error or with what there is -/
  | lookup (call : Nat) (failed : Bool)
  /-- it puts the row it has read into the cache, and returns it -/
  | fill (call : Nat)

section Steps

variable (hash : String → String)

/-- `Resolve`, up to its query. -/
def beginResolve (s : State) (call : Nat) (presented : String) : State :=
  if presented = "" then
    { s with answers := ⟨presented, hash presented ∈ s.dropped, none⟩ :: s.answers }
  else
    match s.cache.lookup (hash presented) with
    | some org =>
      { s with answers := ⟨presented, hash presented ∈ s.dropped, some org⟩ :: s.answers }
    | none =>
      { s with resolves := ⟨call, presented, hash presented ∈ s.dropped, none⟩ :: s.resolves }

/-- The query of a `Resolve`. -/
def lookup (s : State) (r : Resolve) (failed : Bool) : State :=
  match if failed then none else s.keys.liveOrg (hash r.presented) with
  | none =>
    { s with
      resolves := s.resolves.filter fun x => x.call ≠ r.call
      answers := ⟨r.presented, r.dropped, none⟩ :: s.answers }
  | some org =>
    { s with
      resolves := { r with found := some org } :: s.resolves.filter fun x => x.call ≠ r.call }

def step (s : State) : Action → State
  | .create key => { s with keys := s.keys.create key }
  | .revoke org id => { s with keys := s.keys.revoke org id }
  | .beginRefresh call =>
    -- every call has a number of its own
    if s.refreshes.any fun x => x.call = call then s
    else { s with refreshes := ⟨call, s.keys.revoked, none⟩ :: s.refreshes }
  | .query call =>
    { s with
      refreshes := s.refreshes.map fun x =>
        if x.call = call then { x with next := some s.keys.live } else x }
  | .store call =>
    match s.refreshes.find? fun x => x.call = call with
    | some ⟨_, revokedBefore, some next⟩ =>
      { s with
        cache := next
        refreshes := s.refreshes.filter fun x => x.call ≠ call
        dropped := revokedBefore ++ s.dropped }
    | _ => s
  | .failRefresh call => { s with refreshes := s.refreshes.filter fun x => x.call ≠ call }
  | .beginResolve call presented =>
    if s.resolves.any fun x => x.call = call then s else beginResolve hash s call presented
  | .lookup call failed =>
    match s.resolves.find? fun x => x.call = call with
    | some r => if r.found = none then lookup hash s r failed else s
    | none => s
  | .fill call =>
    match s.resolves.find? fun x => x.call = call with
    | some ⟨_, presented, dropped, some org⟩ =>
      { s with
        cache := s.cache.put (hash presented) org
        resolves := s.resolves.filter fun x => x.call ≠ call
        answers := ⟨presented, dropped, some org⟩ :: s.answers }
    | _ => s

end Steps

/-! ## Keys that a refresh has dropped -/

section Dropped

variable (hash : String → String)

/-- Once a `Refresh` that began after the revocation has completed, no `Resolve` that begins
then accepts the key. -/
def RevokedRefused (s : State) : Prop :=
  ∀ a ∈ s.answers, a.dropped → a.org = none

/-- The statement puts no dropped key back: a `Resolve` fills the cache with a row it read
while the key was not dropped yet, and a `Refresh` stores a map that has none of the keys
that another one has dropped. -/
def KeepsDropped (s : State) : Action → Prop
  | .store call => ∀ r ∈ s.refreshes, r.call = call → ∀ next, r.next = some next →
      ∀ e ∈ next, e.1 ∉ s.dropped
  | .fill call => ∀ r ∈ s.resolves, r.call = call → hash r.presented ∉ s.dropped
  | _ => True

/-- What holds between two statements. -/
structure Sound (s : State) : Prop where
  cache : ∀ e ∈ s.cache, e.1 ∉ s.dropped
  revoked : ∀ h ∈ s.dropped, h ∈ s.keys.revoked
  before : ∀ r ∈ s.refreshes, ∀ h ∈ r.revokedBefore, h ∈ s.keys.revoked
  next : ∀ r ∈ s.refreshes, ∀ m, r.next = some m → ∀ e ∈ m, e.1 ∉ r.revokedBefore
  found : ∀ r ∈ s.resolves, r.dropped → hash r.presented ∈ s.dropped ∧ r.found = none
  answers : RevokedRefused s

variable {hash}

theorem sound_new (t : KeyTable) : Sound hash { keys := t } where
  cache := by intro e he; cases he
  revoked := by intro h hh; cases hh
  before := by intro r hr; cases hr
  next := by intro r hr; cases hr
  found := by intro r hr; cases hr
  answers := by intro a ha; cases ha

variable {m : KeyMap} {org : UUID} {h : String}

theorem mem_put {e : String × UUID} (he : e ∈ m.put h org) : e.1 = h ∨ e ∈ m := by
  rcases List.mem_cons.1 he with rfl | hold
  · exact Or.inl rfl
  · exact Or.inr (List.mem_filter.1 hold).1

theorem mem_of_lookup (hit : m.lookup h = some org) : (h, org) ∈ m := by
  obtain ⟨before, after, rfl, _⟩ := List.lookup_eq_some_iff.1 hit
  exact List.mem_append_right _ List.mem_cons_self

theorem Sound.table {s : State} (h : Sound hash s) {t : KeyTable}
    (hmono : ∀ x ∈ s.keys.revoked, x ∈ t.revoked) : Sound hash { s with keys := t } where
  cache := h.cache
  revoked := fun x hx => hmono x (h.revoked x hx)
  before := fun r hr x hx => hmono x (h.before r hr x hx)
  next := h.next
  found := h.found
  answers := h.answers

variable {s : State}

theorem Sound.query (h : Sound hash s) (call : Nat) : Sound hash (step hash s (.query call)) := by
  have hcases : ∀ r ∈ (step hash s (.query call)).refreshes, r ∈ s.refreshes ∨
      ∃ x ∈ s.refreshes, r = { x with next := some s.keys.live } := by
    intro r hr
    obtain ⟨x, hx, rfl⟩ := List.mem_map.1 hr
    by_cases hcall : x.call = call
    · rw [if_pos hcall]
      exact Or.inr ⟨x, hx, rfl⟩
    · rw [if_neg hcall]
      exact Or.inl hx
  exact {
    cache := h.cache
    revoked := h.revoked
    before := by
      intro r hr
      rcases hcases r hr with hold | ⟨x, hx, rfl⟩
      · exact h.before r hold
      · exact h.before x hx
    next := by
      intro r hr m hm e he hbefore
      rcases hcases r hr with hold | ⟨x, hx, rfl⟩
      · exact h.next r hold m hm e he hbefore
      · -- the rows are read after the revocations that `revokedBefore` holds
        cases hm
        have hrevoked := h.before x hx e.1 hbefore
        exact KeyTable.not_live_of_revoked hrevoked e he rfl
    found := h.found
    answers := h.answers }

theorem Sound.store (h : Sound hash s) (call : Nat) (hkeeps : KeepsDropped hash s (.store call)) :
    Sound hash (step hash s (.store call)) := by
  simp only [step]
  split
  · next c before m hfind =>
    have hmem := List.mem_of_find?_eq_some hfind
    have hcall : c = call := by simpa using List.find?_some hfind
    refine {
      cache := ?_
      revoked := ?_
      before := fun r hr => h.before r (List.mem_filter.1 hr).1
      next := fun r hr => h.next r (List.mem_filter.1 hr).1
      found := ?_
      answers := h.answers }
    · intro e he hdropped
      rcases List.mem_append.1 hdropped with hnew | hold
      · exact h.next _ hmem m rfl e he hnew
      · exact hkeeps _ hmem hcall m rfl e he hold
    · intro x hx
      rcases List.mem_append.1 hx with hnew | hold
      · exact h.before _ hmem x hnew
      · exact h.revoked x hold
    · intro r hr hdropped
      have hfound := h.found r hr hdropped
      exact ⟨List.mem_append_right _ hfound.1, hfound.2⟩
  · exact h

theorem Sound.beginResolve (h : Sound hash s) (call : Nat) (presented : String) :
    Sound hash (step hash s (.beginResolve call presented)) := by
  simp only [step]
  split
  · exact h
  unfold Ingest.beginResolve
  split
  · exact { h with
      answers := by
        intro a ha hdropped
        rcases List.mem_cons.1 ha with rfl | hold
        · rfl
        · exact h.answers a hold hdropped }
  split
  · next org hhit =>
    exact { h with
      answers := by
        intro a ha hdropped
        rcases List.mem_cons.1 ha with rfl | hold
        · -- a hit is in the cache, where no dropped key is
          have hmem := mem_of_lookup hhit
          exact absurd (of_decide_eq_true hdropped) (h.cache _ hmem)
        · exact h.answers a hold hdropped }
  · exact { h with
      found := by
        intro r hr hdropped
        rcases List.mem_cons.1 hr with rfl | hold
        · exact ⟨of_decide_eq_true hdropped, rfl⟩
        · exact h.found r hold hdropped }

theorem Sound.lookup (h : Sound hash s) (call : Nat) (failed : Bool) :
    Sound hash (step hash s (.lookup call failed)) := by
  simp only [step]
  split
  · next r hfind =>
    have hmem := List.mem_of_find?_eq_some hfind
    split
    · unfold Ingest.lookup
      split
      · exact { h with
          found := fun x hx => h.found x (List.mem_filter.1 hx).1
          answers := by
            intro a ha hdropped
            rcases List.mem_cons.1 ha with rfl | hold
            · rfl
            · exact h.answers a hold hdropped }
      · next org horg =>
        exact { h with
          found := by
            intro x hx hdropped
            rcases List.mem_cons.1 hx with rfl | hold
            · -- the key of a call that began after it was dropped has no live row
              have hdead := h.revoked _ (h.found r hmem hdropped).1
              have hnone := KeyTable.liveOrg_of_revoked hdead
              cases failed with
              | true => cases horg
              | false =>
                have hsome : s.keys.liveOrg (hash r.presented) = some org := horg
                rw [hnone] at hsome
                cases hsome
            · exact h.found x (List.mem_filter.1 hold).1 hdropped }
    · exact h
  · exact h

theorem Sound.fill (h : Sound hash s) (call : Nat) (hkeeps : KeepsDropped hash s (.fill call)) :
    Sound hash (step hash s (.fill call)) := by
  simp only [step]
  split
  · next c presented dropped org hfind =>
    have hmem := List.mem_of_find?_eq_some hfind
    have hcall : c = call := by simpa using List.find?_some hfind
    refine { h with cache := ?_, found := ?_, answers := ?_ }
    · intro e he hdropped
      rcases mem_put he with hfilled | hold
      · have hnot := hkeeps _ hmem hcall
        exact hnot (hfilled ▸ hdropped)
      · exact h.cache e hold hdropped
    · exact fun x hx => h.found x (List.mem_filter.1 hx).1
    · intro a ha hdropped
      rcases List.mem_cons.1 ha with rfl | hold
      · have hfound := (h.found _ hmem hdropped).2
        cases hfound
      · exact h.answers a hold hdropped
  · exact h

theorem Sound.step {a : Action} (h : Sound hash s) (hkeeps : KeepsDropped hash s a) :
    Sound hash (step hash s a) := by
  cases a with
  | create key => exact h.table fun x hx => KeyTable.revoked_create hx
  | revoke org id => exact h.table fun x hx => KeyTable.revoked_revoke hx
  | beginRefresh call =>
    simp only [Ingest.step]
    split
    · exact h
    refine { h with before := ?_, next := ?_ }
    · intro r hr
      rcases List.mem_cons.1 hr with rfl | hold
      · exact fun x hx => hx
      · exact h.before r hold
    · intro r hr m hm
      rcases List.mem_cons.1 hr with rfl | hold
      · cases hm
      · exact h.next r hold m hm
  | query call => exact h.query call
  | store call => exact h.store call hkeeps
  | failRefresh call =>
    exact { h with
      before := fun r hr => h.before r (List.mem_filter.1 hr).1
      next := fun r hr => h.next r (List.mem_filter.1 hr).1 }
  | beginResolve call presented => exact h.beginResolve call presented
  | lookup call failed => exact h.lookup call failed
  | fill call => exact h.fill call hkeeps

end Dropped

/-- **When a revoked key stays out.**  In every run of the key store, over any table of keys,
in which no statement puts a dropped key back: a `Resolve` that begins once a `Refresh`, begun
after the revocation, has completed does not accept the key. -/
theorem revoked_key_refused (hash : String → String) (keys : KeyTable) (as : List Action)
    (h : StepsMeet (step hash) (KeepsDropped hash) { keys := keys } as) :
    RevokedRefused (run (step hash) { keys := keys } as) := by
  have hsound : Sound hash (run (step hash) { keys := keys } as) :=
    h.invariant (fun _ _ hs hkeeps => hs.step hkeeps) (sound_new keys)
  exact hsound.answers

/-! One key of one organization. -/

private def keyHashOf (presented : String) : String :=
  if presented = "slk_1" then
    "535168f80ced7ad51d94dc65c09a575ceec3fed73c7987ddccdd8e16b11a9e1c"
  else presented

private def oneKey : KeyTable where
  rows := [⟨1, 1, keyHashOf "slk_1", false⟩]
  unique := List.nodup_singleton _

instance (s : State) : Decidable (RevokedRefused s) := by
  unfold RevokedRefused
  infer_instance

/-- A key that is revoked while nobody asks for it is refused after the next refresh. -/
theorem revoked_key_refused_quiet :
    RevokedRefused (run (step keyHashOf) { keys := oneKey }
      [.beginResolve 1 "slk_1", .lookup 1 false, .fill 1, .revoke 1 1, .beginRefresh 1, .query 1,
        .store 1, .beginResolve 2 "slk_1", .lookup 2 false]) := by
  refine revoked_key_refused keyHashOf oneKey _ ?_
  simp only [stepsMeet_cons, stepsMeet_nil, KeepsDropped, true_and, and_true]
  decide

/-- The row is read, the key revoked and dropped by a whole refresh, and then put back. -/
theorem revoked_key_accepted :
    ¬ RevokedRefused (run (step keyHashOf) { keys := oneKey }
      [.beginResolve 1 "slk_1", .lookup 1 false, .revoke 1 1, .beginRefresh 1, .query 1,
        .store 1, .fill 1, .beginResolve 2 "slk_1"]) := by
  decide

/-! ## Whose data it is -/

section Tenants

/-- The key with this hash is the organization's. -/
def KeyTable.Assigns (t : KeyTable) (h : String) (org : UUID) : Prop :=
  ∃ k ∈ t.rows, k.keyHash = h ∧ k.organization = org

/-- What was read was read from the table. -/
structure FromTable (hash : String → String) (s : State) : Prop where
  cache : ∀ e ∈ s.cache, s.keys.Assigns e.1 e.2
  next : ∀ r ∈ s.refreshes, ∀ m ∈ r.next, ∀ e ∈ m, s.keys.Assigns e.1 e.2
  found : ∀ r ∈ s.resolves, ∀ org ∈ r.found, s.keys.Assigns (hash r.presented) org
  answers : ∀ a ∈ s.answers, ∀ org ∈ a.org, s.keys.Assigns (hash a.presented) org

variable {hash : String → String} {s : State} {t : KeyTable} {h : String} {org : UUID}

theorem assigns_of_live {e : String × UUID} (he : e ∈ t.live) : t.Assigns e.1 e.2 := by
  obtain ⟨k, hk, rfl⟩ := List.mem_map.1 he
  exact ⟨k, (List.mem_filter.1 hk).1, rfl, rfl⟩

theorem KeyTable.Assigns.revoke (hkey : t.Assigns h org) (org' id : UUID) :
    (t.revoke org' id).Assigns h org := by
  obtain ⟨k, hk, rfl, rfl⟩ := hkey
  refine ⟨revokedRow org' id k, List.mem_map_of_mem hk, revokedRow_keyHash org' id k, ?_⟩
  unfold revokedRow
  split <;> rfl

theorem KeyTable.Assigns.create (hkey : t.Assigns h org) (key : IngestKey) :
    (t.create key).Assigns h org := by
  unfold KeyTable.create
  split
  · exact hkey
  · obtain ⟨k, hk, hsame⟩ := hkey
    exact ⟨k, List.mem_cons_of_mem _ hk, hsame⟩

theorem FromTable.table (hs : FromTable hash s)
    (hmono : ∀ h org, s.keys.Assigns h org → t.Assigns h org) :
    FromTable hash { s with keys := t } where
  cache e he := hmono _ _ (hs.cache e he)
  next r hr m hm e he := hmono _ _ (hs.next r hr m hm e he)
  found r hr org horg := hmono _ _ (hs.found r hr org horg)
  answers a ha org horg := hmono _ _ (hs.answers a ha org horg)

/-- An answer is none, or what the table assigns. -/
theorem FromTable.answer (hs : FromTable hash s) {a : Answer}
    (ha : ∀ org ∈ a.org, s.keys.Assigns (hash a.presented) org) :
    FromTable hash { s with answers := a :: s.answers } where
  cache := hs.cache
  next := hs.next
  found := hs.found
  answers := List.forall_mem_cons.2 ⟨ha, hs.answers⟩

theorem FromTable.beginResolve (hs : FromTable hash s) (call : Nat) (presented : String) :
    FromTable hash (beginResolve hash s call presented) := by
  unfold Ingest.beginResolve
  split
  · exact hs.answer fun _ horg => by cases horg
  split
  · next org hhit =>
    refine hs.answer fun org' horg => ?_
    cases horg
    exact hs.cache _ (mem_of_lookup hhit)
  · exact { hs with found := List.forall_mem_cons.2 ⟨by simp, hs.found⟩ }

theorem FromTable.lookup (hs : FromTable hash s) (r : Resolve) (failed : Bool) :
    FromTable hash (lookup hash s r failed) := by
  have hothers : ∀ x ∈ s.resolves.filter (fun x => x.call ≠ r.call), ∀ org ∈ x.found,
      s.keys.Assigns (hash x.presented) org := fun x hx => hs.found x (List.mem_filter.1 hx).1
  unfold Ingest.lookup
  split
  · exact { hs.answer (a := ⟨r.presented, r.dropped, none⟩) (by simp) with found := hothers }
  · next org horg =>
    refine { hs with found := List.forall_mem_cons.2 ⟨fun org' horg' => ?_, hothers⟩ }
    cases horg'
    cases failed with
    | true => cases horg
    | false => exact assigns_of_live (mem_of_lookup horg)

theorem FromTable.step (hs : FromTable hash s) (a : Action) : FromTable hash (step hash s a) := by
  cases a with
  | create key => exact hs.table fun _ _ hkey => hkey.create key
  | revoke org id => exact hs.table fun _ _ hkey => hkey.revoke org id
  | beginRefresh call =>
    simp only [Ingest.step]
    split
    · exact hs
    · exact { hs with next := List.forall_mem_cons.2 ⟨by simp, hs.next⟩ }
  | query call =>
    refine { hs with next := ?_ }
    intro r hr m hm e he
    obtain ⟨x, hx, rfl⟩ := List.mem_map.1 hr
    by_cases hcall : x.call = call
    · rw [if_pos hcall] at hm
      cases hm
      exact assigns_of_live he
    · rw [if_neg hcall] at hm
      exact hs.next x hx m hm e he
  | store call =>
    simp only [Ingest.step]
    split
    · next c before m hfind =>
      exact { hs with
        cache := hs.next _ (List.mem_of_find?_eq_some hfind) m rfl
        next := fun r hr => hs.next r (List.mem_filter.1 hr).1 }
    · exact hs
  | failRefresh call =>
    exact { hs with next := fun r hr => hs.next r (List.mem_filter.1 hr).1 }
  | beginResolve call presented =>
    simp only [Ingest.step]
    split
    · exact hs
    · exact hs.beginResolve call presented
  | lookup call failed =>
    simp only [Ingest.step]
    split
    · next r hfind =>
      split
      · exact hs.lookup r failed
      · exact hs
    · exact hs
  | fill call =>
    simp only [Ingest.step]
    split
    · next c presented dropped org hfind =>
      have horg := hs.found _ (List.mem_of_find?_eq_some hfind) org rfl
      refine { hs.answer (a := ⟨presented, dropped, some org⟩) fun _ hsame => ?_ with
        cache := ?_
        found := fun r hr => hs.found r (List.mem_filter.1 hr).1 }
      · cases hsame
        exact horg
      · intro e he
        rcases List.mem_cons.1 he with rfl | hold
        · exact horg
        · exact hs.cache e (List.mem_filter.1 hold).1
    · exact hs

/-- What a `Resolve` returned is the organization of the one row that has the hash of the key. -/
def OwnOrganization (hash : String → String) (s : State) : Prop :=
  ∀ a ∈ s.answers, ∀ org ∈ a.org, ∃ k ∈ s.keys.rows, k.organization = org ∧
    ∀ k' ∈ s.keys.rows, k'.keyHash = hash a.presented ↔ k' = k

/-- **A key opens its own organization**, whatever runs between the statements of a `Resolve`
and however old the cache is. -/
theorem resolved_own_organization (hash : String → String) (keys : KeyTable) (as : List Action) :
    OwnOrganization hash (run (step hash) { keys := keys } as) := by
  have hstart : FromTable hash { keys := keys } := by
    constructor <;> intro x hx <;> cases hx
  have hread : FromTable hash (run (step hash) { keys := keys } as) :=
    run_invariant (fun _ a hs => hs.step a) as hstart
  intro a ha org horg
  obtain ⟨k, hk, hhash, horgk⟩ := hread.answers a ha org horg
  refine ⟨k, hk, horgk, fun k' hk' => ?_⟩
  constructor
  · intro hsame
    exact List.inj_on_of_nodup_map (State.keys _).unique hk' hk (hsame.trans hhash.symm)
  · rintro rfl
    exact hhash

end Tenants

end Sluicio.Ingest
