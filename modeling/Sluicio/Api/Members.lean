import Sluicio.Identity.Members
import Sluicio.Lib.Run

/-!
# Changing memberships

A role change or a removal by an org admin asks first whether it would take the last admin
away, in two reads of its own, and writes after that; an operator's request and the re-sync
of a login only write.
-/

namespace Sluicio.Api.Members

open Identity Lib

inductive Stage where
  | begun
  | downgrade
  | allowed
  deriving DecidableEq

/-- A request of an org admin in progress: `updateMemberRole`, or `removeMember` when there is
no role. -/
structure Request where
  call : Nat
  userID : UUID
  orgID : UUID
  change : Option Role
  stage : Stage := .begun

/-- The role that the guard is asked about: a removal asks about viewer. -/
def Request.newRole (r : Request) : Role := r.change.getD .viewer

structure State where
  members : MemberTable := {}
  requests : List Request := []

inductive Action where
  /-- `updateMemberRole` or `removeMember` comes in -/
  | begin (call : Nat) (userID orgID : UUID) (change : Option Role)
  | getMembership (call : Nat) (failed : Bool)
  | listOrgMembers (call : Nat) (failed : Bool)
  /-- `UpdateMemberRole` or `RemoveMember` -/
  | write (call : Nat) (failed : Bool)
  /-- `updateOperatorOrgMemberRole` or `removeOperatorOrgMember` -/
  | operator (userID orgID : UUID) (change : Option Role) (failed : Bool)
  /-- `ApplyClaimMappings`, with the mappings it has read -/
  | applyClaimMappings (p : AuthProvider) (mappings : List ClaimMapping) (userID : UUID)
      (claimGroups : List String) (failed : Bool)
  | addMember (userID orgID : UUID) (role : Role) (failed : Bool)

/-- A role that was given is one of the three. -/
def validChange (change : Option Role) : Bool := change.all Role.isValid

def change (t : MemberTable) (userID orgID : UUID) : Option Role → MemberTable
  | some role => t.updateMemberRole userID orgID role
  | none => t.removeMember userID orgID

def loginRole (p : AuthProvider) (mappings : List ClaimMapping) (claimGroups : List String) :
    Role :=
  SsoStore.resolvedRole p (mappings.filter fun m => m.claimValue ∈ claimGroups)

section Steps

variable (s : State)

def State.without (r : Request) : List Request := s.requests.filter fun x => x.call ≠ r.call

def State.proceed (r : Request) (stage : Stage) : State :=
  { s with requests := { r with stage := stage } :: s.without r }

/-- The guard's first read.  A lookup that fails counts as no member. -/
def readMembership (r : Request) (failed : Bool) : State :=
  match if failed then none else s.members.getMembership r.userID r.orgID with
  | none => s.proceed r .allowed
  | some currentRole =>
    if currentRole ≠ .admin ∨ r.newRole = .admin then s.proceed r .allowed
    else s.proceed r .downgrade

/-- The guard's second read.  A count that fails is no objection. -/
def countAdmins (r : Request) (failed : Bool) : State :=
  if failed then s.proceed r .allowed
  else if (s.members.admins r.orgID).length ≤ 1 then { s with requests := s.without r }
  else s.proceed r .allowed

def writeMember (r : Request) (failed : Bool) : State :=
  { members := if failed then s.members else change s.members r.userID r.orgID r.change
    requests := s.without r }

def step (s : State) : Action → State
  | .begin call userID orgID change =>
    -- every request has a number of its own
    if s.requests.any (fun x => x.call = call) || !validChange change then s
    else { s with requests := ⟨call, userID, orgID, change, .begun⟩ :: s.requests }
  | .getMembership call failed =>
    match s.requests.find? fun x => x.call = call with
    | some r => if r.stage = .begun then readMembership s r failed else s
    | none => s
  | .listOrgMembers call failed =>
    match s.requests.find? fun x => x.call = call with
    | some r => if r.stage = .downgrade then countAdmins s r failed else s
    | none => s
  | .write call failed =>
    match s.requests.find? fun x => x.call = call with
    | some r => if r.stage = .allowed then writeMember s r failed else s
    | none => s
  | .operator userID orgID role failed =>
    if failed || !validChange role then s
    else { s with members := change s.members userID orgID role }
  | .applyClaimMappings p mappings userID claimGroups failed =>
    if failed then s
    else
      { s with
        members :=
          s.members.upsertMember userID p.orgID (loginRole p mappings claimGroups) }
  | .addMember userID orgID role failed =>
    if failed || !role.isValid then s
    else { s with members := s.members.addMember userID orgID role }

end Steps

/-! ## The last admin -/

/-- Every organization that has an admin still has one after the statement. -/
def KeepsAdmins (s : State) (a : Action) : Prop :=
  ∀ orgID, s.members.HasAdmin orgID → (step s a).members.HasAdmin orgID

def GuardAllows (s : State) : Action → Prop
  | .write call failed => failed = false → ∀ r, (s.requests.find? fun x => x.call = call) = some r →
      r.stage = .allowed →
      s.members.refuseLastAdminDowngrade r.userID r.orgID r.newRole = false
  | .operator userID orgID change failed => failed = false → validChange change →
      s.members.refuseLastAdminDowngrade userID orgID (change.getD .viewer) = false
  | .applyClaimMappings p mappings userID claimGroups failed => failed = false →
      s.members.refuseLastAdminDowngrade userID p.orgID (loginRole p mappings claimGroups) = false
  | _ => True

section Lemmas

variable {s : State}

theorem keepsAdmins_of_members {a : Action} (h : (step s a).members = s.members) :
    KeepsAdmins s a := by
  intro orgID hadmin
  rw [h]
  exact hadmin

@[simp] theorem proceed_members (r : Request) (stage : Stage) :
    (s.proceed r stage).members = s.members := rfl

theorem readMembership_members (r : Request) (failed : Bool) :
    (readMembership s r failed).members = s.members := by
  unfold readMembership
  split
  · rfl
  · split <;> rfl

theorem countAdmins_members (r : Request) (failed : Bool) :
    (countAdmins s r failed).members = s.members := by
  unfold countAdmins
  split
  · rfl
  · split <;> rfl

theorem change_keeps_iff (t : MemberTable) (userID orgID : UUID) (role : Option Role) :
    (∀ org, t.HasAdmin org → (change t userID orgID role).HasAdmin org) ↔
      t.refuseLastAdminDowngrade userID orgID (role.getD .viewer) = false := by
  cases role with
  | none => exact (MemberTable.reassigns_removeMember t userID orgID).keeps_iff
  | some r => exact (MemberTable.reassigns_updateMemberRole t userID orgID r).keeps_iff

theorem addMember_keeps (t : MemberTable) (userID orgID : UUID) (role : Role) {org : UUID}
    (h : t.HasAdmin org) : (t.addMember userID orgID role).HasAdmin org := by
  obtain ⟨m, hm, hadmin⟩ := h
  exact ⟨m, MemberTable.subset_addMember t userID orgID role hm, hadmin⟩

theorem keepsAdmins_iff (s : State) (a : Action) : KeepsAdmins s a ↔ GuardAllows s a := by
  cases a with
  | begin call userID orgID change =>
    refine iff_of_true (keepsAdmins_of_members ?_) trivial
    simp only [step]
    split <;> rfl
  | getMembership call failed =>
    refine iff_of_true (keepsAdmins_of_members ?_) trivial
    simp only [step]
    split
    · split
      · exact readMembership_members _ _
      · rfl
    · rfl
  | listOrgMembers call failed =>
    refine iff_of_true (keepsAdmins_of_members ?_) trivial
    simp only [step]
    split
    · split
      · exact countAdmins_members _ _
      · rfl
    · rfl
  | write call failed =>
    cases hfind : s.requests.find? fun x => x.call = call with
    | none =>
      refine iff_of_true (keepsAdmins_of_members ?_) ?_
      · simp [step, hfind]
      · simp [GuardAllows, hfind]
    | some r =>
      by_cases hstage : r.stage = .allowed
      · cases failed with
        | true =>
          refine iff_of_true (keepsAdmins_of_members ?_) ?_
          · simp [step, hfind, hstage, writeMember]
          · simp [GuardAllows]
        | false =>
          have hkeeps := change_keeps_iff s.members r.userID r.orgID r.change
          simpa [KeepsAdmins, GuardAllows, step, hfind, hstage, writeMember, Request.newRole]
            using hkeeps
      · refine iff_of_true (keepsAdmins_of_members ?_) ?_
        · simp [step, hfind, hstage]
        · simp [GuardAllows, hfind, hstage]
  | operator userID orgID role failed =>
    by_cases hskip : (failed || !validChange role) = true
    · refine iff_of_true (keepsAdmins_of_members ?_) fun hok hvalid => ?_
      · simp only [step, hskip, if_true]
      · simp [hok, hvalid] at hskip
    · have hkeeps := change_keeps_iff s.members userID orgID role
      obtain ⟨rfl, hvalid⟩ : failed = false ∧ validChange role := by simpa using hskip
      simpa [KeepsAdmins, GuardAllows, step, hvalid] using hkeeps
  | applyClaimMappings p mappings userID claimGroups failed =>
    cases failed with
    | true =>
      refine iff_of_true (keepsAdmins_of_members ?_) ?_
      · simp [step]
      · simp [GuardAllows]
    | false =>
      have hkeeps := (MemberTable.reassigns_upsertMember s.members userID p.orgID
        (loginRole p mappings claimGroups)).keeps_iff
      simpa [KeepsAdmins, GuardAllows, step] using hkeeps
  | addMember userID orgID role failed =>
    refine iff_of_true (fun org hadmin => ?_) trivial
    simp only [step]
    split
    · exact hadmin
    · exact addMember_keeps _ _ _ _ hadmin

end Lemmas

/-- **When an organization keeps its admins.**  Over any interleaving of the statements of any
requests, every statement leaves every organization that has an admin with one, just when the
guard would have no objection at the moment of each write. -/
theorem keepsAdmins_run_iff (s : State) (as : List Action) :
    StepsMeet step KeepsAdmins s as ↔ StepsMeet step GuardAllows s as :=
  ⟨StepsMeet.imp fun s a => (keepsAdmins_iff s a).1,
    StepsMeet.imp fun s a => (keepsAdmins_iff s a).2⟩

/-- An organization that has an admin has one in every state of a run whose statements keep
the admins. -/
theorem hasAdmin_run (orgID : UUID) {s : State} {as : List Action}
    (h : StepsMeet step KeepsAdmins s as) (hadmin : s.members.HasAdmin orgID) :
    (run step s as).members.HasAdmin orgID :=
  StepsMeet.invariant (I := fun s => s.members.HasAdmin orgID)
    (fun _ _ hs hkeeps => hkeeps orgID hs) h hadmin

/-! An organization with two admins, and one with a single admin. -/

private def twoAdmins : State where
  members := { rows := [⟨1, 5, .admin⟩, ⟨2, 5, .admin⟩] }

private def oneAdmin : State where
  members := { rows := [⟨1, 5, .admin⟩] }

private def demoteEachOther : List Action :=
  [.begin 1 2 5 (some .viewer), .begin 2 1 5 (some .viewer),
    .getMembership 1 false, .listOrgMembers 1 false,
    .getMembership 2 false, .listOrgMembers 2 false, .write 1 false, .write 2 false]

/-- Two admins demoting each other, a count that fails, an operator, and a login without
matched groups each take the last admin away. -/
theorem admins_lost :
    ¬ StepsMeet step KeepsAdmins twoAdmins demoteEachOther ∧
    ¬ StepsMeet step KeepsAdmins oneAdmin
      [.begin 1 1 5 none, .getMembership 1 false, .listOrgMembers 1 true, .write 1 false] ∧
    ¬ StepsMeet step KeepsAdmins oneAdmin [.operator 1 5 none false] ∧
    ¬ StepsMeet step KeepsAdmins oneAdmin
      [.applyClaimMappings { id := 20, orgID := 5 } [] 1 ["staff"] false] := by
  refine ⟨fun h => ?_, fun h => ?_, fun h => ?_, fun h => ?_⟩
  all_goals
    have hkept := hasAdmin_run 5 h (by decide)
    revert hkept
    decide +kernel

end Sluicio.Api.Members
