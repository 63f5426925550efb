import Sluicio.Identity.Sso

/-!
# Memberships of organizations

The table `org_members`, whose rows have a user and an organization of their own, the three
writes to it, and the question whether a write takes the admin role from the last admin.
-/

namespace Sluicio.Identity

open Lib OrgMember

/-- The primary key of `org_members`. -/
def OrgMember.key (m : OrgMember) : UUID × UUID := (m.userID, m.orgID)

/-- The row is the user's in the organization. -/
def OrgMember.isOf (userID orgID : UUID) (m : OrgMember) : Bool :=
  m.userID = userID && m.orgID = orgID

theorem OrgMember.isOf_iff {userID orgID : UUID} {m : OrgMember} :
    m.isOf userID orgID ↔ m.key = (userID, orgID) := by
  simp [isOf, key]

/-- The table `org_members`. -/
structure MemberTable where
  rows : List OrgMember := []
  unique : (rows.map OrgMember.key).Nodup := by decide

namespace MemberTable

variable (t : MemberTable)

def getMembership (userID orgID : UUID) : Option Role :=
  (t.rows.find? (OrgMember.isOf userID orgID)).map OrgMember.role

/-- The admins among `ListOrgMembers`. -/
def admins (orgID : UUID) : List OrgMember :=
  t.rows.filter fun m => m.orgID = orgID && m.role = .admin

def HasAdmin (orgID : UUID) : Prop :=
  ∃ m ∈ t.rows, m.orgID = orgID ∧ m.role = .admin

instance (orgID : UUID) : Decidable (t.HasAdmin orgID) := by
  unfold HasAdmin
  infer_instance

/-- `refuseLastAdminDowngrade`, when none of its reads fails. -/
def refuseLastAdminDowngrade (userID orgID : UUID) (newRole : Role) : Bool :=
  match t.getMembership userID orgID with
  | none => false
  | some currentRole =>
    if currentRole ≠ .admin ∨ newRole = .admin then false
    else (t.admins orgID).length ≤ 1

theorem map_key_updateWhere (p : OrgMember → Bool) (role : Role) (rows : List OrgMember) :
    (updateWhere p (fun m => { m with role := role }) rows).map OrgMember.key =
      rows.map OrgMember.key := by
  unfold updateWhere
  rw [List.map_map]
  refine List.map_congr_left fun m _ => ?_
  simp only [Function.comp_apply]
  split <;> rfl

/-- `AddMember`; a user who is a member already is refused. -/
def addMember (userID orgID : UUID) (role : Role) : MemberTable :=
  if hnew : t.rows.any (OrgMember.isOf userID orgID) then t
  else
    { rows := t.rows ++ [⟨userID, orgID, role⟩]
      unique := by
        rw [List.map_append, List.nodup_append]
        refine ⟨t.unique, by simp, ?_⟩
        intro a ha b hb heq
        obtain ⟨m, hm, rfl⟩ := List.mem_map.1 ha
        have hkey : m.key = (userID, orgID) := heq.trans (by simpa [OrgMember.key] using hb)
        exact hnew (List.any_eq_true.2 ⟨m, hm, isOf_iff.2 hkey⟩) }

def updateMemberRole (userID orgID : UUID) (role : Role) : MemberTable where
  rows := updateWhere (OrgMember.isOf userID orgID) (fun m => { m with role := role }) t.rows
  unique := by
    rw [map_key_updateWhere]
    exact t.unique

def removeMember (userID orgID : UUID) : MemberTable where
  rows := t.rows.filter fun m => !m.isOf userID orgID
  unique := t.unique.sublist (List.filter_sublist.map _)

/-- The upsert of `ApplyClaimMappings`. -/
def upsertMember (userID orgID : UUID) (role : Role) : MemberTable :=
  if t.rows.any (OrgMember.isOf userID orgID) then t.updateMemberRole userID orgID role
  else t.addMember userID orgID role

/-! ## The last admin -/

/-- One membership is given another role, added or removed; every other one stays. -/
structure Reassigns (t t' : MemberTable) (userID orgID : UUID) (role : Option Role) : Prop where
  others : ∀ m : OrgMember, m.key ≠ (userID, orgID) → (m ∈ t'.rows ↔ m ∈ t.rows)
  self : ∀ m ∈ t'.rows, m.key = (userID, orgID) → role = some m.role
  kept : ∀ r, role = some r → (∃ m ∈ t.rows, m.key = (userID, orgID)) → ⟨userID, orgID, r⟩ ∈ t'.rows

variable {t} {t' : MemberTable} {userID orgID : UUID} {role : Option Role}

theorem getMembership_eq_some {r : Role} :
    t.getMembership userID orgID = some r ↔ ⟨userID, orgID, r⟩ ∈ t.rows := by
  unfold getMembership
  constructor
  · intro h
    obtain ⟨m, hfind, rfl⟩ := Option.map_eq_some_iff.1 h
    have hkey := isOf_iff.1 (List.find?_some hfind)
    obtain ⟨huser, horg⟩ := Prod.mk.inj hkey
    subst huser horg
    exact List.mem_of_find?_eq_some hfind
  · intro h
    cases hfind : t.rows.find? (OrgMember.isOf userID orgID) with
    | none =>
      have hnot := List.find?_eq_none.1 hfind _ h
      simp [OrgMember.isOf] at hnot
    | some m =>
      have hkey := isOf_iff.1 (List.find?_some hfind)
      have hsame : m = ⟨userID, orgID, r⟩ :=
        List.inj_on_of_nodup_map t.unique (List.mem_of_find?_eq_some hfind) h hkey
      simp [hsame]

theorem mem_admins {m : OrgMember} :
    m ∈ t.admins orgID ↔ m ∈ t.rows ∧ m.orgID = orgID ∧ m.role = .admin := by
  simp [admins]

theorem eq_of_admins_le_one (hone : (t.admins orgID).length ≤ 1) {m m' : OrgMember}
    (hm : m ∈ t.admins orgID) (hm' : m' ∈ t.admins orgID) : m = m' := by
  match hadmins : t.admins orgID with
  | [] => simp [hadmins] at hm
  | [a] =>
    rw [hadmins, List.mem_singleton] at hm hm'
    rw [hm, hm']
  | _ :: _ :: _ => simp [hadmins] at hone

theorem exists_other_admin (hmany : ¬ (t.admins orgID).length ≤ 1) (m : OrgMember) :
    ∃ m' ∈ t.admins orgID, m' ≠ m := by
  have hnodup : (t.admins orgID).Nodup := t.unique.of_map.filter _
  match hadmins : t.admins orgID with
  | [] => simp [hadmins] at hmany
  | [_] => simp [hadmins] at hmany
  | a :: b :: rest =>
    by_cases ha : a = m
    · rw [hadmins] at hnodup
      have hne : a ≠ b := fun heq => (List.nodup_cons.1 hnodup).1 (by simp [heq])
      exact ⟨b, by simp, fun hb => hne (ha.trans hb.symm)⟩
    · exact ⟨a, by simp, ha⟩

theorem refuse_iff {newRole : Role} :
    t.refuseLastAdminDowngrade userID orgID newRole ↔
      ⟨userID, orgID, .admin⟩ ∈ t.rows ∧ newRole ≠ .admin ∧ (t.admins orgID).length ≤ 1 := by
  unfold refuseLastAdminDowngrade
  cases hget : t.getMembership userID orgID with
  | none =>
    have hnot : (⟨userID, orgID, .admin⟩ : OrgMember) ∉ t.rows := fun hmem => by
      rw [getMembership_eq_some.2 hmem] at hget
      cases hget
    simp [hnot]
  | some r =>
    have hrow : ∀ r', (⟨userID, orgID, r'⟩ : OrgMember) ∈ t.rows ↔ r = r' := by
      intro r'
      rw [← getMembership_eq_some, hget, Option.some.injEq]
    rw [hrow]
    by_cases hadmin : r = .admin <;> by_cases hnew : newRole = .admin <;> simp [hadmin, hnew]

/-- **When a write leaves every organization with its admins.**  Just when the guard would
allow it. -/
theorem Reassigns.keeps_iff (h : Reassigns t t' userID orgID role) :
    (∀ org, t.HasAdmin org → t'.HasAdmin org) ↔
      t.refuseLastAdminDowngrade userID orgID (role.getD .viewer) = false := by
  constructor
  · intro hkeeps
    rw [Bool.eq_false_iff]
    intro hrefuse
    obtain ⟨hmem, hrole, hone⟩ := refuse_iff.1 hrefuse
    obtain ⟨m, hm, horg, hadmin⟩ := hkeeps orgID ⟨_, hmem, rfl, rfl⟩
    by_cases hkey : m.key = (userID, orgID)
    · rw [h.self m hm hkey, hadmin] at hrole
      exact hrole rfl
    have hold : m ∈ t.admins orgID := mem_admins.2 ⟨(h.others m hkey).1 hm, horg, hadmin⟩
    have hself : ⟨userID, orgID, .admin⟩ ∈ t.admins orgID := mem_admins.2 ⟨hmem, rfl, rfl⟩
    rw [eq_of_admins_le_one hone hold hself] at hkey
    exact hkey rfl
  · intro hallowed org hadmin
    obtain ⟨m, hm, horg, hrole⟩ := hadmin
    by_cases hkey : m.key = (userID, orgID)
    · obtain ⟨huser, horg'⟩ := Prod.mk.inj hkey
      have hmem : (⟨userID, orgID, .admin⟩ : OrgMember) ∈ t.rows := by
        rw [← huser, ← horg', ← hrole]
        exact hm
      have hsame : org = orgID := horg.symm.trans horg'
      subst hsame
      by_cases hnew : role.getD .viewer = .admin
      · -- the admin stays one
        obtain rfl : role = some .admin := by
          cases role with
          | none => cases hnew
          | some r => exact congrArg some hnew
        exact ⟨_, h.kept .admin rfl ⟨m, hm, hkey⟩, rfl, rfl⟩
      by_cases hone : (t.admins org).length ≤ 1
      · rw [refuse_iff.2 ⟨hmem, hnew, hone⟩] at hallowed
        cases hallowed
      -- another admin stays
      obtain ⟨m', hm', hne⟩ := exists_other_admin hone m
      obtain ⟨hrow, horg'', hrole'⟩ := mem_admins.1 hm'
      have hkey' : m'.key ≠ (userID, org) := fun heq =>
        hne (List.inj_on_of_nodup_map t.unique hrow hm (heq.trans hkey.symm))
      exact ⟨m', (h.others m' hkey').2 hrow, horg'', hrole'⟩
    · exact ⟨m, (h.others m hkey).2 hm, horg, hrole⟩

theorem mem_updateMemberRole {role : Role} {m : OrgMember} :
    m ∈ (t.updateMemberRole userID orgID role).rows ↔
      (m.key ≠ (userID, orgID) ∧ m ∈ t.rows) ∨
      (m = ⟨userID, orgID, role⟩ ∧ ∃ m' ∈ t.rows, m'.key = (userID, orgID)) := by
  simp only [updateMemberRole, updateWhere, List.mem_map]
  constructor
  · rintro ⟨m', hm', rfl⟩
    by_cases hof : m'.isOf userID orgID = true
    · have hkey := isOf_iff.1 hof
      obtain ⟨huser, horg⟩ := Prod.mk.inj hkey
      refine Or.inr ⟨?_, m', hm', hkey⟩
      rw [if_pos hof, huser, horg]
    · rw [if_neg hof]
      exact Or.inl ⟨fun hkey => hof (isOf_iff.2 hkey), hm'⟩
  · rintro (⟨hkey, hm⟩ | ⟨rfl, m', hm', hkey⟩)
    · exact ⟨m, hm, if_neg fun hof => hkey (isOf_iff.1 hof)⟩
    · obtain ⟨huser, horg⟩ := Prod.mk.inj hkey
      refine ⟨m', hm', ?_⟩
      rw [if_pos (isOf_iff.2 hkey), huser, horg]

theorem reassigns_updateMemberRole (t : MemberTable) (userID orgID : UUID) (role : Role) :
    Reassigns t (t.updateMemberRole userID orgID role) userID orgID (some role) where
  others m hkey := by
    rw [mem_updateMemberRole]
    constructor
    · rintro (⟨_, hm⟩ | ⟨rfl, _⟩)
      · exact hm
      · exact absurd rfl hkey
    · exact fun hm => Or.inl ⟨hkey, hm⟩
  self m hm hkey := by
    rcases mem_updateMemberRole.1 hm with ⟨hne, _⟩ | ⟨rfl, _⟩
    · exact absurd hkey hne
    · rfl
  kept r hr hmem := by
    obtain rfl := Option.some.inj hr
    exact mem_updateMemberRole.2 (Or.inr ⟨rfl, hmem⟩)

theorem reassigns_removeMember (t : MemberTable) (userID orgID : UUID) :
    Reassigns t (t.removeMember userID orgID) userID orgID none where
  others m hkey := by
    have hnot : m.isOf userID orgID = false := by
      rw [Bool.eq_false_iff]
      exact fun hof => hkey (isOf_iff.1 hof)
    simp [removeMember, List.mem_filter, hnot]
  self m hm hkey := by
    have hnot := (List.mem_filter.1 hm).2
    rw [isOf_iff.2 hkey] at hnot
    cases hnot
  kept r hr := by cases hr

theorem subset_addMember (t : MemberTable) (userID orgID : UUID) (role : Role) :
    t.rows ⊆ (t.addMember userID orgID role).rows := by
  unfold addMember
  split
  · exact fun _ hm => hm
  · exact fun _ hm => List.mem_append_left _ hm

theorem reassigns_upsertMember (t : MemberTable) (userID orgID : UUID) (role : Role) :
    Reassigns t (t.upsertMember userID orgID role) userID orgID (some role) := by
  unfold upsertMember
  split
  · exact reassigns_updateMemberRole t userID orgID role
  · next hnone =>
    have hadded : (t.addMember userID orgID role).rows = t.rows ++ [⟨userID, orgID, role⟩] := by
      simp [addMember, hnone]
    have habsent : ∀ m ∈ t.rows, m.key ≠ (userID, orgID) := fun m hm hkey =>
      hnone (List.any_eq_true.2 ⟨m, hm, isOf_iff.2 hkey⟩)
    refine { others := fun m hkey => ?_, self := fun m hm hkey => ?_, kept := fun r hr _ => ?_ }
    · rw [hadded, List.mem_append, List.mem_singleton]
      constructor
      · rintro (hm | rfl)
        · exact hm
        · exact absurd rfl hkey
      · exact Or.inl
    · rw [hadded, List.mem_append, List.mem_singleton] at hm
      rcases hm with hm | rfl
      · exact absurd hkey (habsent m hm)
      · rfl
    · obtain rfl := Option.some.inj hr
      rw [hadded]
      simp

end MemberTable

end Sluicio.Identity
