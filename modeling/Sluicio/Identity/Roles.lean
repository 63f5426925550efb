import Sluicio.Identity.Policies

/-!
# Roles

The order of the three roles, the cap a token puts on its owner's role, and the best of
several roles.
-/

namespace Sluicio.Identity

/-- `Role(s)`. -/
def Role.ofString (s : String) : Role :=
  if s = "admin" then .admin
  else if s = "editor" then .editor
  else if s = "viewer" then .viewer
  else .unknown

def Role.isValid : Role → Bool
  | .admin | .editor | .viewer => true
  | .unknown => false

/-- `rank`; an unknown role never out-privileges a real one. -/
def Role.rank : Role → Nat
  | .admin => 3
  | .editor => 2
  | .viewer => 1
  | .unknown => 0

/-- `Cap`.  An invalid cap is no cap. -/
def Role.cap (r cap : Role) : Role :=
  if !cap.isValid then r
  else if cap.rank < r.rank then cap
  else r

theorem Role.rank_injective : Function.Injective Role.rank := by
  intro a b h
  cases a <;> cases b <;> simp_all [Role.rank]

theorem Role.rank_cap_le_cap {r cap : Role} (hcap : cap.isValid) : (r.cap cap).rank ≤ cap.rank := by
  unfold Role.cap
  simp only [hcap, Bool.not_true, Bool.false_eq_true, if_false]
  split_ifs <;> omega

theorem Role.cap_admin (r : Role) : r.cap .admin = r := by
  cases r <;> rfl

theorem Role.canWrite_iff (r : Role) : r.canWrite ↔ 2 ≤ r.rank := by
  cases r <;> decide

theorem Role.canAdmin_iff (r : Role) : r.canAdmin ↔ 3 ≤ r.rank := by
  cases r <;> decide

end Sluicio.Identity
