import Sluicio.Lib.Rows

/-!
# Passwords, sessions and reset tokens of one user

The passwords that the user has had are numbered in the order they were set, the first one
is 0.  A session and a reset token carry, beside their columns, the number that tells whose
they are: of the password that the login presented, and of the password at the time the token
was issued.
-/

namespace Sluicio.Identity

open Lib

/-- `HashPassword`, with the salt it draws, and `VerifyPassword`. -/
structure PasswordFunctions where
  hashPassword : String → String → String
  verifyPassword : String → String → Bool

/-- What the password handlers read of the row in `users`. -/
structure UserRow where
  passwordHash : String
  isDemo : Bool := false
  mustResetPassword : Bool := false

/-- A row of `sessions`. -/
structure SessionRow where
  expiresAt : Nat
  /-- the password that the login presented -/
  password : Nat

/-- A row of `password_reset_tokens`. -/
structure ResetToken where
  id : Nat
  expiresAt : Nat
  used : Bool := false
  issued : Nat

/-- `AuthenticatePassword`, for the user whose e-mail address was given. -/
def UserRow.authenticatePassword (f : PasswordFunctions) (u : UserRow) (password : String) :
    Bool :=
  if u.passwordHash = "" then false else f.verifyPassword password u.passwordHash

/-- `GetSession` finds the session. -/
def SessionRow.Valid (now : Nat) (x : SessionRow) : Prop := now < x.expiresAt

/-- `ConsumePasswordResetToken` matches the token. -/
def ResetToken.Usable (now : Nat) (t : ResetToken) : Prop := t.used = false ∧ now < t.expiresAt

instance (now : Nat) : DecidablePred (SessionRow.Valid now) := fun x =>
  inferInstanceAs (Decidable (now < x.expiresAt))

instance (now : Nat) : DecidablePred (ResetToken.Usable now) := fun t =>
  inferInstanceAs (Decidable (t.used = false ∧ now < t.expiresAt))

/-- The `UPDATE` of `ConsumePasswordResetToken`: the row it matched, if any, and the table. -/
def consumePasswordResetToken (now token : Nat) (tokens : List ResetToken) :
    Option ResetToken × List ResetToken :=
  (tokens.find? fun t => t.id = token ∧ t.Usable now,
    updateWhere (fun t => t.id = token ∧ t.Usable now) (fun t => { t with used := true }) tokens)

section Lemmas

variable {now token : Nat} {tokens : List ResetToken} {t : ResetToken}

theorem SessionRow.Valid.of_le {now' : Nat} {x : SessionRow} (h : x.Valid now') (hle : now ≤ now') :
    x.Valid now :=
  Nat.lt_of_le_of_lt hle h

theorem ResetToken.Usable.of_le {now' : Nat} (h : t.Usable now') (hle : now ≤ now') :
    t.Usable now :=
  ⟨h.1, Nat.lt_of_le_of_lt hle h.2⟩

theorem consumed_usable (h : (consumePasswordResetToken now token tokens).1 = some t) :
    t ∈ tokens ∧ t.id = token ∧ t.Usable now := by
  have hp := List.find?_some h
  exact ⟨List.mem_of_find?_eq_some h, of_decide_eq_true hp⟩

/-- A row after the `UPDATE` is one of before, and the rows that were matched are used. -/
theorem mem_consumed (h : t ∈ (consumePasswordResetToken now token tokens).2) :
    (t ∈ tokens ∧ (t.id = token → ¬ t.Usable now)) ∨
      (t.id = token ∧ t.used ∧ ∃ t₀ ∈ tokens, t₀.id = t.id ∧ t₀.issued = t.issued) := by
  obtain ⟨t₀, ht₀, hmatch | hother⟩ := mem_updateWhere.1 h
  · obtain ⟨hp, rfl⟩ := hmatch
    exact Or.inr ⟨(of_decide_eq_true hp).1, rfl, t₀, ht₀, rfl, rfl⟩
  · obtain ⟨hp, rfl⟩ := hother
    refine Or.inl ⟨ht₀, fun hid hu => ?_⟩
    exact of_decide_eq_false hp ⟨hid, hu⟩

end Lemmas

end Sluicio.Identity
