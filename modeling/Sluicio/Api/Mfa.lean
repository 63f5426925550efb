import Sluicio.Identity.Mfa
import Sluicio.Lib.Run

/-!
# Multi-factor authentication: the requests

Enrollment is set up, confirmed and switched off by requests of a signed-in user; a login
with the right password of a user who has it enabled gives a pending token, which
`mfaVerify` exchanges for a session.
-/

namespace Sluicio.Api

open Identity Lib MfaStore
open Tracecompletion (trimSpace)

/-- What the account handlers read of the principal. -/
structure Account where
  userID : Option UUID
  isDemo : Bool := false

/-- A login or account request: `login` with the user whose password was right, and the others
with what they read of the body (`none` for one that is not JSON) and what they draw at
random: a session id, a secret, the backup codes. -/
inductive MfaCall where
  | login (user : UUID) (sessionID : String)
  | mfaVerify (token code : String) (sessionID : String)
  | mfaStatus (p : Account)
  | mfaSetup (p : Account) (secret : String)
  | mfaEnable (p : Account) (code : Option String) (codes : List String)
  | mfaDisable (p : Account) (code : Option String)

structure MfaRequest where
  now : Int
  call : MfaCall

inductive MfaAnswer where
  | refused (status : Nat) (message : String)
  | status (enabled pending available : Bool)
  | secret (secret : String)
  | enabled (codes : List String)
  | disabled
  | mfaRequired (token : String)
  | signedIn (session : Session)

structure MfaState where
  mfa : MfaStore
  sessions : List Session := []

section Handlers

variable (f : MfaFunctions) (s : MfaState) (now : Int)

def finishLogin (user : UUID) (sessionID : String) : MfaAnswer × MfaState :=
  (.signedIn ⟨sessionID, user⟩, { s with sessions := s.sessions ++ [⟨sessionID, user⟩] })

/-- `login`, after the password. -/
def login (user : UUID) (sessionID : String) : MfaAnswer × MfaState :=
  if (s.mfa.mfaStatus user).2 then
    match f.issueMFAPendingToken s.mfa.hasKey user now with
    | none => (.refused 500 "login failed", s)
    | some token => (.mfaRequired token, s)
  else finishLogin s user sessionID

/-- The second factor, as `mfaDisable` and `mfaVerify` check it: a code of the time, else a
backup code, which is then used up. -/
def secondFactor (userID : UUID) (secret code : String) : Bool × MfaState :=
  if f.validate secret code now then (true, s)
  else
    let (used, mfa) := s.mfa.consumeBackupCode f userID code
    (used, { s with mfa := mfa })

def mfaVerify (token code sessionID : String) : MfaAnswer × MfaState :=
  match f.verifyMFAPendingToken s.mfa.hasKey (trimSpace token) now with
  | none => (.refused 401 "this sign-in attempt expired — start again", s)
  | some userID =>
    match s.mfa.mfaSecret userID with
    | some (secret, true) =>
      match secondFactor f s now userID secret code with
      | (false, s) => (.refused 401 "incorrect code", s)
      | (true, s) => finishLogin s userID sessionID
    | _ => (.refused 401 "MFA not enabled", s)

def mfaStatus (p : Account) : MfaAnswer × MfaState :=
  match p.userID with
  | none => (.refused 401 "authentication required", s)
  | some userID =>
    let st := s.mfa.mfaStatus userID
    (.status st.2 (st.1 && !st.2) s.mfa.hasKey, s)

/-- The user of an account request: `demoAccountGuard`, and then a signed-in user. -/
def accountUser (p : Account) : Except MfaAnswer UUID :=
  if p.isDemo then
    .error (.refused 403
      "this is a shared demo account — profile and security settings are disabled")
  else
    match p.userID with
    | none => .error (.refused 401 "authentication required")
    | some userID => .ok userID

/-- `mfaSetup`.  It does not ask whether MFA is enabled. -/
def mfaSetup (p : Account) (secret : String) : MfaAnswer × MfaState :=
  match accountUser p with
  | .error a => (a, s)
  | .ok userID =>
    if !s.mfa.hasKey then
      (.refused 503 "MFA is not available — the server has no encryption key configured", s)
    else
      match s.mfa.startMFAEnrollment userID secret with
      | none => (.refused 503 "MFA is not available", s)
      | some mfa => (.secret secret, { s with mfa := mfa })

def mfaEnable (p : Account) (code : Option String) (codes : List String) : MfaAnswer × MfaState :=
  match accountUser p with
  | .error a => (a, s)
  | .ok userID =>
    match code with
    | none => (.refused 400 "invalid JSON body", s)
    | some code =>
      match s.mfa.mfaSecret userID with
      | none => (.refused 400 "start enrollment first", s)
      | some (_, true) => (.refused 409 "MFA is already enabled", s)
      | some (secret, false) =>
        if !f.validate secret code now then
          (.refused 400
            "that code is incorrect — check your authenticator app's clock and try again", s)
        else
          match s.mfa.enableMFA userID now (codes.map f.hashToken) with
          | none => (.refused 500 "could not enable MFA", s)
          | some mfa => (.enabled codes, { s with mfa := mfa })

def mfaDisable (p : Account) (code : Option String) : MfaAnswer × MfaState :=
  match accountUser p with
  | .error a => (a, s)
  | .ok userID =>
    match code with
    | none => (.refused 400 "invalid JSON body", s)
    | some code =>
      match s.mfa.mfaSecret userID with
      | some (secret, true) =>
        match secondFactor f s now userID secret code with
        | (false, s) => (.refused 400 "incorrect code", s)
        | (true, s) => (.disabled, { s with mfa := s.mfa.disableMFA userID })
      | _ => (.refused 400 "MFA is not enabled", s)

def handleMfa (r : MfaRequest) : MfaAnswer × MfaState :=
  match r.call with
  | .login user sessionID => login f s r.now user sessionID
  | .mfaVerify token code sessionID => mfaVerify f s r.now token code sessionID
  | .mfaStatus p => mfaStatus s p
  | .mfaSetup p secret => mfaSetup s p secret
  | .mfaEnable p code codes => mfaEnable f s r.now p code codes
  | .mfaDisable p code => mfaDisable f s r.now p code

def mfaStep (r : MfaRequest) : MfaState := (handleMfa f s r).2

end Handlers

/-! ## Switching it off -/

/-- The code that a request presents. -/
def MfaCall.code : MfaCall → Option String
  | .login _ _ | .mfaStatus _ | .mfaSetup _ _ => none
  | .mfaVerify _ code _ => some code
  | .mfaEnable _ code _ | .mfaDisable _ code => code

def SecondFactor (f : MfaFunctions) (s : MfaState) (now : Int) (user : UUID) (code : String) :
    Prop :=
  ∃ row, s.mfa.rows user = some row ∧
    (f.validate row.secret code now ∨ f.hashToken (trimSpace code) ∈ row.backupCodeHashes)

def EndsBySecondFactor (f : MfaFunctions) (s : MfaState) (r : MfaRequest) : Prop :=
  ∀ user, s.mfa.enabled user → (mfaStep f s r).mfa.enabled user = false →
    ∃ code, r.call.code = some code ∧ SecondFactor f s r.now user code

def SetsUpDisabledOnly (s : MfaState) (r : MfaRequest) : Prop :=
  ∀ p secret user, r.call = .mfaSetup p secret → accountUser p = .ok user →
    s.mfa.hasKey → s.mfa.enabled user = false

section Lemmas

variable {f : MfaFunctions} {s : MfaState} {now : Int} {user : UUID} {secret code : String}

/-- A check of the second factor fails and changes nothing, succeeds by a code of the time and
changes nothing, or uses up a backup code that was left. -/
theorem secondFactor_cases (f : MfaFunctions) (s : MfaState) (now : Int) (user : UUID)
    (secret code : String) :
    secondFactor f s now user secret code = (false, s) ∨
    (secondFactor f s now user secret code = (true, s) ∧ f.validate secret code now) ∨
    ∃ row, s.mfa.rows user = some row ∧ f.hashToken (trimSpace code) ∈ row.backupCodeHashes ∧
      secondFactor f s now user secret code =
        (true, { s with
          mfa := s.mfa.setRow user (some { row with
            backupCodeHashes :=
              row.backupCodeHashes.erase (f.hashToken (trimSpace code)) }) }) := by
  unfold secondFactor
  by_cases hvalid : f.validate secret code now = true
  · simp [hvalid]
  rcases s.mfa.consumeBackupCode_cases f user code with hnone | ⟨row, hrow, hmem, hused⟩
  · simp [hvalid, hnone]
  · refine Or.inr (Or.inr ⟨row, hrow, hmem, ?_⟩)
    simp [hvalid, hused]

variable {p : Account} {u : UUID} {s' : MfaState}

/-- What a successful check leaves: a second factor was presented, MFA is enabled for the same
users, and the sessions are the same. -/
theorem secondFactor_true (h : secondFactor f s now user secret code = (true, s'))
    (hsecret : s.mfa.mfaSecret user = some (secret, true)) :
    SecondFactor f s now user code ∧ (∀ u, s'.mfa.enabled u = s.mfa.enabled u) ∧
      s'.sessions = s.sessions := by
  rcases secondFactor_cases f s now user secret code with
    hfail | ⟨hok, hvalid⟩ | ⟨row, hrow, hmem, hused⟩
  · simp [hfail] at h
  · rw [hok] at h
    obtain rfl := (Prod.mk.inj h).2
    obtain ⟨row, hrow, rfl, _⟩ := s.mfa.mfaSecret_eq_some hsecret
    exact ⟨⟨row, hrow, Or.inl hvalid⟩, fun _ => rfl, rfl⟩
  · rw [hused] at h
    obtain rfl := (Prod.mk.inj h).2
    refine ⟨⟨row, hrow, Or.inr hmem⟩, fun u => ?_, rfl⟩
    by_cases hu : u = user
    · subst hu
      simp [enabled, hrow]
    · simp [enabled, setRow_rows_of_ne _ hu]

theorem secondFactor_false (h : secondFactor f s now user secret code = (false, s')) : s' = s := by
  rcases secondFactor_cases f s now user secret code with hfail | ⟨hok, _⟩ | ⟨row, _, _, hused⟩
  · rw [hfail] at h
    exact (Prod.mk.inj h).2.symm
  · simp [hok] at h
  · simp [hused] at h

theorem login_mfa (f : MfaFunctions) (s : MfaState) (now : Int) (user : UUID)
    (sessionID : String) : (login f s now user sessionID).2.mfa = s.mfa := by
  unfold login
  split
  · split <;> rfl
  · rfl

theorem mfaStatus_state (s : MfaState) (p : Account) : (mfaStatus s p).2 = s := by
  unfold mfaStatus
  split <;> rfl

theorem mfaVerify_enabled (f : MfaFunctions) (s : MfaState) (now : Int)
    (token code sessionID : String) (u : UUID) :
    (mfaVerify f s now token code sessionID).2.mfa.enabled u = s.mfa.enabled u := by
  unfold mfaVerify
  cases f.verifyMFAPendingToken s.mfa.hasKey (trimSpace token) now with
  | none => rfl
  | some userID =>
    simp only
    split
    · next secret hsecret =>
      cases hfactor : secondFactor f s now userID secret code with
      | mk ok s' =>
        cases ok with
        | false => rw [secondFactor_false hfactor]
        | true => exact (secondFactor_true hfactor hsecret).2.1 u
    · rfl

theorem mfaSetup_cases (s : MfaState) (p : Account) (secret : String) :
    (mfaSetup s p secret).2 = s ∨
    ∃ user, accountUser p = .ok user ∧ s.mfa.hasKey ∧
      (mfaSetup s p secret).2 =
        { s with mfa := s.mfa.setRow user (some { secret := secret }) } := by
  unfold mfaSetup
  cases hp : accountUser p with
  | error a => exact Or.inl rfl
  | ok user =>
    cases hkey : s.mfa.hasKey with
    | false => exact Or.inl (by simp)
    | true => exact Or.inr ⟨user, rfl, rfl, by simp [startMFAEnrollment, hkey]⟩

theorem mfaEnable_enabled {code : Option String} {codes : List String} (h : s.mfa.enabled u) :
    (mfaEnable f s now p code codes).2.mfa.enabled u := by
  unfold mfaEnable
  cases accountUser p with
  | error a => exact h
  | ok user =>
    cases code with
    | none => exact h
    | some code =>
      simp only
      split
      · exact h
      · exact h
      · next secret hsecret =>
        obtain ⟨row, hrow, _, hoff⟩ := s.mfa.mfaSecret_eq_some hsecret
        have hu : u ≠ user := by
          rintro rfl
          rw [h] at hoff
          cases hoff
        have hother : ∀ row', (s.mfa.setRow user row').enabled u := by
          intro row'
          simpa [enabled, setRow_rows_of_ne _ hu] using h
        split
        · exact h
        · simp only [enableMFA, hrow]
          exact hother _

theorem mfaDisable_enabled {code : Option String} (h : s.mfa.enabled u)
    (hoff : (mfaDisable f s now p code).2.mfa.enabled u = false) :
    ∃ c, code = some c ∧ SecondFactor f s now u c := by
  unfold mfaDisable at hoff
  cases hp : accountUser p with
  | error a =>
    rw [hp] at hoff
    exact absurd h (by simpa using hoff)
  | ok user =>
    cases code with
    | none =>
      rw [hp] at hoff
      exact absurd h (by simpa using hoff)
    | some c =>
      simp only [hp] at hoff
      split at hoff
      · next secret hsecret =>
        cases hfactor : secondFactor f s now user secret c with
        | mk ok s' =>
          cases ok with
          | false =>
            simp only [hfactor, secondFactor_false hfactor] at hoff
            exact absurd h (by simpa using hoff)
          | true =>
            obtain ⟨hpresented, hsame, _⟩ := secondFactor_true hfactor hsecret
            by_cases hu : u = user
            · subst hu
              exact ⟨c, rfl, hpresented⟩
            simp only [hfactor] at hoff
            have hkept : (s'.mfa.disableMFA user).enabled u = s'.mfa.enabled u := by
              simp [disableMFA, enabled, setRow_rows_of_ne _ hu]
            rw [hkept, hsame u, h] at hoff
            cases hoff
      · exact absurd h (by simpa using hoff)

theorem endsBySecondFactor_iff (f : MfaFunctions) (s : MfaState) (r : MfaRequest) :
    EndsBySecondFactor f s r ↔ SetsUpDisabledOnly s r := by
  constructor
  · intro h p secret user hcall hp hkey
    by_contra hon
    have hon' : s.mfa.enabled user := by simpa using hon
    have hafter : (mfaStep f s r).mfa.enabled user = false := by
      simp [mfaStep, handleMfa, hcall, mfaSetup, hp, hkey, startMFAEnrollment,
        enabled]
    obtain ⟨code, hcode, _⟩ := h user hon' hafter
    simp [hcall, MfaCall.code] at hcode
  · intro h user hon hoff
    have hkept : (mfaStep f s r).mfa.enabled user ≠ s.mfa.enabled user := by
      rw [hon, hoff]
      simp
    cases hcall : r.call with
    | login u sessionID =>
      simp only [mfaStep, handleMfa, hcall, login_mfa] at hkept
      exact absurd rfl hkept
    | mfaVerify token code sessionID =>
      simp only [mfaStep, handleMfa, hcall, mfaVerify_enabled] at hkept
      exact absurd rfl hkept
    | mfaStatus p =>
      simp only [mfaStep, handleMfa, hcall, mfaStatus_state] at hkept
      exact absurd rfl hkept
    | mfaSetup p secret =>
      simp only [mfaStep, handleMfa, hcall] at hkept
      rcases mfaSetup_cases s p secret with hsame | ⟨u, hp, hkey, hset⟩
      · rw [hsame] at hkept
        exact absurd rfl hkept
      have hne : user ≠ u := by
        rintro rfl
        have hwas := h p secret user hcall hp hkey
        rw [hon] at hwas
        cases hwas
      rw [hset] at hkept
      simp [enabled, setRow_rows_of_ne _ hne] at hkept
    | mfaEnable p code codes =>
      simp only [mfaStep, handleMfa, hcall, mfaEnable_enabled hon, hon] at hkept
      exact absurd rfl hkept
    | mfaDisable p code =>
      simp only [mfaStep, handleMfa, hcall] at hoff
      exact mfaDisable_enabled hon hoff

end Lemmas

/-- **When MFA is switched off by a second factor only.**  Over a run of requests, each end of
a user's enabled state presented a second factor of that user, just when no request of the run
sets up an enrollment for a user who has it enabled. -/
theorem endsBySecondFactor_run_iff (f : MfaFunctions) (s : MfaState) (rs : List MfaRequest) :
    StepsMeet (mfaStep f) (EndsBySecondFactor f) s rs ↔
      StepsMeet (mfaStep f) SetsUpDisabledOnly s rs :=
  ⟨StepsMeet.imp fun s r => (endsBySecondFactor_iff f s r).1,
    StepsMeet.imp fun s r => (endsBySecondFactor_iff f s r).2⟩

/-! A stolen session sets up an enrollment for an account that has MFA enabled; the password
alone then signs in. -/

private def sixZeros : MfaFunctions where
  code := fun _ _ => some "000000"
  hashToken := id
  mfaHMAC := id
  uuidString := fun _ => "7"
  parseUUID := fun _ => some 7

private def enrolled : MfaState where
  mfa := { rows := fun u => if u = 7 then some { secret := "S", enabledAt := some 0 } else none }

private def setUpAgain : List MfaRequest :=
  [⟨60, .mfaSetup { userID := some 7 } "T"⟩, ⟨61, .login 7 "s1"⟩]

theorem setUpAgain_switches_off :
    enrolled.mfa.enabled 7 ∧
    ¬ StepsMeet (mfaStep sixZeros) (EndsBySecondFactor sixZeros) enrolled setUpAgain ∧
    (run (mfaStep sixZeros) enrolled setUpAgain).sessions = [⟨"s1", 7⟩] := by
  refine ⟨rfl, ?_, by decide +kernel⟩
  rintro ⟨hends, -⟩
  obtain ⟨code, hcode, -⟩ := hends 7 rfl (by decide +kernel)
  cases hcode

end Sluicio.Api
