import Sluicio.Identity.Sso

/-!
# Multi-factor authentication: the table

One row of `user_mfa` for each user who has started an enrollment: the secret, when it was
confirmed, and the hashes of the backup codes that are left.  The code of a counter, the hash
of a token, the HMAC of a pending login and the text of an id are parameters.
-/

namespace Sluicio.Identity

open Tracecompletion (trimSpace)

/-- What the checks of a code and of a pending login compute with. -/
structure MfaFunctions where
  /-- the six digits for a secret and a counter, `none` for a secret that is not base32 -/
  code : String → Int → Option String
  hashToken : String → String
  mfaHMAC : String → String
  uuidString : UUID → String
  parseUUID : String → Option UUID

/-- The loop of `Validate` over the windows that are left. -/
def MfaFunctions.matchesWindow (f : MfaFunctions) (secret input : String) (counter : Int) :
    List Int → Bool
  | [] => false
  | d :: ds =>
    match f.code secret (counter + d) with
    | none => false
    | some want => want = input || matchesWindow f secret input counter ds

/-- `Validate`: the window of the time, and the one before and after it. -/
def MfaFunctions.validate (f : MfaFunctions) (secret input : String) (t : Int) : Bool :=
  let input := trimSpace input
  if input.utf8ByteSize ≠ 6 then false
  else f.matchesWindow secret input (t.tdiv 30) [0, -1, 1]

/-- `mfaPendingTTL`, in seconds. -/
def mfaPendingTTL : Int := 300

/-- The value of a run of decimal digits, `none` for an empty one or another character. -/
def parseDigits (cs : List Char) : Option Nat :=
  if cs = [] ∨ cs.any (fun c => !c.isDigit) then none
  else some (cs.foldl (fun n c => 10 * n + (c.toNat - '0'.toNat)) 0)

/-- `strconv.ParseInt(text, 10, 64)`. -/
def parseInt (text : String) : Option Int :=
  let value : Option Int :=
    match text.toList with
    | '-' :: cs => (parseDigits cs).map fun n => -(n : Int)
    | '+' :: cs => (parseDigits cs).map fun n => (n : Int)
    | cs => (parseDigits cs).map fun n => (n : Int)
  value.filter fun n => -2 ^ 63 ≤ n && n < 2 ^ 63

theorem parseDigits_toDigits (n : Nat) : parseDigits (Nat.toDigits 10 n) = some n := by
  have hdigits : (Nat.toDigits 10 n).any (fun c => !c.isDigit) = false := by
    rw [List.any_eq_false]
    intro c hc
    simpa using Nat.isDigit_of_mem_toDigits (by decide) (by decide) hc
  rw [parseDigits, if_neg (by simp [hdigits, Nat.toDigits_ne_nil]), ← Nat.ofDigitChars_eq_foldl,
    Nat.ofDigitChars_ten_toDigits]

theorem toList_toString_ofNat (m : Nat) : (toString (Int.ofNat m)).toList = Nat.toDigits 10 m := by
  show (Nat.repr m).toList = _
  rw [Nat.toList_repr]

theorem toList_toString_negSucc (m : Nat) :
    (toString (Int.negSucc m)).toList = '-' :: Nat.toDigits 10 (m + 1) := by
  show ("-" ++ Nat.repr (m + 1)).toList = _
  rw [String.toList_append, Nat.toList_repr]
  rfl

theorem parseInt_toString {n : Int} (h : -2 ^ 63 ≤ n ∧ n < 2 ^ 63) :
    parseInt (toString n) = some n := by
  have hfilter : (some n).filter (fun n => decide (-2 ^ 63 ≤ n) && decide (n < 2 ^ 63)) =
      some n := by
    rw [Option.filter_some, if_pos]
    simpa using h
  cases n with
  | ofNat m =>
    have hparse := parseDigits_toDigits m
    simp only [parseInt, toList_toString_ofNat]
    cases hdigits : Nat.toDigits 10 m with
    | nil => exact absurd hdigits Nat.toDigits_ne_nil
    | cons c cs =>
      -- a sign is no digit
      have hdigit : c.isDigit :=
        Nat.isDigit_of_mem_toDigits (by decide) (by decide) (hdigits ▸ List.mem_cons_self)
      rw [hdigits] at hparse
      split
      · next heq =>
        rw [(List.cons.inj heq).1] at hdigit
        exact absurd hdigit (by decide)
      · next heq =>
        rw [(List.cons.inj heq).1] at hdigit
        exact absurd hdigit (by decide)
      · rw [hparse]
        exact hfilter
  | negSucc m =>
    simp only [parseInt, toList_toString_negSucc, parseDigits_toDigits]
    exact hfilter

def MfaFunctions.issueMFAPendingToken (f : MfaFunctions) (hasKey : Bool) (userID : UUID)
    (now : Int) : Option String :=
  if !hasKey then none
  else
    let payload := f.uuidString userID ++ "." ++ toString (now + mfaPendingTTL)
    some (payload ++ "." ++ f.mfaHMAC payload)

def MfaFunctions.verifyMFAPendingToken (f : MfaFunctions) (hasKey : Bool) (token : String)
    (now : Int) : Option UUID :=
  if !hasKey then none
  else
    match (token.toList.splitOn '.').map String.ofList with
    | [user, expiry, mac] =>
      if f.mfaHMAC (user ++ "." ++ expiry) ≠ mac then none
      else
        match parseInt expiry with
        | none => none
        | some exp => if exp < now then none else f.parseUUID user
    | _ => none

/-! ## The table -/

/-- A row of `user_mfa`.  `enabledAt` is `none` while the enrollment is pending. -/
structure UserMfa where
  secret : String
  enabledAt : Option Int := none
  backupCodeHashes : List String := []

/-- The backup code with this hash, dropped: the first occurrence goes. -/
def dropCode (hashes : List String) (want : String) : Option (List String) :=
  if want ∈ hashes then some (hashes.erase want) else none

/-- The table, and whether an encryption key is configured. -/
structure MfaStore where
  hasKey : Bool := true
  rows : UUID → Option UserMfa := fun _ => none

namespace MfaStore

variable (s : MfaStore)

/-- The user's row, replaced or removed. -/
def setRow (userID : UUID) (row : Option UserMfa) : MfaStore :=
  { s with rows := Function.update s.rows userID row }

@[simp] theorem setRow_rows_self (userID : UUID) (row : Option UserMfa) :
    (s.setRow userID row).rows userID = row := by
  simp [setRow]

theorem setRow_rows_of_ne {userID u : UUID} (h : u ≠ userID) (row : Option UserMfa) :
    (s.setRow userID row).rows u = s.rows u := by
  simp [setRow, h]

/-- MFA is enforced for the user. -/
def enabled (userID : UUID) : Bool :=
  (s.rows userID).any fun row => row.enabledAt.isSome

/-- `MFAStatus`: enrolled, and enabled. -/
def mfaStatus (userID : UUID) : Bool × Bool :=
  ((s.rows userID).isSome, s.enabled userID)

/-- `StartMFAEnrollment`: a new secret, pending, whatever was there. -/
def startMFAEnrollment (userID : UUID) (secret : String) : Option MfaStore :=
  if !s.hasKey then none else some (s.setRow userID (some { secret := secret }))

/-- `MFASecret`: the secret, and whether MFA is enabled. -/
def mfaSecret (userID : UUID) : Option (String × Bool) :=
  match s.rows userID with
  | none => none
  | some row => if !s.hasKey then none else some (row.secret, row.enabledAt.isSome)

def enableMFA (userID : UUID) (now : Int) (backupHashes : List String) : Option MfaStore :=
  match s.rows userID with
  | none => none
  | some row =>
    some (s.setRow userID
      (some { row with enabledAt := some now, backupCodeHashes := backupHashes }))

def disableMFA (userID : UUID) : MfaStore := s.setRow userID none

/-- The `UPDATE` of the backup codes; it changes nothing when the user has no row. -/
def writeCodes (userID : UUID) (kept : List String) : MfaStore :=
  match s.rows userID with
  | none => s
  | some row => s.setRow userID (some { row with backupCodeHashes := kept })

/-- `ConsumeBackupCode`: whether the code was one of those left, and the table after it. -/
def consumeBackupCode (f : MfaFunctions) (userID : UUID) (rawCode : String) : Bool × MfaStore :=
  match s.rows userID with
  | none => (false, s)
  | some row =>
    match dropCode row.backupCodeHashes (f.hashToken (trimSpace rawCode)) with
    | none => (false, s)
    | some kept => (true, s.writeCodes userID kept)

theorem mfaSecret_eq_some {userID : UUID} {secret : String} {enabled : Bool}
    (h : s.mfaSecret userID = some (secret, enabled)) :
    ∃ row, s.rows userID = some row ∧ row.secret = secret ∧ s.enabled userID = enabled := by
  unfold mfaSecret at h
  cases hrow : s.rows userID with
  | none => simp [hrow] at h
  | some row =>
    simp only [hrow] at h
    split at h
    · cases h
    · obtain ⟨hsecret, henabled⟩ := Prod.mk.inj (Option.some.inj h)
      exact ⟨row, rfl, hsecret, by simpa [MfaStore.enabled, hrow] using henabled⟩

theorem consumeBackupCode_cases (f : MfaFunctions) (userID : UUID) (rawCode : String) :
    s.consumeBackupCode f userID rawCode = (false, s) ∨
    ∃ row, s.rows userID = some row ∧
      f.hashToken (trimSpace rawCode) ∈ row.backupCodeHashes ∧
      s.consumeBackupCode f userID rawCode =
        (true, s.setRow userID (some { row with
          backupCodeHashes := row.backupCodeHashes.erase (f.hashToken (trimSpace rawCode)) })) := by
  unfold consumeBackupCode
  cases hrow : s.rows userID with
  | none => exact Or.inl rfl
  | some row =>
    by_cases hmem : f.hashToken (trimSpace rawCode) ∈ row.backupCodeHashes
    · refine Or.inr ⟨row, rfl, hmem, ?_⟩
      simp [dropCode, hmem, writeCodes, hrow]
    · exact Or.inl (by simp [dropCode, hmem])

end MfaStore

end Sluicio.Identity
