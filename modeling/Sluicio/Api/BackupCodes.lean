import Sluicio.Api.Mfa

/-!
# Backup codes, statement by statement

`ConsumeBackupCode` reads the list of hashes, drops the presented code from it and writes the
list back.  Between the two statements other requests run theirs.  A code is known by its
hash here; `accepted` holds the hash of every code that was accepted.
-/

namespace Sluicio.Api.BackupCodes

open Identity Lib
open Tracecompletion (trimSpace)

/-- A request that presents a code. -/
inductive Request where
  | mfaVerify (token code : String)
  | mfaDisable (p : Account) (code : String)

inductive Stage where
  /-- MFA was enabled, and the code is not one of the time -/
  | checked
  /-- the backup codes were read, and the code is one of them -/
  | matched (hashes : List String)
  | passed
  deriving DecidableEq

/-- A request in progress. -/
structure Attempt where
  call : Nat
  user : UUID
  disables : Bool
  code : String
  stage : Stage := .checked

/-- The table, the requests in progress and the codes that were accepted. -/
structure State where
  mfa : MfaStore
  attempts : List Attempt := []
  accepted : List (UUID × String) := []

/-- A request comes in or takes its next statement, in any order among the requests. -/
inductive Action where
  /-- a request comes in: `MFASecret` and `Validate` -/
  | begin (call : Nat) (r : Request) (now : Int)
  | readCodes (call : Nat)
  | writeCodes (call : Nat)
  | deleteRow (call : Nat)

section Steps

variable (f : MfaFunctions)

/-- The user whom a request is for, if it gets as far as the code. -/
def Request.user (hasKey : Bool) (now : Int) : Request → Option UUID
  | .mfaVerify token _ => f.verifyMFAPendingToken hasKey (trimSpace token) now
  | .mfaDisable p _ => (accountUser p).toOption

def Request.code : Request → String
  | .mfaVerify _ code | .mfaDisable _ code => code

def Request.disables : Request → Bool
  | .mfaVerify _ _ => false
  | .mfaDisable _ _ => true

def Attempt.want (a : Attempt) : String := f.hashToken (trimSpace a.code)

def State.without (s : State) (a : Attempt) : List Attempt :=
  s.attempts.filter fun x => x.call ≠ a.call

/-- A request up to its first statement after `Validate`. -/
def begin (s : State) (call : Nat) (r : Request) (now : Int) : State :=
  match r.user f s.mfa.hasKey now with
  | none => s
  | some user =>
    match s.mfa.mfaSecret user with
    | some (secret, true) =>
      let a : Attempt := { call := call, user := user, disables := r.disables, code := r.code }
      if !f.validate secret r.code now then { s with attempts := a :: s.attempts }
      else if r.disables then { s with attempts := { a with stage := .passed } :: s.attempts }
      else s
    | _ => s

/-- The backup codes are read; a code that is not among them ends the request. -/
def readCodes (s : State) (a : Attempt) : State :=
  match s.mfa.rows a.user with
  | none => { s with attempts := s.without a }
  | some row =>
    if a.want f ∈ row.backupCodeHashes then
      { s with attempts := { a with stage := .matched row.backupCodeHashes } :: s.without a }
    else { s with attempts := s.without a }

/-- What is left of the list that was read is written, and the code accepted. -/
def writeCodes (s : State) (a : Attempt) (hashes : List String) : State :=
  { s with
    mfa := s.mfa.writeCodes a.user (hashes.erase (a.want f))
    accepted := (a.user, a.want f) :: s.accepted
    attempts := if a.disables then { a with stage := .passed } :: s.without a else s.without a }

def step (s : State) : Action → State
  | .begin call r now =>
    -- every request has a number of its own
    if s.attempts.any fun x => x.call = call then s else begin f s call r now
  | .readCodes call =>
    match s.attempts.find? fun x => x.call = call with
    | some a => if a.stage = .checked then readCodes f s a else s
    | none => s
  | .writeCodes call =>
    match s.attempts.find? fun x => x.call = call with
    | some a =>
      match a.stage with
      | .matched hashes => writeCodes f s a hashes
      | _ => s
    | none => s
  | .deleteRow call =>
    match s.attempts.find? fun x => x.call = call with
    | some a =>
      if a.stage = .passed then
        { s with mfa := s.mfa.disableMFA a.user, attempts := s.without a }
      else s
    | none => s

end Steps

/-! ## Each code once -/

/-- The hashes of the codes that a user has left. -/
def stored (mfa : MfaStore) (user : UUID) : List String :=
  ((mfa.rows user).map UserMfa.backupCodeHashes).getD []

/-- No code was accepted more often than it was issued, and one that was accepted as often as
it was issued is not on the list any more. -/
structure SingleUse (issued : UUID → List String) (s : State) : Prop where
  once : ∀ user h, s.accepted.count (user, h) ≤ (issued user).count h
  spent : ∀ user h, s.accepted.count (user, h) = (issued user).count h → h ∉ stored s.mfa user

/-- When the list is written back, it is still the list that was read. -/
def WritesWhatItRead (s : State) : Action → Prop
  | .writeCodes call => ∀ a ∈ s.attempts, a.call = call → ∀ hashes, a.stage = .matched hashes →
      stored s.mfa a.user = hashes
  | _ => True

instance (s : State) : DecidablePred (WritesWhatItRead s) := fun a => by
  cases a with
  | writeCodes call =>
    have : ∀ a : Attempt, Decidable
        (∀ hashes, a.stage = .matched hashes → stored s.mfa a.user = hashes) := fun a =>
      match hstage : a.stage with
      | .checked => isTrue (by simp)
      | .passed => isTrue (by simp)
      | .matched hashes => decidable_of_iff (stored s.mfa a.user = hashes) (by simp)
    exact inferInstanceAs (Decidable (∀ a ∈ s.attempts, a.call = call → ∀ hashes,
      a.stage = .matched hashes → stored s.mfa a.user = hashes))
  | _ => exact isTrue trivial

/-- What holds between two statements: an issued code is on the list, or was accepted, or was
withdrawn; and what a request is about to drop is on the list it read. -/
structure Sound (f : MfaFunctions) (issued : UUID → List String) (s : State) : Prop where
  codes : ∀ user h, s.accepted.count (user, h) + (stored s.mfa user).count h ≤ (issued user).count h
  matched : ∀ a ∈ s.attempts, ∀ hashes, a.stage = .matched hashes → a.want f ∈ hashes

section Lemmas

variable {f : MfaFunctions} {issued : UUID → List String} {s : State} {a : Attempt}

theorem mem_without {x : Attempt} (h : x ∈ s.without a) : x ∈ s.attempts :=
  (List.mem_filter.1 h).1

theorem Sound.attempts (h : Sound f issued s) {attempts : List Attempt}
    (hmem : ∀ x ∈ attempts, x ∈ s.attempts ∨ ∀ hashes, x.stage ≠ .matched hashes) :
    Sound f issued { s with attempts := attempts } where
  codes := h.codes
  matched x hx hashes hstage := by
    rcases hmem x hx with hold | hnot
    · exact h.matched x hold hashes hstage
    · exact absurd hstage (hnot hashes)

theorem Sound.begin (h : Sound f issued s) (call : Nat) (r : Request) (now : Int) :
    Sound f issued (begin f s call r now) := by
  unfold BackupCodes.begin
  cases r.user f s.mfa.hasKey now with
  | none => exact h
  | some user =>
    simp only
    split
    · split_ifs
      · refine h.attempts fun x hx => ?_
        rcases List.mem_cons.1 hx with rfl | hold
        · exact Or.inr (by simp)
        · exact Or.inl hold
      · refine h.attempts fun x hx => ?_
        rcases List.mem_cons.1 hx with rfl | hold
        · exact Or.inr (by simp)
        · exact Or.inl hold
      · exact h
    · exact h

theorem Sound.readCodes (h : Sound f issued s) : Sound f issued (readCodes f s a) := by
  have hfewer : Sound f issued { s with attempts := s.without a } :=
    h.attempts fun x hx => Or.inl (mem_without hx)
  unfold BackupCodes.readCodes
  cases s.mfa.rows a.user with
  | none => exact hfewer
  | some row =>
    simp only
    split_ifs with hmem
    · refine { codes := h.codes, matched := fun x hx hashes hstage => ?_ }
      rcases List.mem_cons.1 hx with rfl | hold
      · obtain rfl := Stage.matched.inj hstage
        exact hmem
      · exact h.matched x (mem_without hold) hashes hstage
    · exact hfewer

/-- What the `UPDATE` leaves on the lists. -/
theorem stored_writeCodes (mfa : MfaStore) (user u : UUID) (kept : List String)
    (h : stored mfa user ≠ []) :
    stored (mfa.writeCodes user kept) u = if u = user then kept else stored mfa u := by
  unfold MfaStore.writeCodes
  cases hrow : mfa.rows user with
  | none => exact absurd (by simp [stored, hrow]) h
  | some row =>
    by_cases hu : u = user
    · subst hu
      simp [stored]
    · simp [stored, hu, MfaStore.setRow_rows_of_ne _ hu]

theorem stored_disableMFA_count_le (mfa : MfaStore) (user u : UUID) (x : String) :
    (stored (mfa.disableMFA user) u).count x ≤ (stored mfa u).count x := by
  by_cases hu : u = user
  · subst hu
    simp [stored, MfaStore.disableMFA]
  · simp [stored, MfaStore.disableMFA, MfaStore.setRow_rows_of_ne _ hu]

theorem Sound.writeCodes (h : Sound f issued s) (ha : a ∈ s.attempts) {hashes : List String}
    (hstage : a.stage = .matched hashes) (hread : stored s.mfa a.user = hashes) :
    Sound f issued (writeCodes f s a hashes) := by
  have hmem : a.want f ∈ stored s.mfa a.user := hread ▸ h.matched a ha hashes hstage
  refine { codes := fun user x => ?_, matched := fun y hy hs hys => ?_ }
  · have hcodes := h.codes user x
    simp only [BackupCodes.writeCodes]
    rw [stored_writeCodes _ _ _ _ (List.ne_nil_of_mem hmem), ← hread, List.count_cons]
    by_cases huser : user = a.user
    · subst huser
      rw [if_pos rfl, List.count_erase]
      by_cases hx : a.want f = x
      · subst hx
        have hpos := List.count_pos_iff.2 hmem
        simp only [beq_self_eq_true, if_true]
        omega
      · simp [hx]
        exact hcodes
    · rw [if_neg huser]
      simpa [Ne.symm huser] using hcodes
  · simp only [BackupCodes.writeCodes] at hy
    have hold : y ∈ s.attempts ∨ ∀ hs, y.stage ≠ .matched hs := by
      split at hy
      · rcases List.mem_cons.1 hy with rfl | hrest
        · exact Or.inr (by simp)
        · exact Or.inl (mem_without hrest)
      · exact Or.inl (mem_without hy)
    rcases hold with hold | hnot
    · exact h.matched y hold hs hys
    · exact absurd hys (hnot hs)

theorem Sound.step (h : Sound f issued s) (act : Action) (hcond : WritesWhatItRead s act) :
    Sound f issued (step f s act) := by
  cases act with
  | begin call r now =>
    simp only [BackupCodes.step]
    split
    · exact h
    · exact h.begin call r now
  | readCodes call =>
    simp only [BackupCodes.step]
    split
    · split
      · exact h.readCodes
      · exact h
    · exact h
  | writeCodes call =>
    simp only [BackupCodes.step]
    split
    · next a hfind =>
      have hmem : a ∈ s.attempts := List.mem_of_find?_eq_some hfind
      have hcall : a.call = call := by simpa using List.find?_some hfind
      split
      · next hashes hstage =>
        exact h.writeCodes hmem hstage (hcond a hmem hcall hashes hstage)
      · exact h
    · exact h
  | deleteRow call =>
    simp only [BackupCodes.step]
    split
    · next a hfind =>
      split
      · refine { codes := fun user x => ?_, matched := fun y hy => h.matched y (mem_without hy) }
        have hless := stored_disableMFA_count_le s.mfa a.user user x
        have hcodes := h.codes user x
        simp only
        omega
      · exact h
    · exact h

theorem Sound.singleUse (h : Sound f issued s) : SingleUse issued s where
  once user x := by
    have hcodes := h.codes user x
    omega
  spent user x hall hmem := by
    have hcodes := h.codes user x
    have hpos := List.count_pos_iff.2 hmem
    omega

theorem sound_start (f : MfaFunctions) (mfa : MfaStore) : Sound f (stored mfa) { mfa := mfa } where
  codes user x := by simp
  matched a ha := by cases ha

end Lemmas

/-- **Backup codes are single use when no write falls between a read and its write.**  For any
interleaving of the statements of any requests of any users. -/
theorem singleUse_of_writesWhatItRead {f : MfaFunctions} {mfa : MfaStore} {as : List Action}
    (h : StepsMeet (step f) WritesWhatItRead { mfa := mfa } as) :
    SingleUse (stored mfa) (run (step f) { mfa := mfa } as) :=
  (h.invariant (fun _ act hs hcond => Sound.step hs act hcond) (sound_start f mfa)).singleUse

/-! Two logins of one user, who has two codes. -/

private def plain : MfaFunctions where
  code := fun _ _ => none
  hashToken := id
  mfaHMAC := fun _ => "mac"
  uuidString := fun _ => "7"
  parseUUID := fun _ => some 7

private def twoCodes : MfaStore where
  rows := fun u =>
    if u = 7 then
      some { secret := "S", enabledAt := some 0, backupCodeHashes := ["aaaaa", "bbbbb"] }
    else none

private def logins (code₁ code₂ : String) : List Action :=
  [.begin 1 (.mfaVerify "7.600.mac" code₁) 60, .begin 2 (.mfaVerify "7.600.mac" code₂) 60,
    .readCodes 1, .readCodes 2, .writeCodes 1, .writeCodes 2]

private def oneAfterTheOther : List Action :=
  [.begin 1 (.mfaVerify "7.600.mac" "aaaaa") 60, .readCodes 1, .writeCodes 1,
    .begin 2 (.mfaVerify "7.600.mac" "bbbbb") 70, .readCodes 2, .writeCodes 2]

theorem singleUse_oneAfterTheOther :
    SingleUse (stored twoCodes) (run (step plain) { mfa := twoCodes } oneAfterTheOther) :=
  singleUse_of_writesWhatItRead (by decide +kernel)

/-- With the statements of the two interleaved, one code is accepted twice, and of two
different codes the one that was accepted first is on the list again. -/
theorem logins_not_singleUse :
    ¬ SingleUse (stored twoCodes) (run (step plain) { mfa := twoCodes } (logins "aaaaa" "aaaaa")) ∧
    ¬ SingleUse (stored twoCodes)
      (run (step plain) { mfa := twoCodes } (logins "aaaaa" "bbbbb")) := by
  constructor
  · intro h
    have honce := h.once 7 "aaaaa"
    revert honce
    decide +kernel
  · intro h
    have hspent := h.spent 7 "aaaaa"
    revert hspent
    decide +kernel

end Sluicio.Api.BackupCodes
