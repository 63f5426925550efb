import Sluicio.Identity.PasswordReset
import Sluicio.Lib.InProgress
import Sluicio.Lib.Run

/-!
# Password resets, statement by statement

`resetPassword` consumes the token, writes the hash, deletes the sessions and deletes the
tokens, each in a statement of its own.  A login verifies the password first and inserts the
session later, and with MFA the two are parts of two requests.  Requests of one user run
their statements in any order here, and any statement may fail.
-/

namespace Sluicio.Api.PasswordReset

open Identity Lib

/-- `sessionTTL`, `resetTokenTTL` and `mfaPendingTTL`, in seconds. -/
def sessionTTL : Nat := 7 * 24 * 3600
def resetTokenTTL : Nat := 3600
def mfaPendingTTL : Nat := 300

def minPasswordLen : Nat := 8

/-- A request, with the salt it draws. -/
inductive Request where
  | forgotPassword
  | resetPassword (token : Nat) (newPassword salt : String)
  | login (password : String)
  | mfaVerify (token : Nat)
  | changeMyPassword (currentPassword newPassword salt : String)

/-- What a request has come to, its next statement being the one that comes after. -/
inductive Stage where
  /-- `forgotPassword`: the account has a password -/
  | mailing
  /-- `login`: the password was right -/
  | authenticated (password : Nat)
  /-- `mfaVerify`: the pending token is good -/
  | secondFactor (password : Nat)
  | finishing (password : Nat)
  | consumed (token : ResetToken) (newPassword salt : String)
  /-- it is not the one of a demo account -/
  | resetting (token : ResetToken) (newPassword salt : String)
  | reset (password : Nat)
  | sessionsDeleted (password : Nat)
  | tokensDeleted (password : Nat)
  /-- `changeMyPassword`: the current password was right -/
  | changing (mustReset : Bool) (newPassword salt : String)
  | changed (mustReset : Bool) (password : Nat)

/-- A login that waits for its second factor, known by its token. -/
structure PendingLogin where
  expiresAt : Nat
  /-- the password that the login presented -/
  password : Nat

/-- A write of the password by a reset: the token, the password it was issued under, and the
latest reset that had answered by then. -/
structure Redemption where
  token : Nat
  issued : Nat
  answered : Nat

structure State where
  now : Nat
  user : UserRow
  password : Nat := 0
  sessions : List SessionRow := []
  tokens : List ResetToken := []
  nextToken : Nat := 0
  pending : List PendingLogin := []
  calls : InProgress Stage := ∅
  /-- the latest password that a reset set which has answered success -/
  resetTo : Nat := 0
  /-- the latest password that a change set which has answered success -/
  changedTo : Nat := 0
  redemptions : List Redemption := []

inductive Action where
  | begin (call : Nat) (r : Request)
  /-- the next statement of a request: it succeeds, or fails; the code of `mfaVerify` is right,
  or wrong; `MFAStatus` says enabled, or not -/
  | next (call : Nat) (ok : Bool)
  | drop (call : Nat)
  | tick (seconds : Nat)

section Steps

variable (f : PasswordFunctions)

def State.put (s : State) (call : Nat) (st : Stage) : State :=
  { s with calls := s.calls.put call st }

def State.done (s : State) (call : Nat) : State :=
  { s with calls := s.calls.drop call }

def State.setPasswordHash (s : State) (hash : String) : State :=
  { s with user := { s.user with passwordHash := hash }, password := s.password + 1 }

def State.createPasswordResetToken (s : State) : State :=
  { s with
    tokens := s.tokens ++ [{
      id := s.nextToken
      expiresAt := s.now + resetTokenTTL
      issued := s.password }]
    nextToken := s.nextToken + 1 }

def State.issueMFAPendingToken (s : State) (password : Nat) : State :=
  { s with
    pending := s.pending ++ [{ expiresAt := s.now + mfaPendingTTL, password := password }] }

def State.createSession (s : State) (password : Nat) : State :=
  { s with sessions := s.sessions ++ [{ expiresAt := s.now + sessionTTL, password := password }] }

def State.redeemed (s : State) (t : ResetToken) : State :=
  { s with redemptions := ⟨t.id, t.issued, s.resetTo⟩ :: s.redemptions }

def State.deleteSessionsForUser (s : State) : State := { s with sessions := [] }

def State.invalidateResetTokensForUser (s : State) : State := { s with tokens := [] }

def State.clearMustResetPassword (s : State) : State :=
  { s with user := { s.user with mustResetPassword := false } }

def begin (s : State) (call : Nat) : Request → State
  | .forgotPassword =>
    if s.user.isDemo then s
    else if s.user.passwordHash = "" then s
    else s.put call .mailing
  | .resetPassword token newPassword salt =>
    if newPassword.utf8ByteSize < minPasswordLen then s
    else
      match consumePasswordResetToken s.now token s.tokens with
      | (none, _) => s
      | (some t, tokens) => { s with tokens := tokens }.put call (.consumed t newPassword salt)
  | .login password =>
    if password = "" then s
    else if s.user.authenticatePassword f password then s.put call (.authenticated s.password)
    else s
  | .mfaVerify token =>
    match s.pending[token]? with
    | none => s
    | some p => if p.expiresAt < s.now then s else s.put call (.secondFactor p.password)
  | .changeMyPassword currentPassword newPassword salt =>
    if s.user.isDemo then s
    else if newPassword.utf8ByteSize < 8 then s
    else if s.user.passwordHash = "" then s
    else if f.verifyPassword currentPassword s.user.passwordHash then
      s.put call (.changing s.user.mustResetPassword newPassword salt)
    else s

def next (s : State) (call : Nat) (ok : Bool) : Stage → State
  | .mailing => if ok then s.createPasswordResetToken.done call else s.done call
  | .authenticated password =>
    -- `MFAStatus`; an error counts as not enabled
    if ok then (s.issueMFAPendingToken password).done call else s.put call (.finishing password)
  | .secondFactor password => if ok then s.put call (.finishing password) else s.done call
  | .finishing password => if ok then (s.createSession password).done call else s.done call
  | .consumed token newPassword salt =>
    -- a user that cannot be read does not end the request
    if ok && s.user.isDemo then s.done call else s.put call (.resetting token newPassword salt)
  | .resetting token newPassword salt =>
    if ok then
      ((s.setPasswordHash (f.hashPassword salt newPassword)).redeemed token).put call
        (.reset (s.password + 1))
    else s.done call
  | .reset password =>
    (if ok then s.deleteSessionsForUser else s).put call (.sessionsDeleted password)
  | .sessionsDeleted password =>
    (if ok then s.invalidateResetTokensForUser else s).put call (.tokensDeleted password)
  | .tokensDeleted password => { s with resetTo := max s.resetTo password }.done call
  | .changing mustReset newPassword salt =>
    if ok then
      (s.setPasswordHash (f.hashPassword salt newPassword)).put call
        (.changed mustReset (s.password + 1))
    else s.done call
  | .changed mustReset password =>
    -- the flag is cleared as well as it goes, and then the request answers
    { (if mustReset && ok then s.clearMustResetPassword else s) with
      changedTo := max s.changedTo password }.done call

def step (s : State) : Action → State
  | .begin call r =>
    -- every request has a number of its own
    if (s.calls.stage? call).isSome then s else begin f s call r
  | .next call ok =>
    match s.calls.stage? call with
    | none => s
    | some st => next f s call ok st
  | .drop call => s.done call
  | .tick seconds => { s with now := s.now + seconds }

end Steps

/-- The user, with no session, token or request yet. -/
def start (user : UserRow) (now : Nat) : State := { now := now, user := user }

/-! ## What a reset is for -/

/-- A token sets the password once; and what came before a reset, or before a change of
password, that has answered success is of no use any more. -/
structure Evicted (s : State) : Prop where
  once : (s.redemptions.map Redemption.token).Nodup
  sessions : ∀ x ∈ s.sessions, x.Valid s.now → s.resetTo ≤ x.password
  tokens : ∀ t ∈ s.tokens, t.Usable s.now → s.resetTo ≤ t.issued
  redeemed : ∀ r ∈ s.redemptions, r.answered ≤ r.issued
  changed : ∀ t ∈ s.tokens, t.Usable s.now → s.changedTo ≤ t.issued

/-- A reset that is past its `DeleteSessionsForUser` set a password no later than this one. -/
def Stage.SessionsGone (password : Nat) : Stage → Prop
  | .sessionsDeleted p | .tokensDeleted p => p ≤ password
  | _ => True

instance (password : Nat) : DecidablePred (Stage.SessionsGone password) := fun st => by
  cases st <;> unfold Stage.SessionsGone <;> infer_instance

/-- What the statement of a request must not meet:
a login inserts no session when a reset has answered, or has deleted the sessions, since it
presented its password; a deletion that fails had nothing old to delete; no reset has answered
when one writes the password for a token of before; and a change of password answers when no
token of before it is left. -/
def Undisturbed (s : State) (ok : Bool) : Stage → Prop
  | .finishing password =>
    ok → s.resetTo ≤ password ∧ s.calls.All (Stage.SessionsGone password)
  | .reset password => ok = false → ∀ x ∈ s.sessions, x.Valid s.now → password ≤ x.password
  | .sessionsDeleted password =>
    ok = false → ∀ t ∈ s.tokens, t.Usable s.now → password ≤ t.issued
  | .resetting token _ _ => ok → s.resetTo ≤ token.issued
  | .changed _ password => ∀ t ∈ s.tokens, t.Usable s.now → password ≤ t.issued
  | _ => True

instance (s : State) (ok : Bool) : DecidablePred (Undisturbed s ok) := fun st => by
  cases st <;> unfold Undisturbed <;> infer_instance

def StepUndisturbed (s : State) : Action → Prop
  | .next call ok => ∀ st ∈ s.calls.stage? call, Undisturbed s ok st
  | _ => True

instance (s : State) : DecidablePred (StepUndisturbed s) := fun a => by
  cases a <;> unfold StepUndisturbed <;> infer_instance

/-! ## Each token once -/

def Stage.token : Stage → Option Nat
  | .consumed t _ _ | .resetting t _ _ => some t.id
  | _ => none

/-- A consumed token is in one place: with a request, or among those redeemed.  The table has
it no more as one that is good. -/
structure Spent (s : State) : Prop where
  rows : ∀ t ∈ s.tokens, t.id < s.nextToken
  calls : s.calls.All fun st => ∀ id ∈ st.token, id < s.nextToken ∧
    id ∉ s.redemptions.map Redemption.token ∧ ∀ t ∈ s.tokens, t.id = id → ¬ t.Usable s.now
  apart : s.calls.Apart fun st st' => ∀ id ∈ st.token, id ∉ st'.token
  redeemed : ∀ r ∈ s.redemptions, r.token < s.nextToken ∧
    ∀ t ∈ s.tokens, t.id = r.token → ¬ t.Usable s.now
  once : (s.redemptions.map Redemption.token).Nodup

section Once

variable {f : PasswordFunctions} {s : State} {call : Nat} {st : Stage}

theorem Spent.of_subset {s' : State} (h : Spent s) (hnow : s.now ≤ s'.now)
    (htokens : s'.tokens ⊆ s.tokens) (hnext : s'.nextToken = s.nextToken)
    (hcalls : s'.calls = s.calls) (hredemptions : s'.redemptions = s.redemptions) :
    Spent s' where
  rows t ht := hnext ▸ h.rows t (htokens ht)
  calls := by
    rw [hcalls, hnext, hredemptions]
    exact h.calls.imp fun st hst id hid => ⟨(hst id hid).1, (hst id hid).2.1,
      fun t ht heq hu => (hst id hid).2.2 t (htokens ht) heq (hu.of_le hnow)⟩
  apart := by
    rw [hcalls]
    exact h.apart
  redeemed := by
    rw [hnext, hredemptions]
    exact fun r hr => ⟨(h.redeemed r hr).1,
      fun t ht heq hu => (h.redeemed r hr).2 t (htokens ht) heq (hu.of_le hnow)⟩
  once := by
    rw [hredemptions]
    exact h.once

theorem Spent.done (h : Spent s) (call : Nat) : Spent (s.done call) where
  rows := h.rows
  calls := h.calls.drop call
  apart := h.apart.drop call
  redeemed := h.redeemed
  once := h.once

theorem Spent.put (h : Spent s) (call : Nat) (hst : st.token = none) : Spent (s.put call st) where
  rows := h.rows
  calls := h.calls.put call fun id hid => by
    rw [hst] at hid
    cases hid
  apart := h.apart.put fun c _ _ => by
    constructor
    · intro id hid
      rw [hst] at hid
      cases hid
    · intro id _ hid
      rw [hst] at hid
      cases hid
  redeemed := h.redeemed
  once := h.once

theorem Spent.putSame {st' : Stage} (h : Spent s) (hcall : s.calls.stage? call = some st)
    (hst : st'.token = st.token) : Spent (s.put call st') where
  rows := h.rows
  calls := h.calls.put call fun id hid => by
    rw [hst] at hid
    exact h.calls.of_stage? hcall id hid
  apart := h.apart.put fun c hc hne => by
    have hmem := InProgress.stage?_eq_some.1 hcall
    rw [hst]
    exact ⟨h.apart (call, st) hmem c hc (Ne.symm hne), h.apart c hc (call, st) hmem hne⟩
  redeemed := h.redeemed
  once := h.once

theorem Spent.createPasswordResetToken (h : Spent s) : Spent s.createPasswordResetToken where
  rows t ht := by
    cases List.mem_append.1 ht with
    | inl hold => exact Nat.lt_succ_of_lt (h.rows t hold)
    | inr hnew =>
      rw [List.mem_singleton.1 hnew]
      exact Nat.lt_succ_self s.nextToken
  calls := h.calls.imp fun st hst id hid => by
    have ⟨hlt, hnot, hrows⟩ := hst id hid
    refine ⟨Nat.lt_succ_of_lt hlt, hnot, fun t ht heq => ?_⟩
    cases List.mem_append.1 ht with
    | inl hold => exact hrows t hold heq
    | inr hnew =>
      rw [List.mem_singleton.1 hnew] at heq
      exact absurd hlt (by simp only at heq; omega)
  apart := h.apart
  redeemed r hr := by
    have ⟨hlt, hrows⟩ := h.redeemed r hr
    refine ⟨Nat.lt_succ_of_lt hlt, fun t ht hid => ?_⟩
    cases List.mem_append.1 ht with
    | inl hold => exact hrows t hold hid
    | inr hnew =>
      rw [List.mem_singleton.1 hnew] at hid
      exact absurd hlt (by simp only at hid; omega)
  once := h.once

theorem Spent.consume (h : Spent s) {token : Nat} {t : ResetToken} {tokens : List ResetToken}
    (hconsume : consumePasswordResetToken s.now token s.tokens = (some t, tokens))
    (newPassword salt : String) :
    Spent (State.put { s with tokens := tokens } call (.consumed t newPassword salt)) := by
  have hfst : (consumePasswordResetToken s.now token s.tokens).1 = some t := by rw [hconsume]
  have ⟨hmem, hid, husable⟩ := consumed_usable hfst
  -- a row of the new table that is good was good before, and is another one
  have hrows : ∀ t' ∈ tokens, (∃ t₀ ∈ s.tokens, t₀.id = t'.id) ∧
      (t'.Usable s.now → t' ∈ s.tokens ∧ t'.id ≠ t.id) := by
    intro t' ht'
    rw [show tokens = (consumePasswordResetToken s.now token s.tokens).2 by rw [hconsume]] at ht'
    cases mem_consumed ht' with
    | inl hold =>
      refine ⟨⟨t', hold.1, rfl⟩, fun hu => ⟨hold.1, fun heq => ?_⟩⟩
      exact hold.2 (heq.trans hid) hu
    | inr hused =>
      have ⟨_, hflag, t₀, ht₀, heq, _⟩ := hused
      exact ⟨⟨t₀, ht₀, heq⟩, fun hu => absurd (hflag.symm.trans hu.1) (by decide)⟩
  have hless : ∀ id, (∀ t' ∈ s.tokens, t'.id = id → ¬ t'.Usable s.now) →
      ∀ t' ∈ tokens, t'.id = id → ¬ t'.Usable s.now := by
    intro id hno t' ht' heq hu
    exact hno t' ((hrows t' ht').2 hu).1 heq hu
  refine { rows := ?_, calls := ?_, apart := ?_, redeemed := ?_, once := h.once }
  · intro t' ht'
    have ⟨t₀, ht₀, heq⟩ := (hrows t' ht').1
    rw [← heq]
    exact h.rows t₀ ht₀
  · have hcalls := h.calls.imp fun st hst id hin =>
      (⟨(hst id hin).1, (hst id hin).2.1, hless id (hst id hin).2.2⟩ : id < s.nextToken ∧
        id ∉ s.redemptions.map Redemption.token ∧ ∀ t' ∈ tokens, t'.id = id → ¬ t'.Usable s.now)
    refine hcalls.put call fun id heq => ?_
    obtain rfl := Option.some.inj heq
    refine ⟨h.rows t hmem, fun hred => ?_, fun t' ht' heq hu => ((hrows t' ht').2 hu).2 heq⟩
    obtain ⟨r, hr, hrid⟩ := List.mem_map.1 hred
    exact (h.redeemed r hr).2 t hmem hrid.symm husable
  · refine h.apart.put fun c hc hne => ?_
    have hnot : t.id ∉ c.2.token := fun hin => (h.calls c hc t.id hin).2.2 t hmem rfl husable
    constructor
    · intro id heq
      obtain rfl := Option.some.inj heq
      exact hnot
    · intro id hin heq
      obtain rfl := Option.some.inj heq
      exact hnot hin
  · intro r hr
    have ⟨hlt, hno⟩ := h.redeemed r hr
    exact ⟨hlt, hless _ hno⟩

theorem Spent.redeem (h : Spent s) {t : ResetToken} {newPassword salt hash : String} {p : Nat}
    (hcall : s.calls.stage? call = some (.resetting t newPassword salt)) :
    Spent (((s.setPasswordHash hash).redeemed t).put call (.reset p)) := by
  have ⟨hlt, hnot, hrows⟩ := h.calls.of_stage? hcall t.id rfl
  have hmem := InProgress.stage?_eq_some.1 hcall
  refine { rows := h.rows, calls := ?_, apart := ?_, redeemed := ?_, once := ?_ }
  · intro c hc id hid
    cases InProgress.mem_put.1 hc with
    | inl heq =>
      rw [heq] at hid
      cases hid
    | inr hold =>
      have ⟨hlt', hnot', hrows'⟩ := h.calls c hold.1 id hid
      refine ⟨hlt', fun hin => ?_, hrows'⟩
      cases List.mem_cons.1 hin with
      | inl heq =>
        have hapart := h.apart c hold.1 (call, _) hmem hold.2 id hid
        exact hapart (congrArg some heq.symm)
      | inr hin => exact hnot' hin
  · have hput : Spent (s.put call (.reset p)) := h.put call rfl
    exact hput.apart
  · intro r hr
    cases List.mem_cons.1 hr with
    | inl heq =>
      subst heq
      exact ⟨hlt, hrows⟩
    | inr hold => exact h.redeemed r hold
  · exact List.nodup_cons.2 ⟨hnot, h.once⟩

theorem Spent.begin (h : Spent s) (call : Nat) (r : Request) : Spent (begin f s call r) := by
  cases r with
  | forgotPassword =>
    simp only [PasswordReset.begin]
    split_ifs
    · exact h
    · exact h
    · exact h.put call rfl
  | resetPassword token newPassword salt =>
    simp only [PasswordReset.begin]
    split_ifs
    · exact h
    · split
      · exact h
      · next hconsume => exact h.consume hconsume newPassword salt
  | login password =>
    simp only [PasswordReset.begin]
    split_ifs
    · exact h
    · exact h.put call rfl
    · exact h
  | mfaVerify token =>
    simp only [PasswordReset.begin]
    split
    · exact h
    · split_ifs
      · exact h
      · exact h.put call rfl
  | changeMyPassword currentPassword newPassword salt =>
    simp only [PasswordReset.begin]
    split_ifs
    · exact h
    · exact h
    · exact h
    · exact h.put call rfl
    · exact h

theorem Spent.next (h : Spent s) (hcall : s.calls.stage? call = some st) (ok : Bool) :
    Spent (next f s call ok st) := by
  have hself : s.tokens ⊆ s.tokens := List.Subset.refl _
  have hdone : Spent (s.done call) := h.done call
  cases st with
  | mailing =>
    cases ok with
    | true => exact h.createPasswordResetToken.done call
    | false => exact hdone
  | authenticated password =>
    cases ok with
    | true =>
      have hissued : Spent (s.issueMFAPendingToken password) :=
        h.of_subset (Nat.le_refl _) hself rfl rfl rfl
      exact hissued.done call
    | false => exact h.put call rfl
  | secondFactor password =>
    cases ok with
    | true => exact h.put call rfl
    | false => exact hdone
  | finishing password =>
    cases ok with
    | true =>
      have hcreated : Spent (s.createSession password) :=
        h.of_subset (Nat.le_refl _) hself rfl rfl rfl
      exact hcreated.done call
    | false => exact hdone
  | consumed token newPassword salt =>
    simp only [PasswordReset.next]
    split_ifs
    · exact hdone
    · exact h.putSame hcall rfl
  | resetting token newPassword salt =>
    cases ok with
    | true => exact h.redeem hcall
    | false => exact hdone
  | reset password =>
    cases ok with
    | true =>
      have hless : Spent s.deleteSessionsForUser := h.of_subset (Nat.le_refl _) hself rfl rfl rfl
      exact hless.put call rfl
    | false => exact h.put call rfl
  | sessionsDeleted password =>
    cases ok with
    | true =>
      have hless : Spent s.invalidateResetTokensForUser :=
        h.of_subset (Nat.le_refl _) (List.nil_subset _) rfl rfl rfl
      exact hless.put call rfl
    | false => exact h.put call rfl
  | tokensDeleted password =>
    have hanswered : Spent { s with resetTo := max s.resetTo password } :=
      h.of_subset (Nat.le_refl _) hself rfl rfl rfl
    exact hanswered.done call
  | changing mustReset newPassword salt =>
    cases ok with
    | true =>
      have hset : Spent (s.setPasswordHash (f.hashPassword salt newPassword)) :=
        h.of_subset (Nat.le_refl _) hself rfl rfl rfl
      exact hset.put call rfl
    | false => exact hdone
  | changed mustReset password =>
    refine Spent.done (h.of_subset ?_ ?_ ?_ ?_ ?_) call <;>
      cases mustReset <;> cases ok <;> simp [State.clearMustResetPassword]

theorem Spent.step (h : Spent s) (a : Action) : Spent (step f s a) := by
  cases a with
  | begin call r =>
    simp only [PasswordReset.step]
    split_ifs
    · exact h
    · exact h.begin call r
  | next call ok =>
    simp only [PasswordReset.step]
    split
    · exact h
    · next hcall => exact h.next hcall ok
  | drop call => exact h.done call
  | tick seconds =>
    exact h.of_subset (Nat.le_add_right _ _) (List.Subset.refl _) rfl rfl rfl

theorem spent_start (user : UserRow) (now : Nat) : Spent (start user now) where
  rows _ ht := nomatch ht
  calls := InProgress.all_empty _
  apart := InProgress.apart_empty _
  redeemed _ hr := nomatch hr
  once := List.nodup_nil

end Once

/-- **A reset token changes the password at most once**, in whatever order the statements of the
requests run and whichever of them fail. -/
theorem redemptions_nodup (f : PasswordFunctions) (user : UserRow) (now : Nat) (as : List Action) :
    ((run (step f) (start user now) as).redemptions.map Redemption.token).Nodup := by
  have hspent : Spent (run (step f) (start user now) as) :=
    run_invariant (fun _ a hs => hs.step a) as (spent_start user now)
  exact hspent.once

/-! ## What is left of before a reset -/

/-- The password that a request has set and not answered for. -/
def Stage.written : Stage → Option Nat
  | .reset p | .sessionsDeleted p | .tokensDeleted p | .changed _ p => some p
  | _ => none

/-- A reset that is past its `InvalidateResetTokensForUser` set a password no later than the
one that a token was issued under. -/
def Stage.TokensGone (issued : Nat) : Stage → Prop
  | .tokensDeleted p => p ≤ issued
  | _ => True

/-- What holds between two statements: what is good is as new as every reset and change that
has answered, and as every reset that is past the deletion of it. -/
structure Sealed (s : State) : Prop where
  resetTo_le : s.resetTo ≤ s.password
  changedTo_le : s.changedTo ≤ s.password
  written_le : s.calls.All fun st => ∀ p ∈ st.written, p ≤ s.password
  sessions : ∀ x ∈ s.sessions, x.Valid s.now →
    s.resetTo ≤ x.password ∧ s.calls.All (Stage.SessionsGone x.password)
  tokens : ∀ t ∈ s.tokens, t.Usable s.now →
    s.resetTo ≤ t.issued ∧ s.changedTo ≤ t.issued ∧ s.calls.All (Stage.TokensGone t.issued)
  redeemed : ∀ r ∈ s.redemptions, r.answered ≤ r.issued

section Resets

variable {f : PasswordFunctions} {s : State} {call : Nat} {st : Stage}

theorem Sealed.done (h : Sealed s) (call : Nat) : Sealed (s.done call) where
  resetTo_le := h.resetTo_le
  changedTo_le := h.changedTo_le
  written_le := h.written_le.drop call
  sessions x hx hv := ⟨(h.sessions x hx hv).1, (h.sessions x hx hv).2.drop call⟩
  tokens t ht hu :=
    ⟨(h.tokens t ht hu).1, (h.tokens t ht hu).2.1, (h.tokens t ht hu).2.2.drop call⟩
  redeemed := h.redeemed

theorem Sealed.put (h : Sealed s) (call : Nat) (hwritten : ∀ p ∈ st.written, p ≤ s.password)
    (hsessions : ∀ x ∈ s.sessions, x.Valid s.now → st.SessionsGone x.password)
    (htokens : ∀ t ∈ s.tokens, t.Usable s.now → st.TokensGone t.issued) :
    Sealed (s.put call st) where
  resetTo_le := h.resetTo_le
  changedTo_le := h.changedTo_le
  written_le := h.written_le.put call hwritten
  sessions x hx hv :=
    ⟨(h.sessions x hx hv).1, (h.sessions x hx hv).2.put call (hsessions x hx hv)⟩
  tokens t ht hu := ⟨(h.tokens t ht hu).1, (h.tokens t ht hu).2.1,
    (h.tokens t ht hu).2.2.put call (htokens t ht hu)⟩
  redeemed := h.redeemed

theorem Sealed.of_subset {s' : State} (h : Sealed s) (hnow : s.now ≤ s'.now)
    (hpassword : s.password ≤ s'.password) (hsessions : s'.sessions ⊆ s.sessions)
    (htokens : ∀ t' ∈ s'.tokens, t'.Usable s'.now →
      ∃ t ∈ s.tokens, t.Usable s.now ∧ t.issued = t'.issued)
    (hcalls : s'.calls = s.calls) (hresetTo : s'.resetTo = s.resetTo)
    (hchangedTo : s'.changedTo = s.changedTo) (hredemptions : s'.redemptions = s.redemptions) :
    Sealed s' where
  resetTo_le := hresetTo ▸ Nat.le_trans h.resetTo_le hpassword
  changedTo_le := hchangedTo ▸ Nat.le_trans h.changedTo_le hpassword
  written_le := by
    rw [hcalls]
    exact h.written_le.imp fun st hst p hp => Nat.le_trans (hst p hp) hpassword
  sessions x hx hv := by
    rw [hresetTo, hcalls]
    exact h.sessions x (hsessions hx) (hv.of_le hnow)
  tokens t' ht' hu := by
    have ⟨t, ht, husable, hissued⟩ := htokens t' ht' hu
    rw [hresetTo, hchangedTo, hcalls, ← hissued]
    exact h.tokens t ht husable
  redeemed := hredemptions ▸ h.redeemed

theorem Sealed.createPasswordResetToken (h : Sealed s) : Sealed s.createPasswordResetToken where
  resetTo_le := h.resetTo_le
  changedTo_le := h.changedTo_le
  written_le := h.written_le
  sessions := h.sessions
  tokens t ht hu := by
    cases List.mem_append.1 ht with
    | inl hold => exact h.tokens t hold hu
    | inr hnew =>
      -- it is issued under the password of now
      rw [List.mem_singleton.1 hnew]
      refine ⟨h.resetTo_le, h.changedTo_le, h.written_le.imp fun st hst => ?_⟩
      cases st with
      | tokensDeleted p => exact hst p rfl
      | _ => trivial
  redeemed := h.redeemed

variable {password : Nat}

theorem Sealed.createSession (h : Sealed s) (hreset : s.resetTo ≤ password)
    (hcalls : s.calls.All (Stage.SessionsGone password)) : Sealed (s.createSession password) where
  resetTo_le := h.resetTo_le
  changedTo_le := h.changedTo_le
  written_le := h.written_le
  sessions x hx hv := by
    cases List.mem_append.1 hx with
    | inl hold => exact h.sessions x hold hv
    | inr hnew =>
      rw [List.mem_singleton.1 hnew]
      exact ⟨hreset, hcalls⟩
  tokens := h.tokens
  redeemed := h.redeemed

theorem Sealed.setPasswordHash (h : Sealed s) (hash : String) : Sealed (s.setPasswordHash hash) :=
  h.of_subset (Nat.le_refl _) (Nat.le_succ _) (List.Subset.refl _)
    (fun t ht hu => ⟨t, ht, hu, rfl⟩) rfl rfl rfl rfl

theorem Sealed.redeem (h : Sealed s) {t : ResetToken} (hissued : s.resetTo ≤ t.issued) :
    Sealed (s.redeemed t) where
  resetTo_le := h.resetTo_le
  changedTo_le := h.changedTo_le
  written_le := h.written_le
  sessions := h.sessions
  tokens := h.tokens
  redeemed r hr := by
    cases List.mem_cons.1 hr with
    | inl heq =>
      rw [heq]
      exact hissued
    | inr hold => exact h.redeemed r hold

theorem Sealed.consume (h : Sealed s) {token : Nat} {t : ResetToken} {tokens : List ResetToken}
    (hconsume : consumePasswordResetToken s.now token s.tokens = (some t, tokens)) :
    Sealed { s with tokens := tokens } := by
  refine h.of_subset (Nat.le_refl _) (Nat.le_refl _) (List.Subset.refl _) (fun t' ht' hu => ?_)
    rfl rfl rfl rfl
  simp only at ht'
  rw [show tokens = (consumePasswordResetToken s.now token s.tokens).2 by rw [hconsume]] at ht'
  cases mem_consumed ht' with
  | inl hold => exact ⟨t', hold.1, hu, rfl⟩
  | inr hused => exact absurd (hused.2.1.symm.trans hu.1) (by decide)

theorem Sealed.answerReset (h : Sealed s)
    (hcall : s.calls.stage? call = some (.tokensDeleted password)) :
    Sealed { s with resetTo := max s.resetTo password } where
  resetTo_le := Nat.max_le.2 ⟨h.resetTo_le, h.written_le.of_stage? hcall password rfl⟩
  changedTo_le := h.changedTo_le
  written_le := h.written_le
  sessions x hx hv := by
    have ⟨hreset, hcalls⟩ := h.sessions x hx hv
    exact ⟨Nat.max_le.2 ⟨hreset, hcalls.of_stage? hcall⟩, hcalls⟩
  tokens t ht hu := by
    have ⟨hreset, hchanged, hcalls⟩ := h.tokens t ht hu
    exact ⟨Nat.max_le.2 ⟨hreset, hcalls.of_stage? hcall⟩, hchanged, hcalls⟩
  redeemed := h.redeemed

theorem Sealed.answerChange (h : Sealed s) (user : UserRow) (hle : password ≤ s.password)
    (hnone : ∀ t ∈ s.tokens, t.Usable s.now → password ≤ t.issued) :
    Sealed { s with user := user, changedTo := max s.changedTo password } where
  resetTo_le := h.resetTo_le
  changedTo_le := Nat.max_le.2 ⟨h.changedTo_le, hle⟩
  written_le := h.written_le
  sessions := h.sessions
  tokens t ht hu := by
    have ⟨hreset, hchanged, hcalls⟩ := h.tokens t ht hu
    exact ⟨hreset, Nat.max_le.2 ⟨hchanged, hnone t ht hu⟩, hcalls⟩
  redeemed := h.redeemed

theorem Sealed.putNone (h : Sealed s) (call : Nat) (hst : st.written = none) :
    Sealed (s.put call st) := by
  have hfree : ∀ p, st.SessionsGone p ∧ st.TokensGone p := by
    intro p
    cases st <;> first | exact ⟨trivial, trivial⟩ | cases hst
  refine h.put call (fun p hp => ?_) (fun x _ _ => (hfree _).1) (fun t _ _ => (hfree _).2)
  rw [hst] at hp
  cases hp

theorem Sealed.begin (h : Sealed s) (call : Nat) (r : Request) : Sealed (begin f s call r) := by
  cases r with
  | forgotPassword =>
    simp only [PasswordReset.begin]
    split_ifs
    · exact h
    · exact h
    · exact h.putNone call rfl
  | resetPassword token newPassword salt =>
    simp only [PasswordReset.begin]
    split_ifs
    · exact h
    · split
      · exact h
      · next hconsume => exact (h.consume hconsume).putNone call rfl
  | login password =>
    simp only [PasswordReset.begin]
    split_ifs
    · exact h
    · exact h.putNone call rfl
    · exact h
  | mfaVerify token =>
    simp only [PasswordReset.begin]
    split
    · exact h
    · split_ifs
      · exact h
      · exact h.putNone call rfl
  | changeMyPassword currentPassword newPassword salt =>
    simp only [PasswordReset.begin]
    split_ifs
    · exact h
    · exact h
    · exact h
    · exact h.putNone call rfl
    · exact h

theorem Sealed.next (h : Sealed s) (hcall : s.calls.stage? call = some st) {ok : Bool}
    (hcond : Undisturbed s ok st) : Sealed (next f s call ok st) := by
  have hdone : Sealed (s.done call) := h.done call
  have hwritten := h.written_le.of_stage? hcall
  cases st with
  | mailing =>
    cases ok with
    | true => exact h.createPasswordResetToken.done call
    | false => exact hdone
  | authenticated password =>
    cases ok with
    | true =>
      have hissued : Sealed (s.issueMFAPendingToken password) :=
        { h with }
      exact hissued.done call
    | false => exact h.putNone call rfl
  | secondFactor password =>
    cases ok with
    | true => exact h.putNone call rfl
    | false => exact hdone
  | finishing password =>
    cases ok with
    | true => exact (h.createSession (hcond rfl).1 (hcond rfl).2).done call
    | false => exact hdone
  | consumed token newPassword salt =>
    simp only [PasswordReset.next]
    split_ifs
    · exact hdone
    · exact h.putNone call rfl
  | resetting token newPassword salt =>
    cases ok with
    | true =>
      have hset := (h.setPasswordHash (f.hashPassword salt newPassword)).redeem (hcond rfl)
      refine hset.put call (fun p hp => ?_) (fun _ _ _ => trivial) (fun _ _ _ => trivial)
      exact Nat.le_of_eq (Option.some.inj hp).symm
    | false => exact hdone
  | reset password =>
    cases ok with
    | true =>
      have hgone : Sealed s.deleteSessionsForUser :=
        h.of_subset (Nat.le_refl _) (Nat.le_refl _) (List.nil_subset _)
          (fun t ht hu => ⟨t, ht, hu, rfl⟩) rfl rfl rfl rfl
      exact hgone.put call hwritten (fun _ hx => nomatch hx) (fun _ _ _ => trivial)
    | false => exact h.put call hwritten (hcond rfl) (fun _ _ _ => trivial)
  | sessionsDeleted password =>
    -- the sessions are as new as at the stage before
    have hsessions : ∀ x ∈ s.sessions, x.Valid s.now →
        (Stage.tokensDeleted password).SessionsGone x.password := by
      intro x hx hv
      have hgone : (Stage.sessionsDeleted password).SessionsGone x.password :=
        (h.sessions x hx hv).2.of_stage? hcall
      exact hgone
    cases ok with
    | true =>
      have hgone : Sealed s.invalidateResetTokensForUser :=
        h.of_subset (Nat.le_refl _) (Nat.le_refl _) (List.Subset.refl _)
          (fun _ ht => nomatch ht) rfl rfl rfl rfl
      exact hgone.put call hwritten hsessions (fun _ ht => nomatch ht)
    | false => exact h.put call hwritten hsessions (hcond rfl)
  | tokensDeleted password => exact (h.answerReset hcall).done call
  | changing mustReset newPassword salt =>
    cases ok with
    | true =>
      have hset := h.setPasswordHash (f.hashPassword salt newPassword)
      refine hset.put call (fun p hp => ?_) (fun _ _ _ => trivial) (fun _ _ _ => trivial)
      exact Nat.le_of_eq (Option.some.inj hp).symm
    | false => exact hdone
  | changed mustReset password =>
    have hle : password ≤ s.password := hwritten password rfl
    simp only [PasswordReset.next]
    split_ifs
    · exact (h.answerChange _ hle hcond).done call
    · exact (h.answerChange s.user hle hcond).done call

theorem Sealed.step (h : Sealed s) {a : Action} (hcond : StepUndisturbed s a) :
    Sealed (step f s a) := by
  cases a with
  | begin call r =>
    simp only [PasswordReset.step]
    split_ifs
    · exact h
    · exact h.begin call r
  | next call ok =>
    simp only [PasswordReset.step]
    split
    · exact h
    · next st hcall => exact h.next hcall (hcond st hcall)
  | drop call => exact h.done call
  | tick seconds =>
    exact h.of_subset (Nat.le_add_right _ _) (Nat.le_refl _) (List.Subset.refl _)
      (fun t ht hu => ⟨t, ht, hu.of_le (Nat.le_add_right _ _), rfl⟩) rfl rfl rfl rfl

theorem sealed_start (user : UserRow) (now : Nat) : Sealed (start user now) where
  resetTo_le := Nat.le_refl 0
  changedTo_le := Nat.le_refl 0
  written_le := InProgress.all_empty _
  sessions _ hx := nomatch hx
  tokens _ ht := nomatch ht
  redeemed _ hr := nomatch hr

end Resets

/-- **A password reset evicts everyone in every run whose statements are undisturbed**: whose
logins insert no session behind a reset, whose resets find nothing of before when a deletion
fails or another reset has answered, and whose changes of password leave no token. -/
theorem evicted_of_undisturbed {f : PasswordFunctions} {user : UserRow} {now : Nat}
    {as : List Action} (h : StepsMeet (step f) StepUndisturbed (start user now) as) :
    Evicted (run (step f) (start user now) as) := by
  have hsealed : Sealed (run (step f) (start user now) as) :=
    h.invariant (fun _ _ hs hcond => hs.step hcond) (sealed_start user now)
  exact {
    once := redemptions_nodup f user now as
    sessions := fun x hx hv => (hsealed.sessions x hx hv).1
    tokens := fun t ht hu => (hsealed.tokens t ht hu).1
    redeemed := hsealed.redeemed
    changed := fun t ht hu => (hsealed.tokens t ht hu).2.1 }

/-! One user, who forgets the password. -/

private def plain : PasswordFunctions where
  hashPassword := fun salt password => salt ++ password
  verifyPassword := fun password hash => hash = "salt" ++ password

private def user : UserRow := { passwordHash := "saltold-password" }

private def reset : List Action :=
  [.begin 2 (.resetPassword 0 "new-password" "salt"), .next 2 true, .next 2 true, .next 2 true,
    .next 2 true, .next 2 true]

private def forgot : List Action := [.begin 1 .forgotPassword, .next 1 true]

private def signIn (call : Nat) (password : String) : List Action :=
  [.begin call (.login password), .next call false, .next call true]

theorem evicted_forgot_reset :
    Evicted (run (step plain) (start user 100)
      (signIn 0 "old-password" ++ forgot ++ reset ++ signIn 3 "new-password")) :=
  evicted_of_undisturbed (by decide +kernel)

/-- A login that has presented its password when the reset comes, one that waits for its second
factor then, and a token that a change of password leaves. -/
theorem not_evicted :
    ¬ Evicted (run (step plain) (start user 100)
      (forgot ++ [.begin 3 (.login "old-password"), .next 3 false] ++ reset ++ [.next 3 true])) ∧
    ¬ Evicted (run (step plain) (start user 100)
      (forgot ++ [.begin 3 (.login "old-password"), .next 3 true] ++ reset ++
        [.begin 4 (.mfaVerify 0), .next 4 true, .next 4 true])) ∧
    ¬ Evicted (run (step plain) (start user 100)
      (forgot ++ [.begin 3 (.changeMyPassword "old-password" "new-password" "salt"),
        .next 3 true, .next 3 true])) := by
  refine ⟨fun h => ?_, fun h => ?_, fun h => ?_⟩
  · have hsessions := h.sessions
    revert hsessions
    decide +kernel
  · have hsessions := h.sessions
    revert hsessions
    decide +kernel
  · have hchanged := h.changed
    revert hchanged
    decide +kernel

end Sluicio.Api.PasswordReset
