import Sluicio.Identity.PasswordReset
import Sluicio.Lib.InProgress
import Sluicio.Lib.Ordered
import Sluicio.Lib.Run
import Sluicio.Tracecompletion.Types

/-!
# First-run setup, statement by statement

`bootstrapAdmin` gives the seeded admin an e-mail address, a name and a password in one
read-committed transaction: it reads whether anybody has logged in, picks the row and updates
it.  The row is locked from the update to the commit, and nobody sees the update before.  A
login writes `last_login_at` at its end, best effort.
-/

namespace Sluicio.Api.Bootstrap

open Identity Lib
open Tracecompletion (trimSpace)

/-- What the requests read and write of a row in `users`. -/
structure User where
  id : Nat
  email : String
  name : String
  passwordHash : String
  mustResetPassword : Bool := false
  isOperator : Bool := false
  createdAt : Int := 0
  lastLoginAt : Option Int := none

/-- What the handlers are configured with: the password functions, `strings.ToLower` and the
database's `lower`, and the claim token of a managed instance. -/
structure Config extends PasswordFunctions where
  toLower : String → String := String.toLower
  managed : Bool := false
  bootstrapToken : String := ""
  bootstrapTokenExpiresAt : Option Int := none

structure BootstrapBody where
  name : String
  email : String
  password : String
  token : String := ""
  salt : String := ""

inductive Request where
  | bootstrapAdmin (body : BootstrapBody)
  | login (email password : String)
  /-- with a good pending token of this user, and a right code -/
  | mfaVerify (userID : Nat)

/-- What a bootstrap writes. -/
structure Personal where
  email : String
  name : String
  hash : String

/-- What a request has come to. -/
inductive Stage where
  /-- `BootstrapAdmin`: nobody had logged in -/
  | fresh (p : Personal)
  | picked (id : Nat) (p : Personal)
  | updated (id : Nat) (p : Personal)
  | committing (id : Nat) (p : Personal)
  /-- `login`: the password was right -/
  | authenticated (id : Nat)
  /-- `finishLogin`, at `CreateSession` -/
  | finishing (id : Nat)
  | sessionCreated (id : Nat)

inductive Answer where
  | noContent
  /-- with whether `TouchLastLogin` went through, which the answer does not tell -/
  | signedIn (touched : Bool)
  | mfaRequired
  | refused (status : Nat) (message : String)
  deriving DecidableEq

def Answer.success : Answer → Bool
  | .noContent | .signedIn _ => true
  | _ => false

structure State where
  users : List User
  now : Int := 0
  calls : InProgress Stage := ∅
  answers : List (Nat × Answer) := []

inductive Action where
  | begin (call : Nat) (r : Request)
  /-- the next statement of a request, which succeeds or fails; after the password, whether
  MFA is enabled -/
  | next (call : Nat) (ok : Bool)
  | drop (call : Nat)
  | tick (seconds : Nat)

section Steps

variable (cfg : Config)

def bootstrapTokenOK (now : Int) (presented : String) : Bool :=
  if !cfg.managed then true
  else
    let want := trimSpace cfg.bootstrapToken
    if want = "" then false
    else if cfg.bootstrapTokenExpiresAt.any (· < now) then false
    else trimSpace presented = want

/-- The body checks of `bootstrapAdmin`, and what is to be written. -/
def checkBody (now : Int) (body : BootstrapBody) : Except Answer Personal :=
  if !bootstrapTokenOK cfg now body.token then
    .error (.refused 403 "this instance needs a valid setup link to claim")
  else
    let email := cfg.toLower (trimSpace body.email)
    if email = "" || !email.toList.contains '@' then
      .error (.refused 400 "a valid email is required")
    else if body.password.utf8ByteSize < 8 then
      .error (.refused 400 "password must be at least 8 characters")
    else
      let name := trimSpace body.name
      .ok {
        email := email
        name := if name = "" then "Admin" else name
        hash := cfg.hashPassword body.salt body.password }

def State.put (s : State) (call : Nat) (st : Stage) : State :=
  { s with calls := s.calls.put call st }

/-- The request answers, and ends; a transaction that is open is rolled back. -/
def State.answer (s : State) (call : Nat) (a : Answer) : State :=
  { s with calls := s.calls.drop call, answers := (call, a) :: s.answers }

def State.used (s : State) : Bool := s.users.any fun u => u.lastLoginAt.isSome

/-- The row that a bootstrap personalizes: of the oldest operator, or on a managed instance of
the oldest user. -/
def State.target (s : State) : Option Nat :=
  ((orderBy User.createdAt (s.users.filter fun u => cfg.managed || u.isOperator)).head?).map User.id

/-- A transaction has updated the row. -/
def Stage.Locks (id : Nat) : Stage → Prop
  | .updated i _ | .committing i _ => i = id
  | _ => False

instance (id : Nat) : DecidablePred (Stage.Locks id) := fun st => by
  cases st <;> unfold Stage.Locks <;> infer_instance

/-- No other transaction holds the row. -/
def State.Unlocked (s : State) (id : Nat) : Prop := s.calls.All fun st => ¬ st.Locks id

instance (s : State) (id : Nat) : Decidable (s.Unlocked id) := by
  unfold State.Unlocked
  infer_instance

/-- The unique index on the lower-cased address. -/
def State.emailTaken (s : State) (id : Nat) (email : String) : Bool :=
  s.users.any fun u => u.id ≠ id && cfg.toLower u.email = cfg.toLower email

/-- The `UPDATE` of `BootstrapAdmin`. -/
def User.personalize (p : Personal) (u : User) : User :=
  { u with
    email := p.email
    name := p.name
    passwordHash := p.hash
    mustResetPassword := false }

/-- The `UPDATE` of `TouchLastLogin`. -/
def User.touch (now : Int) (u : User) : User := { u with lastLoginAt := some now }

def begin (s : State) (call : Nat) : Request → State
  | .bootstrapAdmin body =>
    match checkBody cfg s.now body with
    | .error a => s.answer call a
    | .ok p =>
      if s.used then
        s.answer call (.refused 409 "this install is already set up — sign in instead")
      else s.put call (.fresh p)
  | .login email password =>
    if trimSpace email = "" || password = "" then
      s.answer call (.refused 400 "email and password are required")
    else
      match s.users.find? fun u => cfg.toLower u.email = cfg.toLower (trimSpace email) with
      | none => s.answer call (.refused 401 "invalid email or password")
      | some u =>
        if u.passwordHash ≠ "" && cfg.verifyPassword password u.passwordHash then
          s.put call (.authenticated u.id)
        else s.answer call (.refused 401 "invalid email or password")
  | .mfaVerify userID =>
    if s.users.any fun u => u.id = userID then s.put call (.finishing userID)
    else s.answer call (.refused 500 "login failed")

/-- The next statement of a request, after which its transaction or its answer follows. -/
def next (s : State) (call : Nat) (ok : Bool) : Stage → State
  | .fresh p =>
    match if ok then s.target cfg else none with
    | none => s.answer call (.refused 500 "could not set up the admin account")
    | some id => s.put call (.picked id p)
  | .picked id p =>
    if !ok then s.answer call (.refused 500 "could not set up the admin account")
    else if s.Unlocked id then
      if s.emailTaken cfg id p.email then
        s.answer call (.refused 409 "a user with that email already exists")
      else s.put call (.updated id p)
    else s
  | .updated id p =>
    -- on a managed instance the membership of the row is asserted here
    if cfg.managed && !ok then
      s.answer call (.refused 500 "could not set up the admin account")
    else s.put call (.committing id p)
  | .committing id p =>
    if ok then
      { s with users := updateWhere (fun u => u.id = id) (User.personalize p) s.users }.answer
        call .noContent
    else s.answer call (.refused 500 "could not set up the admin account")
  | .authenticated id => if ok then s.answer call .mfaRequired else s.put call (.finishing id)
  | .finishing id =>
    if ok then s.put call (.sessionCreated id) else s.answer call (.refused 500 "login failed")
  | .sessionCreated id =>
    -- `TouchLastLogin` waits for the row, and may fail
    if !ok then s.answer call (.signedIn false)
    else if s.Unlocked id then
      { s with users := updateWhere (fun u => u.id = id) (User.touch s.now) s.users }.answer
        call (.signedIn true)
    else s

def step (s : State) : Action → State
  | .begin call r =>
    -- every request has a number of its own
    if (s.calls.stage? call).isSome then s else begin cfg s call r
  | .next call ok =>
    match s.calls.stage? call with
    | none => s
    | some st => next cfg s call ok st
  | .drop call => { s with calls := s.calls.drop call }
  | .tick seconds => { s with now := s.now + seconds }

end Steps

/-! ## What seals it -/

/-- What a bootstrap must leave alone: who has which e-mail address, name and password. -/
def State.identities (s : State) : List (Nat × String × String × String) :=
  s.users.map fun u => (u.id, u.email, u.name, u.passwordHash)

/-- The request is a bootstrap whose token and body were accepted. -/
def Stage.Checked : Stage → Prop
  | .fresh _ | .picked _ _ | .updated _ _ | .committing _ _ => True
  | _ => False

/-- Once a request has answered success, no identity changes any more. -/
def Seals (cfg : Config) (users : List User) : Prop :=
  ∀ as bs, (∃ c ∈ (run (step cfg) { users := users } as).answers, c.2.success) →
    (run (step cfg) { users := users } (as ++ bs)).identities =
      (run (step cfg) { users := users } as).identities

/-- The user whom a login is for, its password checked. -/
def Stage.userID : Stage → Option Nat
  | .authenticated id | .finishing id | .sessionCreated id => some id
  | _ => none

/-- A login that is in progress is one of a user, and one that was recorded is on record. -/
structure Recorded (s : State) : Prop where
  users : s.calls.All fun st => ∀ id ∈ st.userID, id ∈ s.users.map User.id
  touched : ∀ c ∈ s.answers, c.2 = .signedIn true → s.used

inductive Effect (s : State) (a : Action) : State → Prop where
  | idle (now : Int) : Effect s a { s with now := now }
  | dropped (n : Nat) : Effect s a { s with calls := s.calls.drop n }
  | answered (n : Nat) (ans : Answer) (hans : ans ≠ .signedIn true) : Effect s a (s.answer n ans)
  | moved (n : Nat) (st : Stage)
      (hchecked : st.Checked → s.used = false ∨ ∃ st₀, s.calls.stage? n = some st₀ ∧ st₀.Checked)
      (huser : ∀ id ∈ st.userID, id ∈ s.users.map User.id ∨
        ∃ st₀, s.calls.stage? n = some st₀ ∧ id ∈ st₀.userID) : Effect s a (s.put n st)
  | committed (n id : Nat) (p : Personal) (ha : a = .next n true)
      (hstage : s.calls.stage? n = some (.committing id p)) :
      Effect s a (State.answer
        { s with users := updateWhere (fun u => u.id = id) (User.personalize p) s.users }
        n .noContent)
  | touched (n id : Nat) (hstage : s.calls.stage? n = some (.sessionCreated id)) :
      Effect s a (State.answer
        { s with users := updateWhere (fun u => u.id = id) (User.touch s.now) s.users }
        n (.signedIn true))

section Lemmas

variable {cfg : Config} {s s' : State} {a : Action} {call : Nat} {st : Stage}

theorem checkBody_error {now : Int} {body : BootstrapBody} {ans : Answer}
    (h : checkBody cfg now body = .error ans) :
    ∃ status message, ans = .refused status message := by
  simp only [checkBody] at h
  split at h
  · exact ⟨_, _, (Except.error.inj h).symm⟩
  split at h
  · exact ⟨_, _, (Except.error.inj h).symm⟩
  · split at h
    · exact ⟨_, _, (Except.error.inj h).symm⟩
    · cases h

theorem effect_begin (cfg : Config) (s : State) (call : Nat) (r : Request) :
    Effect s a (begin cfg s call r) := by
  cases r with
  | bootstrapAdmin body =>
    simp only [begin]
    split
    · next ans hbody =>
      obtain ⟨_, _, rfl⟩ := checkBody_error hbody
      exact .answered call _ (fun h => nomatch h)
    · next p _ =>
      cases hused : s.used with
      | true => exact .answered call _ (fun h => nomatch h)
      | false => exact .moved call (.fresh p) (fun _ => Or.inl hused) (fun _ hid => nomatch hid)
  | login email password =>
    simp only [begin]
    split
    · exact .answered call _ (fun h => nomatch h)
    split
    · exact .answered call _ (fun h => nomatch h)
    · next u hfind =>
      have hmem : u.id ∈ s.users.map User.id :=
        List.mem_map_of_mem (List.mem_of_find?_eq_some hfind)
      split
      · refine .moved call (.authenticated u.id) (fun h => nomatch h) fun id hid => Or.inl ?_
        exact Option.some.inj hid ▸ hmem
      · exact .answered call _ (fun h => nomatch h)
  | mfaVerify userID =>
    simp only [begin]
    split
    · next hany =>
      refine .moved call (.finishing userID) (fun h => nomatch h) fun id hid => Or.inl ?_
      have ⟨u, hu, heq⟩ := List.any_eq_true.1 hany
      rw [← Option.some.inj hid, ← of_decide_eq_true heq]
      exact List.mem_map_of_mem hu
    · exact .answered call _ (fun h => nomatch h)

theorem effect_next (cfg : Config) (ok : Bool) (hstage : s.calls.stage? call = some st) :
    Effect s (.next call ok) (next cfg s call ok st) := by
  have hwaits : Effect s (.next call ok) s := .idle s.now
  have hrefused := Effect.answered (s := s) (a := .next call ok) call
  cases st with
  | fresh p =>
    simp only [next]
    split
    · exact hrefused _ nofun
    · exact .moved call _ (fun _ => Or.inr ⟨_, hstage, trivial⟩) (fun _ hid => nomatch hid)
  | picked id p =>
    simp only [next]
    split_ifs
    · exact hrefused _ nofun
    · exact hrefused _ nofun
    · exact .moved call _ (fun _ => Or.inr ⟨_, hstage, trivial⟩) (fun _ hid => nomatch hid)
    · exact hwaits
  | updated id p =>
    simp only [next]
    split
    · exact hrefused _ nofun
    · exact .moved call _ (fun _ => Or.inr ⟨_, hstage, trivial⟩) (fun _ hid => nomatch hid)
  | committing id p =>
    cases ok with
    | true => exact .committed call id p rfl hstage
    | false => exact hrefused _ nofun
  | authenticated id =>
    cases ok with
    | true => exact hrefused _ nofun
    | false => exact .moved call _ (fun h => nomatch h) (fun _ hid => Or.inr ⟨_, hstage, hid⟩)
  | finishing id =>
    cases ok with
    | true => exact .moved call _ (fun h => nomatch h) (fun _ hid => Or.inr ⟨_, hstage, hid⟩)
    | false => exact hrefused _ nofun
  | sessionCreated id =>
    simp only [next]
    split_ifs
    · exact hrefused _ nofun
    · exact .touched call id hstage
    · exact hwaits

theorem effect_step (cfg : Config) (s : State) (a : Action) : Effect s a (step cfg s a) := by
  cases a with
  | begin call r =>
    simp only [step]
    split
    · exact .idle s.now
    · exact effect_begin cfg s call r
  | next call ok =>
    simp only [step]
    split
    · exact .idle s.now
    · next hstage => exact effect_next cfg ok hstage
  | drop call => exact .dropped call
  | tick seconds => exact .idle _

theorem any_updateWhere_of {p : User → Bool} {f : User → User} {users : List User}
    (hf : ∀ u, u.lastLoginAt.isSome → (f u).lastLoginAt.isSome)
    (h : (users.any fun u => u.lastLoginAt.isSome)) :
    ((updateWhere p f users).any fun u => u.lastLoginAt.isSome) := by
  rw [List.any_eq_true] at h ⊢
  have ⟨u, hu, hlog⟩ := h
  cases hp : p u with
  | true => exact ⟨f u, mem_updateWhere_of hu hp, hf u hlog⟩
  | false => exact ⟨u, mem_updateWhere_of_not hu hp, hlog⟩

theorem Effect.used (h : Effect s a s') (hused : s.used) : s'.used := by
  cases h with
  | idle _ | dropped _ | answered _ _ _ | moved _ _ _ _ => exact hused
  | committed _ _ _ _ _ => exact any_updateWhere_of (fun _ hu => hu) hused
  | touched _ _ _ => exact any_updateWhere_of (fun _ _ => rfl) hused

theorem Effect.ids (h : Effect s a s') : s'.users.map User.id = s.users.map User.id := by
  cases h with
  | idle _ | dropped _ | answered _ _ _ | moved _ _ _ _ => rfl
  | committed _ _ p _ _ => exact map_updateWhere (f := User.personalize p) (fun _ => rfl) _
  | touched _ _ _ => exact map_updateWhere (f := User.touch s.now) (fun _ => rfl) _

theorem Effect.checked_of_ne (h : Effect s a s') (hne : s'.identities ≠ s.identities) :
    ∃ n ok st, a = .next n ok ∧ s.calls.stage? n = some st ∧ st.Checked := by
  cases h with
  | idle _ | dropped _ | answered _ _ _ | moved _ _ _ _ => exact absurd rfl hne
  | committed n id p ha hstage => exact ⟨n, true, _, ha, hstage, trivial⟩
  | touched _ _ _ =>
    exact absurd (map_updateWhere (f := User.touch s.now) (fun _ => rfl) _) hne

theorem Effect.checked (h : Effect s a s') (hused : s.used)
    (hstage : s'.calls.stage? call = some st) (hst : st.Checked) :
    ∃ st₀, s.calls.stage? call = some st₀ ∧ st₀.Checked := by
  have hmem := InProgress.stage?_eq_some.1 hstage
  have hdropped (n : Nat) (hin : (call, st) ∈ (s.calls.drop n).calls) :
      ∃ st₀, s.calls.stage? call = some st₀ ∧ st₀.Checked :=
    ⟨st, InProgress.stage?_eq_some.2 (InProgress.mem_drop.1 hin).1, hst⟩
  cases h with
  | idle _ => exact ⟨st, hstage, hst⟩
  | dropped n => exact hdropped n hmem
  | answered n _ _ => exact hdropped n hmem
  | moved n st' hchecked _ =>
    cases InProgress.mem_put.1 hmem with
    | inl heq =>
      obtain ⟨rfl, rfl⟩ := Prod.mk.inj heq
      cases hchecked hst with
      | inl hfresh => exact absurd (hused.symm.trans hfresh) (by decide)
      | inr hold => exact hold
    | inr hold => exact ⟨st, InProgress.stage?_eq_some.2 hold.1, hst⟩
  | committed n _ _ _ _ => exact hdropped n hmem
  | touched n _ _ => exact hdropped n hmem

theorem Recorded.effect (hr : Recorded s) (h : Effect s a s') : Recorded s' where
  users := by
    rw [h.ids]
    cases h with
    | idle _ => exact hr.users
    | dropped n => exact hr.users.drop n
    | answered n _ _ => exact hr.users.drop n
    | moved n st _ huser =>
      refine hr.users.put n fun id hid => ?_
      cases huser id hid with
      | inl hmem => exact hmem
      | inr hold =>
        have ⟨st₀, hst₀, hid₀⟩ := hold
        exact hr.users.of_stage? hst₀ id hid₀
    | committed n _ _ _ _ => exact hr.users.drop n
    | touched n _ _ => exact hr.users.drop n
  touched c hc hanswer := by
    cases h with
    | idle _ | dropped _ | moved _ _ _ _ => exact hr.touched c hc hanswer
    | answered n ans hans =>
      cases List.mem_cons.1 hc with
      | inl heq =>
        rw [heq] at hanswer
        exact absurd hanswer hans
      | inr hold => exact hr.touched c hold hanswer
    | committed n id p ha hstage =>
      cases List.mem_cons.1 hc with
      | inl heq =>
        rw [heq] at hanswer
        cases hanswer
      | inr hold => exact any_updateWhere_of (fun _ hu => hu) (hr.touched c hold hanswer)
    | touched n id hstage =>
      -- the row is there, and has been written
      obtain ⟨u, hu, hid⟩ := List.mem_map.1 (hr.users.of_stage? hstage id rfl)
      refine List.any_eq_true.2 ⟨u.touch s.now, mem_updateWhere_of hu ?_, rfl⟩
      exact decide_eq_true hid

/-- From a state in which somebody has logged in, only a request that had passed its freshness
check by then changes an identity. -/
theorem checked_of_used (hused : s.used) (as : List Action)
    (hne : (step cfg (run (step cfg) s as) a).identities ≠ (run (step cfg) s as).identities) :
    ∃ n ok st, a = .next n ok ∧ s.calls.stage? n = some st ∧ st.Checked := by
  -- along the run somebody has logged in, and who has passed the check had passed it
  have hrun : (run (step cfg) s as).used ∧ ∀ n st,
      (run (step cfg) s as).calls.stage? n = some st → st.Checked →
        ∃ st₀, s.calls.stage? n = some st₀ ∧ st₀.Checked := by
    refine run_invariant (I := fun t : State => t.used = true ∧ ∀ n st,
      t.calls.stage? n = some st → st.Checked →
        ∃ st₀, s.calls.stage? n = some st₀ ∧ st₀.Checked) (fun t b ht => ?_) as ?_
    · have heffect := effect_step cfg t b
      refine ⟨heffect.used ht.1, fun n st hstage hst => ?_⟩
      have ⟨st₀, hst₀, hchecked⟩ := heffect.checked ht.1 hstage hst
      exact ht.2 n st₀ hst₀ hchecked
    · exact ⟨hused, fun n st hstage hst => ⟨st, hstage, hst⟩⟩
  have ⟨n, ok, st, ha, hstage, hst⟩ := (effect_step cfg _ a).checked_of_ne hne
  have ⟨st₀, hst₀, hchecked⟩ := hrun.2 n st hstage hst
  exact ⟨n, ok, st₀, ha, hst₀, hchecked⟩

end Lemmas

/-- **A recorded login seals first-run setup.**  Whatever ran before, and whatever runs after a
login has answered with its `last_login_at` written: a statement that changes an e-mail
address, a name or a password is one of a request that had passed its freshness check by
then. -/
theorem checked_of_signedIn {cfg : Config} {users : List User} {pre as : List Action}
    {a : Action} {login : Nat}
    (hlogin : (login, .signedIn true) ∈ (run (step cfg) { users := users } pre).answers)
    (hchange : (run (step cfg) { users := users } (pre ++ as ++ [a])).identities ≠
      (run (step cfg) { users := users } (pre ++ as)).identities) :
    ∃ n ok st, a = .next n ok ∧
      (run (step cfg) { users := users } pre).calls.stage? n = some st ∧ st.Checked := by
  have hstart : Recorded { users := users } :=
    { users := InProgress.all_empty _, touched := fun _ hc => nomatch hc }
  have hrecorded : Recorded (run (step cfg) { users := users } pre) :=
    run_invariant (I := Recorded) (fun s a hs => hs.effect (effect_step cfg s a)) pre hstart
  have hused := hrecorded.touched _ hlogin rfl
  rw [run_append _ _ (pre ++ as) [a], run_append _ _ pre as] at hchange
  exact checked_of_used hused as hchange

/-! A self-hosted install with its seeded admin. -/

private def plain : Config where
  hashPassword := fun salt password => salt ++ password
  verifyPassword := fun password hash => hash = password

private def seed : List User :=
  [{ id := 1, email := "admin@sluicio.local", name := "Admin", passwordHash := ""
     isOperator := true }]

private def claim (call : Nat) (email : String) : List Action :=
  [.begin call (.bootstrapAdmin { name := "Ada", email := email, password := "correct horse" }),
    .next call true, .next call true, .next call true, .next call true]

private def signIn (call : Nat) (email : String) : List Action :=
  [.begin call (.login email "correct horse"), .next call false, .next call true, .next call true]

/-- One bootstrap passes its check before the login is recorded, and commits after it. -/
theorem late_checked : ∃ n ok st, Action.next 2 true = .next n ok ∧
    (run (step plain) { users := seed } (claim 1 "ada@acme.test" ++
      [.begin 2 (.bootstrapAdmin
        { name := "Eve", email := "eve@acme.test", password := "correct horse" })] ++
      signIn 3 "ada@acme.test")).calls.stage? n = some st ∧ st.Checked :=
  @checked_of_signedIn plain seed _ [.next 2 true, .next 2 true, .next 2 true] _ 3
    (by decide +kernel) (by decide +kernel)

/-- A bootstrap that has answered does not seal: a second one takes the account over. -/
theorem not_seals : ¬ Seals plain seed := by
  intro h
  have hsecond := h (claim 1 "ada@acme.test") (claim 2 "eve@acme.test")
  revert hsecond
  decide +kernel

end Sluicio.Api.Bootstrap
