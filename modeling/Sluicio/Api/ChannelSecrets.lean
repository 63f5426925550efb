import Sluicio.Lib.InProgress
import Sluicio.Lib.Run
import Sluicio.Tracecompletion.Normalize

/-!
# Credentials of notification channels

A channel's credentials are masked when it is read and restored when it is saved: what comes
back as the mask keeps the value that is stored.  The save looks that value up in one statement
and writes the configuration in another, so what it restores is the value of the look-up.
-/

namespace Sluicio.Api

open Lib
open Tracecompletion (trimSpace)

/-- `map[string]string` -/
abbrev ChannelConfig := String → Option String

/-- `config[k]` -/
def ChannelConfig.value (config : ChannelConfig) (k : String) : String := (config k).getD ""

/-- The columns of a channel that a save writes. -/
structure NotificationChannel where
  name : String
  kind : String
  config : ChannelConfig

def channelSecretKeys : List String := ["secret", "auth_header", "routing_key", "password"]

def secretMask : String := "••••••••"

/-- `maskChannelSecrets`, of one channel. -/
def maskChannelSecrets (c : NotificationChannel) : NotificationChannel :=
  { c with
    config := fun k =>
      if k ∈ channelSecretKeys ∧ trimSpace (c.config.value k) ≠ "" then some secretMask
      else c.config k }

def keepMaskedSecrets (next prev : ChannelConfig) : ChannelConfig := fun k =>
  if k ∈ channelSecretKeys ∧ next.value k = secretMask then
    if prev.value k ≠ "" then some (prev.value k) else none
  else next k

/-! ## Validation -/

/-- What a check needs of the instance and of the standard library. -/
structure ChannelChecks where
  managed : Bool := false
  emailDisabled : Bool := false
  toLower : String → String
  equalFold : String → String → Bool
  validateWebhookTemplate : String → Except String (List String)

def channelTransportKeys : List String :=
  ["smtp_host", "smtp_port", "from", "from_name", "username", "password"]

/-- `strings.HasPrefix` with either scheme. -/
def isHttpUrl (u : String) : Bool :=
  "http://".toList.isPrefixOf u.toList || "https://".toList.isPrefixOf u.toList

/-- The check of `config.format`. -/
def checkFormat (checks : ChannelChecks) (kind : String) (config : ChannelConfig) :
    Except String Unit :=
  let f := checks.toLower (trimSpace (config.value "format"))
  if f = "" then .ok ()
  else if kind ≠ "webhook" then .error "config.format is only supported on webhook channels"
  else if f ≠ "cloudevents" ∧ f ≠ "template" then
    .error "config.format must be empty, \"cloudevents\" or \"template\""
  else if f = "template" then
    match checks.validateWebhookTemplate (config.value "body_template") with
    | .error e => .error ("config.body_template: " ++ e)
    | .ok _ => .ok ()
  else .ok ()

def checkKind (checks : ChannelChecks) (kind : String) (config : ChannelConfig) :
    Except String Unit :=
  if kind = "webhook" ∨ kind = "slack" then
    if isHttpUrl (trimSpace (config.value "url")) then .ok ()
    else .error "config.url must be an http(s) URL"
  else if kind = "pagerduty" then
    if trimSpace (config.value "routing_key") = "" then .error "config.routing_key is required"
    else
      let u := trimSpace (config.value "events_url")
      if u ≠ "" ∧ !isHttpUrl u then .error "config.events_url must be an http(s) URL when set"
      else .ok ()
  else if checks.emailDisabled then .error "email is turned off on this instance"
  else if trimSpace (config.value "to") = "" then
    .error "config.to is required (comma-separated recipients)"
  else if checks.managed then
    match channelTransportKeys.find? fun k => trimSpace (config.value k) ≠ "" with
    | some k => .error ("config." ++ k ++ " can't be set: email is provided by this deployment, " ++
        "so a channel chooses its recipients and not its server")
    | none => .ok ()
  else .ok ()

/-- `validateChannel`: the request with its name and kind trimmed. -/
def validateChannel (checks : ChannelChecks) (req : NotificationChannel) :
    Except String NotificationChannel :=
  let name := trimSpace req.name
  let kind := trimSpace req.kind
  if name = "" then .error "name is required"
  else if kind ∉ ["webhook", "slack", "pagerduty", "email"] then
    .error "invalid kind (webhook, slack, pagerduty, email)"
  else
    match checkFormat checks kind req.config with
    | .error e => .error e
    | .ok _ =>
      if trimSpace (req.config.value "body_template") ≠ "" ∧
          !checks.equalFold (trimSpace (req.config.value "format")) "template" then
        .error "config.body_template needs config.format = \"template\""
      else if trimSpace (req.config.value "auth_header") ≠ "" ∧ kind ≠ "webhook" then
        .error "config.auth_header is only supported on webhook channels"
      else
        match checkKind checks kind req.config with
        | .error e => .error e
        | .ok _ => .ok { req with name := name, kind := kind }

/-! ## Saves, statement by statement -/

/-- The point a save has come to. -/
inductive SaveStage where
  | received (req : NotificationChannel)
  /-- the channel was looked up and the request is valid: what was asked for, what is to be
  written, whether the look-up was answered, and what had been given by then -/
  | checked (asked req : NotificationChannel) (restored : Bool) (seen : String → Nat)

inductive SaveAnswer where
  | ok (masked : NotificationChannel)
  | refused (status : Nat) (message : String)

/-- One channel and the saves of it.  What was `given` is the credential that the last write
with one of its own gave, and `gives` counts these writes. -/
structure ChannelState where
  channel : Option NotificationChannel
  calls : InProgress SaveStage := ∅
  answers : List (Nat × SaveAnswer) := []
  given : String → String
  gives : String → Nat := fun _ => 0

inductive ChannelAction where
  | put (call : Nat) (req : NotificationChannel)
  /-- `GetChannel`, which may fail, and `validateChannel` -/
  | load (call : Nat) (ok : Bool)
  | write (call : Nat) (ok : Bool)
  | drop (call : Nat)
  | overwrite (kind : String) (config : ChannelConfig)
  | delete

namespace ChannelState

variable (checks : ChannelChecks)

def answer (s : ChannelState) (call : Nat) (a : SaveAnswer) : ChannelState :=
  { s with calls := s.calls.drop call, answers := (call, a) :: s.answers }

/-- The first half of `updateChannel`: the look-up, which only counts when it is answered, and
the checks. -/
def load (s : ChannelState) (call : Nat) (ok : Bool) (req : NotificationChannel) :
    ChannelState :=
  let existing := if ok then s.channel else none
  let merged := match existing with
    | some c => { req with config := keepMaskedSecrets req.config c.config }
    | none => req
  match validateChannel checks merged with
  | .error e => s.answer call (.refused 400 e)
  | .ok valid => { s with calls := s.calls.put call (.checked req valid existing.isSome s.gives) }

/-- The request's own credential counts as given, and the mask does not. -/
def give (s : ChannelState) (asked : ChannelConfig) : ChannelState :=
  { s with
    given := fun k => if asked.value k = secretMask then s.given k else asked.value k
    gives := fun k => if asked.value k = secretMask then s.gives k else s.gives k + 1 }

/-- The second half of `updateChannel`. -/
def write (s : ChannelState) (call : Nat) (ok : Bool) (asked req : NotificationChannel) :
    ChannelState :=
  if !ok then s.answer call (.refused 500 "update failed")
  else
    match s.channel with
    | none => s.answer call (.refused 404 "channel not found")
    | some _ =>
      ({ s with channel := some req }.give asked.config).answer call (.ok (maskChannelSecrets req))

def step (s : ChannelState) : ChannelAction → ChannelState
  | .put call req =>
    match s.calls.stage? call with
    | some _ => s
    | none => { s with calls := s.calls.put call (.received req) }
  | .load call ok =>
    match s.calls.stage? call with
    | some (.received req) => s.load checks call ok req
    | _ => s
  | .write call ok =>
    match s.calls.stage? call with
    | some (.checked asked req _ _) => s.write call ok asked req
    | _ => s
  | .drop call => { s with calls := s.calls.drop call }
  | .overwrite kind config =>
    match s.channel with
    | none => s
    | some c =>
      { s with
        channel := some { c with kind := kind, config := config }
        given := config.value
        gives := fun k => s.gives k + 1 }
  | .delete => { s with channel := none }

/-- A channel before any save. -/
def start (c : NotificationChannel) : ChannelState where
  channel := some c
  given := c.config.value

/-- Where a save restores a credential, its look-up was answered and no credential was given
since. -/
def UpToDate (s : ChannelState) : Option SaveStage → Prop
  | some (.checked asked _ restored seen) => ∀ k ∈ channelSecretKeys,
    asked.config.value k = secretMask → restored ∧ seen k = s.gives k
  | _ => True

instance UpToDate.decidable (s : ChannelState) : ∀ st, Decidable (s.UpToDate st)
  | some (.checked asked _ restored seen) =>
    inferInstanceAs (Decidable (∀ k ∈ channelSecretKeys,
      asked.config.value k = secretMask → restored ∧ seen k = s.gives k))
  | some (.received _) => isTrue trivial
  | none => isTrue trivial

/-- What a write must meet. -/
def Undisturbed (s : ChannelState) : ChannelAction → Prop
  | .write call ok => ok → s.channel.isSome → s.UpToDate (s.calls.stage? call)
  | _ => True

instance Undisturbed.decidable (s : ChannelState) : ∀ a, Decidable (s.Undisturbed a)
  | .write call ok =>
    inferInstanceAs (Decidable (ok → s.channel.isSome →
      s.UpToDate (s.calls.stage? call)))
  | .put _ _ => isTrue trivial
  | .load _ _ => isTrue trivial
  | .drop _ => isTrue trivial
  | .overwrite _ _ => isTrue trivial
  | .delete => isTrue trivial

end ChannelState

/-! ## Masking and restoring -/

variable {checks : ChannelChecks} {c d req valid : NotificationChannel} {k : String}

theorem validateChannel_config (h : validateChannel checks req = .ok valid) :
    valid.config = req.config := by
  unfold validateChannel at h
  dsimp only at h
  split at h
  · cases h
  split at h
  · cases h
  split at h
  · cases h
  split at h
  · cases h
  split at h
  · cases h
  split at h
  · cases h
  cases h
  rfl

theorem value_keepMaskedSecrets_of_mask {next prev : ChannelConfig} (hk : k ∈ channelSecretKeys)
    (hmask : next.value k = secretMask) : (keepMaskedSecrets next prev).value k = prev.value k := by
  show (keepMaskedSecrets next prev k).getD "" = prev.value k
  unfold keepMaskedSecrets
  rw [if_pos ⟨hk, hmask⟩]
  by_cases hprev : prev.value k = ""
  · rw [if_neg (not_not.2 hprev), hprev]
    rfl
  · rw [if_pos hprev]
    rfl

theorem keepMaskedSecrets_of_ne {next prev : ChannelConfig} (hne : next.value k ≠ secretMask) :
    keepMaskedSecrets next prev k = next k :=
  if_neg fun h => hne h.2

theorem keepMaskedSecrets_mask (c : NotificationChannel) :
    keepMaskedSecrets (maskChannelSecrets c).config c.config = c.config := by
  have hmask : trimSpace secretMask ≠ "" := by decide +kernel
  have hblank : trimSpace "" = "" := by decide +kernel
  funext k
  by_cases hsecret : k ∈ channelSecretKeys ∧ trimSpace (c.config.value k) ≠ ""
  · have hmasked : (maskChannelSecrets c).config k = some secretMask := if_pos hsecret
    have hvalue : (maskChannelSecrets c).config.value k = secretMask := by
      rw [ChannelConfig.value, hmasked, Option.getD_some]
    have hset : c.config.value k ≠ "" := by
      intro hempty
      rw [hempty] at hsecret
      exact hsecret.2 hblank
    unfold keepMaskedSecrets
    rw [if_pos ⟨hsecret.1, hvalue⟩, if_pos hset]
    unfold ChannelConfig.value at hset ⊢
    cases hstored : c.config k with
    | none =>
      rw [hstored] at hset
      exact absurd rfl hset
    | some v => rfl
  · have hplain : (maskChannelSecrets c).config k = c.config k := if_neg hsecret
    unfold keepMaskedSecrets
    rw [if_neg, hplain]
    intro h
    have hvalue : c.config.value k = secretMask := by
      rw [← h.2, ChannelConfig.value, ChannelConfig.value, hplain]
    rw [hvalue] at hsecret
    exact hsecret ⟨h.1, hmask⟩

/-- The two channels are the same, except for credentials that both have. -/
structure SameButSecrets (c d : NotificationChannel) : Prop where
  name : c.name = d.name
  kind : c.kind = d.kind
  config : ∀ k, c.config k = d.config k ∨
    (k ∈ channelSecretKeys ∧ trimSpace (c.config.value k) ≠ "" ∧ trimSpace (d.config.value k) ≠ "")

theorem maskChannelSecrets_eq (h : SameButSecrets c d) :
    maskChannelSecrets c = maskChannelSecrets d := by
  have hconfig : (maskChannelSecrets c).config = (maskChannelSecrets d).config := by
    funext k
    unfold maskChannelSecrets
    dsimp only
    cases h.config k with
    | inl hsame =>
      unfold ChannelConfig.value
      rw [hsame]
    | inr hset => rw [if_pos ⟨hset.1, hset.2.1⟩, if_pos ⟨hset.1, hset.2.2⟩]
  calc maskChannelSecrets c = ⟨c.name, c.kind, (maskChannelSecrets c).config⟩ := rfl
    _ = maskChannelSecrets d := by rw [hconfig, h.name, h.kind]; rfl

/-! ## Runs of saves -/

namespace ChannelState

/-- What holds of a save in progress. -/
def StageSound (s : ChannelState) : SaveStage → Prop
  | .received _ => True
  | .checked asked req restored seen => ∀ k, seen k ≤ s.gives k ∧
    (asked.config.value k ≠ secretMask → req.config.value k = asked.config.value k) ∧
    (k ∈ channelSecretKeys → asked.config.value k = secretMask → restored →
      seen k = s.gives k → req.config.value k = s.given k)

/-- The credentials that are stored are those that were given last. -/
structure Sound (s : ChannelState) : Prop where
  stored : ∀ c, s.channel = some c → ∀ k ∈ channelSecretKeys, c.config.value k = s.given k
  calls : s.calls.All s.StageSound

variable {s : ChannelState} {call : Nat}

theorem Sound.answer (h : s.Sound) (call : Nat) (a : SaveAnswer) : (s.answer call a).Sound where
  stored := h.stored
  calls := h.calls.drop call

/-- **The look-up.** -/
theorem Sound.load (h : s.Sound) (call : Nat) (ok : Bool) (req : NotificationChannel) :
    (s.load checks call ok req).Sound := by
  unfold ChannelState.load
  dsimp only
  split
  · exact h.answer call _
  rename_i valid hvalid
  have hconfig := validateChannel_config hvalid
  refine ⟨h.stored, h.calls.put call ?_⟩
  intro k
  refine ⟨Nat.le_refl _, ?_, ?_⟩
  · intro hne
    unfold ChannelConfig.value at hne ⊢
    rw [hconfig]
    split
    · show (keepMaskedSecrets _ _ k).getD "" = _
      rw [keepMaskedSecrets_of_ne hne]
    · rfl
  · intro hk hmask hrestored _
    rw [hconfig]
    cases ok with
    | false => cases hrestored
    | true =>
      rw [if_pos rfl] at hrestored ⊢
      obtain ⟨c, hc⟩ := Option.isSome_iff_exists.1 hrestored
      rw [hc]
      show (keepMaskedSecrets req.config c.config).value k = s.given k
      rw [value_keepMaskedSecrets_of_mask hk hmask]
      exact h.stored c hc k hk

/-- What is given since a look-up is told by the number of times. -/
theorem StageSound.of_gives {s t : ChannelState} {st : SaveStage} (h : s.StageSound st)
    (hgives : ∀ k, s.gives k ≤ t.gives k) (hgiven : ∀ k, t.gives k = s.gives k →
      t.given k = s.given k) : t.StageSound st := by
  cases st with
  | received req => trivial
  | checked asked req restored seen =>
    intro k
    obtain ⟨hseen, hasked, hmask⟩ := h k
    have hle := hgives k
    refine ⟨by omega, hasked, ?_⟩
    intro hk hvalue hrestored heq
    have hsame : t.gives k = s.gives k := by omega
    rw [hgiven k hsame]
    exact hmask hk hvalue hrestored (by omega)

variable {asked : NotificationChannel} {seen : String → Nat} {restored : Bool}

/-- **The write.** -/
theorem Sound.write (h : s.Sound) {req : NotificationChannel}
    (hstage : s.calls.stage? call = some (.checked asked req restored seen)) {ok : Bool}
    (hundisturbed : s.Undisturbed (.write call ok)) : (s.write call ok asked req).Sound := by
  unfold ChannelState.write
  cases ok with
  | false => exact h.answer call _
  | true =>
    rw [Bool.not_true, if_neg Bool.false_ne_true]
    cases hchannel : s.channel with
    | none => exact h.answer call _
    | some old =>
      have hcond : ∀ k ∈ channelSecretKeys, asked.config.value k = secretMask →
          restored ∧ seen k = s.gives k := by
        have hfresh := hundisturbed rfl (by rw [hchannel]; rfl)
        rw [hstage] at hfresh
        exact hfresh
      have hsound := h.calls.of_stage? hstage
      dsimp only
      apply Sound.answer
      constructor
      · intro c hc k hk
        obtain rfl : req = c := Option.some.inj hc
        show req.config.value k = if _ then _ else _
        by_cases hmask : asked.config.value k = secretMask
        · rw [if_pos hmask]
          obtain ⟨hrestored, hseen⟩ := hcond k hk hmask
          exact (hsound k).2.2 hk hmask hrestored hseen
        · rw [if_neg hmask]
          exact (hsound k).2.1 hmask
      · refine h.calls.imp fun st hst => hst.of_gives ?_ ?_
        · intro k
          show s.gives k ≤ if asked.config.value k = secretMask then s.gives k else s.gives k + 1
          split <;> omega
        · intro k heq
          change (if asked.config.value k = secretMask then s.gives k else s.gives k + 1) =
            s.gives k at heq
          show (if asked.config.value k = secretMask then s.given k else asked.config.value k) =
            s.given k
          split at heq
          · rename_i hmask
            rw [if_pos hmask]
          · omega

/-- **One statement.** -/
theorem Sound.step (h : s.Sound) {a : ChannelAction} (hundisturbed : s.Undisturbed a) :
    (s.step checks a).Sound := by
  cases a with
  | put call req =>
    unfold ChannelState.step
    dsimp only
    split
    · exact h
    · exact ⟨h.stored, h.calls.put call trivial⟩
  | load call ok =>
    unfold ChannelState.step
    dsimp only
    split
    · exact h.load call ok _
    · exact h
  | write call ok =>
    unfold ChannelState.step
    dsimp only
    split
    · rename_i asked req restored seen hstage
      exact h.write hstage hundisturbed
    · exact h
  | drop call => exact ⟨h.stored, h.calls.drop call⟩
  | overwrite kind config =>
    unfold ChannelState.step
    dsimp only
    split
    · exact h
    constructor
    · intro c hc k _
      cases hc
      rfl
    · refine h.calls.imp fun st hst => hst.of_gives ?_ ?_
      · intro k
        exact Nat.le_succ _
      · intro k heq
        change s.gives k + 1 = s.gives k at heq
        omega
  | delete =>
    constructor
    · intro c hc
      cases hc
    · exact h.calls

theorem sound_start (c : NotificationChannel) : (start c).Sound where
  stored d hd k _ := by
    obtain rfl := Option.some.inj hd
    rfl
  calls := InProgress.all_empty _

theorem step_put {call : Nat} (hnew : s.calls.stage? call = none) (req : NotificationChannel) :
    s.step checks (.put call req) = { s with calls := s.calls.put call (.received req) } := by
  unfold ChannelState.step
  dsimp only
  rw [hnew]

theorem step_load (hstage : s.calls.stage? call = some (.received req)) (ok : Bool) :
    s.step checks (.load call ok) = s.load checks call ok req := by
  unfold ChannelState.step
  dsimp only
  rw [hstage]

theorem step_write (hstage : s.calls.stage? call = some (.checked asked req restored seen))
    (ok : Bool) : s.step checks (.write call ok) = s.write call ok asked req := by
  unfold ChannelState.step
  dsimp only
  rw [hstage]

theorem step_write_of_none (hstage : s.calls.stage? call = none) (ok : Bool) :
    s.step checks (.write call ok) = s := by
  unfold ChannelState.step
  dsimp only
  rw [hstage]

theorem stage?_put (p : InProgress SaveStage) (call : Nat) (st : SaveStage) :
    (p.put call st).stage? call = some st :=
  InProgress.stage?_eq_some.2 (InProgress.mem_put.2 (.inl rfl))

theorem stage?_drop (p : InProgress SaveStage) (call : Nat) : (p.drop call).stage? call = none := by
  rw [Option.eq_none_iff_forall_ne_some]
  intro st hst
  exact (InProgress.mem_drop.1 (InProgress.stage?_eq_some.1 hst)).2 rfl

/-- The look-up of a save that sends back what was read: the request that is checked has the
configuration that is stored. -/
theorem load_masked (hc : s.channel = some c) (call : Nat) :
    s.load checks call true (maskChannelSecrets c) =
      match validateChannel checks { maskChannelSecrets c with config := c.config } with
      | .error e => s.answer call (.refused 400 e)
      | .ok valid =>
        { s with
          calls := s.calls.put call (.checked (maskChannelSecrets c) valid true s.gives) } := by
  unfold load
  rw [if_pos rfl, hc]
  dsimp only
  rw [keepMaskedSecrets_mask]
  rfl

theorem run_save_masked (hc : s.channel = some c) (hnew : s.calls.stage? call = none) (ok : Bool) :
    ∃ d, (run (step checks) s [.put call (maskChannelSecrets c), .load call true,
      .write call ok]).channel = some d ∧ d.config = c.config := by
  rw [run_cons, run_cons, run_cons, run_nil, step_put hnew, step_load (stage?_put _ _ _),
    load_masked (s := { s with calls := s.calls.put call _ }) hc]
  cases hvalid : validateChannel checks { maskChannelSecrets c with config := c.config } with
  | error e =>
    dsimp only
    rw [step_write_of_none]
    · exact ⟨c, hc, rfl⟩
    · exact stage?_drop _ call
  | ok valid =>
    dsimp only
    rw [step_write (stage?_put _ _ _)]
    unfold write
    cases ok with
    | false => exact ⟨c, hc, rfl⟩
    | true =>
      rw [Bool.not_true, if_neg Bool.false_ne_true]
      dsimp only
      rw [hc]
      exact ⟨valid, rfl, validateChannel_config hvalid⟩

end ChannelState

open ChannelState

/-- **Credentials through masked saves.**  Saving what was read changes no configuration, what
is read does not tell the credentials apart, and in a run whose saves restore what they looked
up before another is given, the credentials stored are those given last. -/
theorem secrets_survive (checks : ChannelChecks) (c : NotificationChannel) :
    (∀ s : ChannelState, s.channel = some c → ∀ call, s.calls.stage? call = none → ∀ ok,
      ∃ d, (run (step checks) s [.put call (maskChannelSecrets c), .load call true,
        .write call ok]).channel = some d ∧ d.config = c.config) ∧
    (∀ d, SameButSecrets c d → maskChannelSecrets c = maskChannelSecrets d) ∧
    ∀ actions, StepsMeet (step checks) Undisturbed (start c) actions →
      ∀ d, (run (step checks) (start c) actions).channel = some d → ∀ k ∈ channelSecretKeys,
        d.config.value k = (run (step checks) (start c) actions).given k := by
  refine ⟨fun s hc call hnew ok => run_save_masked hc hnew ok, fun d => maskChannelSecrets_eq, ?_⟩
  intro actions hmeet
  exact (hmeet.invariant (fun s a hs ha => hs.step ha) (sound_start c)).stored

/-! ### A rotation and a masked save -/

private def anyChecks : ChannelChecks where
  toLower := String.toLower
  equalFold a b := a.toLower = b.toLower
  validateWebhookTemplate _ := .ok []

private def signedHook (secret : String) : NotificationChannel where
  name := "hooks"
  kind := "webhook"
  config k :=
    if k = "url" then some "https://hooks" else if k = "secret" then some secret else none

private def SaveAnswer.isOk : SaveAnswer → Bool
  | .ok _ => true
  | .refused _ _ => false

private def rotateThenSave : List ChannelAction :=
  [.put 1 (signedHook "new"), .put 2 (maskChannelSecrets (signedHook "old")), .load 1 true,
    .write 1 true, .load 2 true, .write 2 true]

/-- A masked save that looks up after the rotation keeps what it gave. -/
theorem rotation_kept :
    (run (step anyChecks) (start (signedHook "old")) rotateThenSave).channel.map
      (fun d => d.config.value "secret") = some "new" := by
  have hstored := (secrets_survive anyChecks (signedHook "old")).2.2 rotateThenSave
    (by decide +kernel)
  have hgiven : (run (step anyChecks) (start (signedHook "old")) rotateThenSave).given "secret" =
      "new" := by decide +kernel
  have hsome : (run (step anyChecks) (start (signedHook "old")) rotateThenSave).channel.isSome =
      true := by decide +kernel
  obtain ⟨d, hd⟩ := Option.isSome_iff_exists.1 hsome
  rw [hd, Option.map_some, hstored d hd "secret" (by decide), hgiven]

/-- The masked save looks the secret up, the secret is rotated, and the save writes the old
one back. -/
theorem rotation_lost :
    let s := run (step anyChecks) (start (signedHook "old"))
      [.put 1 (signedHook "new"), .put 2 (maskChannelSecrets (signedHook "old")), .load 2 true,
        .load 1 true, .write 1 true, .write 2 true]
    (s.answers.map fun a => (a.1, a.2.isOk)) = [(2, true), (1, true)] ∧
      s.given "secret" = "new" ∧ s.channel.map (fun d => d.config.value "secret") = some "old" := by
  decide +kernel

end Sluicio.Api
