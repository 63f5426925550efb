import Sluicio.Api.Middleware
import Sluicio.Lib.Run

/-!
# The authorization server

A client registers, a signed-in user consents, the browser carries a code to the client, and
the client redeems it for a token.  A token request is taken apart into the statement that
consumes the code and the one that stores the token, so that redemptions may overlap.
-/

namespace Sluicio.Api.Oauth

open Identity Lib
open Tracecompletion (trimSpace)

/-- A row of `oauth_clients`. -/
structure Client where
  clientID : String
  clientName : String
  redirectURIs : List String

/-- A row of `oauth_auth_codes`. -/
structure AuthCode where
  code : String
  clientID : String
  redirectURI : String
  codeChallenge : String
  codeChallengeMethod : String
  userID : UUID
  scope : String
  expiresAt : Nat
  consumed : Bool := false

/-- `authorizeParams`, and what else the authorize requests read. -/
structure AuthorizeForm where
  clientID : String
  redirectURI : String
  state : String := ""
  scope : String := ""
  codeChallenge : String
  codeChallengeMethod : String := "S256"
  responseType : String := "code"
  decision : String := "approve"

structure TokenForm where
  grantType : String := "authorization_code"
  code : String
  codeVerifier : String
  clientID : String
  redirectURI : String

/-- A user's approval: when it was given, by whom and to what, and the code drawn for it. -/
structure Consent where
  code : String
  userID : UUID
  form : AuthorizeForm
  expiresAt : Nat

/-- A token request that has consumed its code. -/
structure Redemption where
  call : Nat
  form : TokenForm
  row : AuthCode
  redeemedAt : Nat

/-- A token request that was answered with a token. -/
structure Grant where
  form : TokenForm
  redeemedAt : Nat
  token : ApiToken

/-- The tables, the token requests in progress, and what was approved and granted so far. -/
structure State where
  clients : List Client := []
  codes : List AuthCode := []
  tokens : List ApiToken := []
  redemptions : List Redemption := []
  consents : List Consent := []
  grants : List Grant := []

inductive AuthorizeAnswer where
  | errorPage (message : String)
  | redirectError (code : String)
  | signIn
  | consent (form : AuthorizeForm) (clientName : String)
  | redirectCode (code : String)

inductive Action where
  | register (clientName : String) (redirectURIs : List String) (id : String)
  | authorize (form : AuthorizeForm) (p : Option AuthPrincipal)
  | decide (form : AuthorizeForm) (p : Option AuthPrincipal) (code : String) (now : Nat)
  | consume (call : Nat) (form : TokenForm) (now : Nat)
  | mint (call : Nat) (now : Nat) (failed : Bool)

/-! ## The handlers -/

section Handlers

variable (s : State)

/-- `oauthRegister`. -/
def register (clientName : String) (redirectURIs : List String) (id : String) : State :=
  let uris := (redirectURIs.map trimSpace).filter fun u => u ≠ ""
  let clientID := "mcp_" ++ id
  if uris = [] ∨ (s.clients.any fun c => c.clientID = clientID) then s
  else { s with clients := s.clients ++ [⟨clientID, clientName, uris⟩] }

def validateAuthorizeClient (form : AuthorizeForm) : Except AuthorizeAnswer Client :=
  match s.clients.find? fun c => c.clientID = form.clientID with
  | none => .error (.errorPage "Unknown client. Remove and re-add the connector.")
  | some c =>
    if form.redirectURI ∈ c.redirectURIs then .ok c
    else .error (.errorPage "redirect_uri is not registered for this client.")

def clientLabel (c : Client) : String :=
  if trimSpace c.clientName ≠ "" then c.clientName else "An MCP client"

def oauthAuthorize (form : AuthorizeForm) (p : Option AuthPrincipal) : AuthorizeAnswer :=
  match validateAuthorizeClient s form with
  | .error a => a
  | .ok c =>
    if form.responseType ≠ "code" then .redirectError "unsupported_response_type"
    else if form.codeChallenge = "" ∨
        (form.codeChallengeMethod ≠ "" ∧ form.codeChallengeMethod ≠ "S256") then
      .redirectError "invalid_request"
    else
      match p.bind fun p => p.userID with
      | none => .signIn
      | some _ => .consent form (clientLabel c)

/-- `oauthAuthorizeDecision`.  The challenge is stored as it comes. -/
def oauthAuthorizeDecision (form : AuthorizeForm) (p : Option AuthPrincipal) (code : String)
    (now : Nat) : AuthorizeAnswer × State :=
  match validateAuthorizeClient s form with
  | .error a => (a, s)
  | .ok _ =>
    if form.decision ≠ "approve" then (.redirectError "access_denied", s)
    else
      match p.bind fun p => p.userID with
      | none => (.signIn, s)
      | some userID =>
        if s.codes.any fun r => r.code = code then
          (.errorPage "Could not start the grant. Try again.", s)
        else
          let expiresAt := now + 300
          (.redirectCode code,
            { s with
              codes := s.codes ++ [
                { code := code
                  clientID := form.clientID
                  redirectURI := form.redirectURI
                  codeChallenge := form.codeChallenge
                  codeChallengeMethod := "S256"
                  userID := userID
                  scope := form.scope
                  expiresAt := expiresAt }]
              consents := s.consents ++ [⟨code, userID, form, expiresAt⟩] })

/-- `ConsumeCode`: the row, and the table with the row marked. -/
def consumeCode (codes : List AuthCode) (code : String) (now : Nat) :
    Option (AuthCode × List AuthCode) :=
  match codes.find? fun r => r.code = code && !r.consumed && now < r.expiresAt with
  | none => none
  | some r =>
    some (r, codes.map fun r => if r.code = code then { r with consumed := true } else r)

/-- `oauthToken` up to the code. -/
def oauthTokenConsume (call : Nat) (form : TokenForm) (now : Nat) : State :=
  if form.grantType ≠ "authorization_code" then s
  else if form.code = "" ∨ form.codeVerifier = "" then s
  -- every request has a number of its own
  else if s.redemptions.any fun x => x.call = call then s
  else
    match consumeCode s.codes form.code now with
    | none => s
    | some (row, codes) =>
      { s with
        codes := codes
        redemptions := ⟨call, form, row, now⟩ :: s.redemptions }

/-- `oauthAccessTokenDays`, in seconds. -/
def oauthAccessTokenSeconds : Nat := 90 * 24 * 60 * 60

variable (s256 : String → String)

/-- `verifyPKCE`, with the S256 transform of a verifier as a parameter. -/
def verifyPKCE (challenge verifier : String) : Bool :=
  if challenge = "" ∨ verifier = "" then false else s256 verifier = challenge

/-- `oauthToken` from the code on. -/
def oauthTokenMint (x : Redemption) (now : Nat) (failed : Bool) : State :=
  let rest := s.redemptions.filter fun y => y.call ≠ x.call
  if x.row.clientID ≠ x.form.clientID ∨ x.row.redirectURI ≠ x.form.redirectURI then
    { s with redemptions := rest }
  else if !verifyPKCE s256 x.row.codeChallenge x.form.codeVerifier then
    { s with redemptions := rest }
  else if failed then { s with redemptions := rest }
  else
    let token : ApiToken :=
      { owner := .user x.row.userID
        name := "MCP (OAuth connector)"
        scopeRole := "viewer"
        expiresAt := some (now + oauthAccessTokenSeconds) }
    { s with
      redemptions := rest
      tokens := token :: s.tokens
      grants := ⟨x.form, x.redeemedAt, token⟩ :: s.grants }

def step : Action → State
  | .register clientName redirectURIs id => register s clientName redirectURIs id
  | .authorize _ _ => s
  | .decide form p code now => (oauthAuthorizeDecision s form p code now).2
  | .consume call form now => oauthTokenConsume s call form now
  | .mint call now failed =>
    match s.redemptions.find? fun x => x.call = call with
    | none => s
    | some x => oauthTokenMint s s256 x now failed

end Handlers

/-! ## One token a code -/

/-- The request is of the client and for the address that the user approved, with a verifier
for the challenge that was approved, and in time. -/
structure Matches (s256 : String → String) (g : Grant) (c : Consent) : Prop where
  code : g.form.code = c.code
  clientID : g.form.clientID = c.form.clientID
  redirectURI : g.form.redirectURI = c.form.redirectURI
  verifier : s256 g.form.codeVerifier = c.form.codeChallenge
  inTime : g.redeemedAt < c.expiresAt

/-- The token acts for the user, with no more than the viewer role: whatever the user's
memberships are by then and whichever organization a request asks for. -/
def ActsForViewer (tok : ApiToken) (userID : UUID) : Prop :=
  ∀ (a : AuthStore) (active : String) (p : AuthPrincipal),
    a.principalFromToken tok active = some p →
      p.kind = .user ∧ p.userID = some userID ∧ p.role.rank ≤ Role.viewer.rank

/-- What the authorization server has granted. -/
structure GrantsSound (s256 : String → String) (s : State) : Prop where
  tokens : s.tokens = s.grants.map Grant.token
  /-- each code yields at most one of them -/
  single : (s.grants.map fun g => g.form.code).Nodup
  consents : (s.consents.map Consent.code).Nodup
  /-- each token answers a request that matches the consent the code was drawn for, and acts
  for the user who gave it -/
  granted : ∀ g ∈ s.grants, ∃ c ∈ s.consents, Matches s256 g c ∧ ActsForViewer g.token c.userID

section Invariant

/-- The row is the one that the consent stored. -/
structure FromConsent (r : AuthCode) (c : Consent) : Prop where
  code : r.code = c.code
  clientID : r.clientID = c.form.clientID
  redirectURI : r.redirectURI = c.form.redirectURI
  codeChallenge : r.codeChallenge = c.form.codeChallenge
  userID : r.userID = c.userID
  expiresAt : r.expiresAt = c.expiresAt

/-- What holds between two statements.  A code is consumed before its request is answered, so
the codes of the requests in progress and those of the grants are all different. -/
structure Inv (s256 : String → String) (s : State) : Prop where
  tokens : s.tokens = s.grants.map Grant.token
  sameCodes : s.consents.map Consent.code = s.codes.map AuthCode.code
  codes : (s.codes.map AuthCode.code).Nodup
  rows : ∀ r ∈ s.codes, ∃ c ∈ s.consents, FromConsent r c
  pending : ∀ x ∈ s.redemptions, (∃ c ∈ s.consents, FromConsent x.row c) ∧
    x.form.code = x.row.code ∧ x.redeemedAt < x.row.expiresAt
  pendingCodes : (s.redemptions.map fun x => x.form.code).Nodup
  grantCodes : (s.grants.map fun g => g.form.code).Nodup
  apart : ∀ x ∈ s.redemptions, ∀ g ∈ s.grants, x.form.code ≠ g.form.code
  pendingConsumed : ∀ x ∈ s.redemptions, ∃ r ∈ s.codes, r.code = x.form.code ∧ r.consumed
  grantConsumed : ∀ g ∈ s.grants, ∃ r ∈ s.codes, r.code = g.form.code ∧ r.consumed
  granted : ∀ g ∈ s.grants, ∃ c ∈ s.consents, Matches s256 g c ∧ ActsForViewer g.token c.userID

variable {s256 : String → String} {s : State}

theorem inv_start : Inv s256 {} where
  tokens := rfl
  sameCodes := rfl
  codes := List.nodup_nil
  rows := by intro r hr; cases hr
  pending := by intro x hx; cases hx
  pendingCodes := List.nodup_nil
  grantCodes := List.nodup_nil
  apart := by intro x hx; cases hx
  pendingConsumed := by intro x hx; cases hx
  grantConsumed := by intro g hg; cases hg
  granted := by intro g hg; cases hg

theorem Inv.register (h : Inv s256 s) (clientName : String) (redirectURIs : List String)
    (id : String) : Inv s256 (register s clientName redirectURIs id) := by
  unfold Oauth.register
  simp only
  split_ifs
  · exact h
  · exact { h with }

theorem oauthAuthorizeDecision_cases (s : State) (form : AuthorizeForm) (p : Option AuthPrincipal)
    (code : String) (now : Nat) :
    (oauthAuthorizeDecision s form p code now).2 = s ∨
    ∃ r c, FromConsent r c ∧ (∀ r' ∈ s.codes, r'.code ≠ r.code) ∧
      (oauthAuthorizeDecision s form p code now).2 =
        { s with codes := s.codes ++ [r], consents := s.consents ++ [c] } := by
  unfold oauthAuthorizeDecision
  cases validateAuthorizeClient s form with
  | error a => exact Or.inl rfl
  | ok client =>
    by_cases hdecision : form.decision ≠ "approve"
    · exact Or.inl (by simp [hdecision])
    simp only [hdecision, if_false]
    cases p.bind fun p => p.userID with
    | none => exact Or.inl rfl
    | some userID =>
      simp only
      split_ifs with htaken
      · exact Or.inl rfl
      · refine Or.inr ⟨_, _, ?_, ?_, rfl⟩
        · exact ⟨rfl, rfl, rfl, rfl, rfl, rfl⟩
        · intro r' hr' heq
          exact htaken (List.any_eq_true.2 ⟨r', hr', by simpa using heq⟩)

theorem Inv.decide (h : Inv s256 s) (form : AuthorizeForm) (p : Option AuthPrincipal)
    (code : String) (now : Nat) : Inv s256 (oauthAuthorizeDecision s form p code now).2 := by
  rcases oauthAuthorizeDecision_cases s form p code now with hsame | ⟨r, c, hrow, hnew, hadd⟩
  · rw [hsame]
    exact h
  rw [hadd]
  have hkeep : ∀ {P : Consent → Prop}, (∃ c' ∈ s.consents, P c') →
      ∃ c' ∈ s.consents ++ [c], P c' := by
    rintro P ⟨c', hc', hP⟩
    exact ⟨c', List.mem_append_left _ hc', hP⟩
  have hkeepRow : ∀ {P : AuthCode → Prop}, (∃ r' ∈ s.codes, P r') →
      ∃ r' ∈ s.codes ++ [r], P r' := by
    rintro P ⟨r', hr', hP⟩
    exact ⟨r', List.mem_append_left _ hr', hP⟩
  exact {
    tokens := h.tokens
    sameCodes := by simp [h.sameCodes, hrow.code]
    codes := by
      rw [List.map_append, List.nodup_append]
      refine ⟨h.codes, by simp, ?_⟩
      intro a ha b hb heq
      obtain ⟨r', hr', rfl⟩ := List.mem_map.1 ha
      exact hnew r' hr' (heq.trans (by simpa using hb))
    rows := by
      intro r' hr'
      rcases List.mem_append.1 hr' with hold | hone
      · exact hkeep (h.rows r' hold)
      · obtain rfl : r' = r := by simpa using hone
        exact ⟨c, by simp, hrow⟩
    pending := fun x hx => ⟨hkeep (h.pending x hx).1, (h.pending x hx).2⟩
    pendingCodes := h.pendingCodes
    grantCodes := h.grantCodes
    apart := h.apart
    pendingConsumed := fun x hx => hkeepRow (h.pendingConsumed x hx)
    grantConsumed := fun g hg => hkeepRow (h.grantConsumed g hg)
    granted := fun g hg => hkeep (h.granted g hg) }

/-- What `ConsumeCode` returns, and what it leaves. -/
theorem consumeCode_eq_some {codes codes' : List AuthCode} {code : String} {now : Nat}
    {r : AuthCode} (h : consumeCode codes code now = some (r, codes')) :
    r ∈ codes ∧ r.code = code ∧ r.consumed = false ∧ now < r.expiresAt ∧
      codes' = codes.map fun r => if r.code = code then { r with consumed := true } else r := by
  unfold consumeCode at h
  cases hfind : codes.find? fun r => r.code = code && !r.consumed && now < r.expiresAt with
  | none => simp [hfind] at h
  | some r' =>
    simp only [hfind, Option.some.injEq, Prod.mk.injEq] at h
    obtain ⟨rfl, rfl⟩ := h
    have hcond : (r'.code = code ∧ r'.consumed = false) ∧ now < r'.expiresAt := by
      simpa using List.find?_some hfind
    exact ⟨List.mem_of_find?_eq_some hfind, hcond.1.1, hcond.1.2, hcond.2, rfl⟩

theorem map_mark_code (codes : List AuthCode) (code : String) :
    (codes.map fun r => if r.code = code then { r with consumed := true } else r).map
      AuthCode.code = codes.map AuthCode.code := by
  rw [List.map_map]
  refine List.map_congr_left fun r _ => ?_
  simp only [Function.comp_apply]
  split <;> rfl

theorem Inv.consume (h : Inv s256 s) (call : Nat) (form : TokenForm) (now : Nat) :
    Inv s256 (oauthTokenConsume s call form now) := by
  unfold oauthTokenConsume
  split_ifs
  · exact h
  · exact h
  · exact h
  cases hconsume : consumeCode s.codes form.code now with
  | none => exact h
  | some found =>
    obtain ⟨row, codes⟩ := found
    obtain ⟨hmem, hcode, hfresh, hin, rfl⟩ := consumeCode_eq_some hconsume
    -- a code that was consumed before has a marked row, and there is one row a code
    have hunused : ∀ r ∈ s.codes, r.consumed → r.code ≠ form.code := by
      intro r hr hused heq
      have hsame : r = row :=
        List.inj_on_of_nodup_map h.codes hr hmem (heq.trans hcode.symm)
      rw [hsame, hfresh] at hused
      cases hused
    have hmarked : ∀ {other : String}, (∃ r ∈ s.codes, r.code = other ∧ r.consumed) →
        ∃ r ∈ s.codes.map fun r => if r.code = form.code then { r with consumed := true } else r,
          r.code = other ∧ r.consumed := by
      rintro other ⟨r, hr, hother, hused⟩
      refine ⟨r, List.mem_map.2 ⟨r, hr, ?_⟩, hother, hused⟩
      rw [if_neg (hunused r hr hused)]
    exact {
      tokens := h.tokens
      sameCodes := by rw [map_mark_code]; exact h.sameCodes
      codes := by rw [map_mark_code]; exact h.codes
      rows := by
        intro r hr
        obtain ⟨r', hr', rfl⟩ := List.mem_map.1 hr
        obtain ⟨c, hc, hfrom⟩ := h.rows r' hr'
        refine ⟨c, hc, ?_⟩
        split
        · exact { hfrom with }
        · exact hfrom
      pending := by
        intro x hx
        rcases List.mem_cons.1 hx with rfl | hold
        · exact ⟨h.rows row hmem, hcode.symm, hin⟩
        · exact h.pending x hold
      pendingCodes := by
        refine List.nodup_cons.2 ⟨fun hin => ?_, h.pendingCodes⟩
        obtain ⟨x, hx, heq⟩ := List.mem_map.1 hin
        obtain ⟨r, hr, hrx, hused⟩ := h.pendingConsumed x hx
        exact hunused r hr hused (hrx.trans heq)
      grantCodes := h.grantCodes
      apart := by
        intro x hx g hg
        rcases List.mem_cons.1 hx with rfl | hold
        · obtain ⟨r, hr, hrg, hused⟩ := h.grantConsumed g hg
          exact fun heq => hunused r hr hused (hrg.trans heq.symm)
        · exact h.apart x hold g hg
      pendingConsumed := by
        intro x hx
        rcases List.mem_cons.1 hx with rfl | hold
        · refine ⟨{ row with consumed := true }, List.mem_map.2 ⟨row, hmem, ?_⟩, hcode, rfl⟩
          rw [if_pos hcode]
        · exact hmarked (h.pendingConsumed x hold)
      grantConsumed := fun g hg => hmarked (h.grantConsumed g hg)
      granted := h.granted }

theorem Inv.drop (h : Inv s256 s) (x : Redemption) :
    Inv s256 { s with redemptions := s.redemptions.filter fun y => y.call ≠ x.call } :=
  have hmem : ∀ y ∈ s.redemptions.filter fun y => y.call ≠ x.call, y ∈ s.redemptions :=
    fun _ hy => (List.mem_filter.1 hy).1
  { h with
    pending := fun y hy => h.pending y (hmem y hy)
    pendingCodes := h.pendingCodes.sublist (List.filter_sublist.map _)
    apart := fun y hy => h.apart y (hmem y hy)
    pendingConsumed := fun y hy => h.pendingConsumed y (hmem y hy) }

theorem verifyPKCE_eq {challenge verifier : String}
    (h : verifyPKCE s256 challenge verifier) : s256 verifier = challenge := by
  unfold verifyPKCE at h
  split_ifs at h
  simpa using h

theorem actsForViewer {tok : ApiToken} {userID : UUID} (howner : tok.owner = .user userID)
    (hscope : tok.scopeRole = "viewer") : ActsForViewer tok userID := by
  intro a active p hp
  obtain ⟨hkind, huser⟩ := a.principalFromToken_user howner hp
  have hcap : (Role.ofString tok.scopeRole) = .viewer := by
    rw [hscope]
    rfl
  have hrank := a.principalFromToken_rank_le (by rw [hcap]; rfl) hp
  rw [hcap] at hrank
  exact ⟨hkind, huser, hrank⟩

theorem Inv.mint (h : Inv s256 s) {x : Redemption} (hx : x ∈ s.redemptions) (now : Nat)
    (failed : Bool) : Inv s256 (oauthTokenMint s s256 x now failed) := by
  unfold oauthTokenMint
  simp only
  split_ifs with hclient hpkce
  · exact h.drop x
  · exact h.drop x
  · exact h.drop x
  obtain ⟨hclientID, hredirect⟩ := not_or.1 hclient
  obtain ⟨⟨c, hc, hfrom⟩, hcode, hin⟩ := h.pending x hx
  have hgrant : ∀ tok : ApiToken, tok.owner = .user x.row.userID → tok.scopeRole = "viewer" →
      ∃ c ∈ s.consents, Matches s256 ⟨x.form, x.redeemedAt, tok⟩ c ∧
        ActsForViewer tok c.userID := by
    intro tok howner hscope
    refine ⟨c, hc, ?_, hfrom.userID ▸ actsForViewer howner hscope⟩
    exact {
      code := hcode.trans hfrom.code
      clientID := (not_not.1 hclientID).symm.trans hfrom.clientID
      redirectURI := (not_not.1 hredirect).symm.trans hfrom.redirectURI
      verifier := (verifyPKCE_eq (by simpa using hpkce)).trans hfrom.codeChallenge
      inTime := hfrom.expiresAt ▸ hin }
  have hrest := h.drop x
  exact {
    tokens := by simp [h.tokens]
    sameCodes := h.sameCodes
    codes := h.codes
    rows := h.rows
    pending := hrest.pending
    pendingCodes := hrest.pendingCodes
    grantCodes := by
      refine List.nodup_cons.2 ⟨fun hin => ?_, h.grantCodes⟩
      obtain ⟨g, hg, heq⟩ := List.mem_map.1 hin
      exact h.apart x hx g hg heq.symm
    apart := by
      intro y hy g hg
      rcases List.mem_cons.1 hg with rfl | hold
      · -- two requests in progress have consumed different codes
        intro heq
        have hsame : y = x :=
          List.inj_on_of_nodup_map h.pendingCodes (List.mem_filter.1 hy).1 hx heq
        have hcall := (List.mem_filter.1 hy).2
        simp [hsame] at hcall
      · exact hrest.apart y hy g hold
    pendingConsumed := hrest.pendingConsumed
    grantConsumed := by
      intro g hg
      rcases List.mem_cons.1 hg with rfl | hold
      · exact h.pendingConsumed x hx
      · exact h.grantConsumed g hold
    granted := by
      intro g hg
      rcases List.mem_cons.1 hg with rfl | hold
      · exact hgrant _ rfl rfl
      · exact h.granted g hold }

theorem Inv.step (h : Inv s256 s) (act : Action) : Inv s256 (step s s256 act) := by
  cases act with
  | register clientName redirectURIs id => exact h.register clientName redirectURIs id
  | authorize form p => exact h
  | decide form p code now => exact h.decide form p code now
  | consume call form now => exact h.consume call form now
  | mint call now failed =>
    simp only [Oauth.step]
    split
    · exact h
    · next x hfind => exact h.mint (List.mem_of_find?_eq_some hfind) now failed

theorem Inv.run (h : Inv s256 s) (as : List Action) :
    Inv s256 (run (fun s => Oauth.step s s256) s as) := by
  induction as generalizing s with
  | nil => exact h
  | cons act as ih => exact ih (h.step act)

end Invariant

/-- **Authorization codes are single use and bound.**  After any interleaving of the statements
of any requests of any clients, whatever the S256 transform is. -/
theorem grantsSound (s256 : String → String) (as : List Action) :
    GrantsSound s256 (run (fun s => step s s256) {} as) := by
  have h : Inv s256 (run (fun s => step s s256) {} as) := inv_start.run as
  exact {
    tokens := h.tokens
    single := h.grantCodes
    consents := h.sameCodes ▸ h.codes
    granted := h.granted }

private def redeemForm : TokenForm where
  code := "code"
  codeVerifier := "v"
  clientID := "mcp_1"
  redirectURI := "https://c/cb"

/-- Two redemptions of one code overlap: the first to consume it gets the token. -/
example :
    (run (fun s => step s id) {}
      [.register "" ["https://c/cb"] "1",
        .decide { clientID := "mcp_1", redirectURI := "https://c/cb", codeChallenge := "v" }
          (some { kind := .user, userID := some 7, role := .editor }) "code" 60,
        .consume 1 redeemForm 70, .consume 2 redeemForm 70,
        .mint 2 71 false, .mint 1 72 false]).tokens.map ApiToken.owner = [.user 7] := by
  decide +kernel

end Sluicio.Api.Oauth
