import Sluicio.Identity.Roles
import Sluicio.Lib.Encoding
import Sluicio.Lib.Run

/-!
# API tokens

A token is a kind and sixteen random bytes.  The table keeps its first twelve characters and
its hash; a request is looked up by the first and checked against the second.  The index on
the first is not a unique one, and a single row is read.

Texts are lists of bytes, and the rows stand in the order in which the database reads them.
-/

namespace Sluicio.Identity

open Lib

/-- The bytes of a text of one-byte characters. -/
def ascii (text : String) : List UInt8 :=
  text.toList.map fun c => UInt8.ofNat c.toNat

def tokenKindPersonal : List UInt8 := ascii "con_pat_"

def tokenKindServiceAccount : List UInt8 := ascii "con_sa_"

def tokenSecretBytes : Nat := 16

def prefixLen : Nat := 12

inductive TokenError where
  | invalidKind
  | noRandomBytes
  | badOwnerType
  | notFound
  | invalidCredentials
  deriving DecidableEq

/-- What `randomBytes(tokenSecretBytes)` draws. -/
structure TokenSecret where
  bytes : List UInt8
  length_bytes : bytes.length = tokenSecretBytes

structure MintedToken where
  plaintext : List UInt8
  tokenPrefix : List UInt8
  hash : List Char

def prefixOf (token : List UInt8) : List UInt8 :=
  if token.length < prefixLen then token else token.take prefixLen

section

variable (sha256 : List UInt8 → List UInt8)

def hashToken (plaintext : List UInt8) : List Char :=
  hexBytes (sha256 plaintext)

def verifyTokenHash (plaintext : List UInt8) (storedHex : List Char) : Bool :=
  hashToken sha256 plaintext = storedHex

/-- `NewToken`; the secret is `none` when no random bytes are to be had. -/
def newToken (kind : List UInt8) (secret : Option TokenSecret) : Except TokenError MintedToken :=
  if kind ≠ tokenKindPersonal ∧ kind ≠ tokenKindServiceAccount then .error .invalidKind
  else
    match secret with
    | none => .error .noRandomBytes
    | some secret =>
      let plaintext := kind ++ base64Url secret.bytes
      .ok
        { plaintext
          tokenPrefix := plaintext.take prefixLen
          hash := hashToken sha256 plaintext }

end

/-! ## The table -/

/-- A row of `api_tokens`. -/
structure StoredToken where
  id : UUID
  ownerType : String
  ownerID : UUID
  name : String
  tokenPrefix : List UInt8
  tokenHash : List Char
  scopeRole : String
  lastUsedAt : Option Nat
  revokedAt : Option Nat
  expiresAt : Option Nat

/-- Neither revoked nor expired. -/
def StoredToken.Live (r : StoredToken) (now : Nat) : Prop :=
  r.revokedAt = none ∧ ∀ e ∈ r.expiresAt, now < e

instance (r : StoredToken) (now : Nat) : Decidable (r.Live now) := by
  unfold StoredToken.Live
  infer_instance

structure TokenLookup where
  id : UUID
  ownerType : String
  ownerID : UUID
  scopeRole : String
  deriving DecidableEq

/-- The columns that `ResolveAPIToken` scans. -/
def StoredToken.lookup (r : StoredToken) : TokenLookup where
  id := r.id
  ownerType := r.ownerType
  ownerID := r.ownerID
  scopeRole := r.scopeRole

/-- What a caller asks `CreateAPIToken` to store beside the token. -/
structure TokenRequest where
  ownerType : String
  ownerID : UUID
  name : String
  scopeRole : String
  expiresAt : Option Nat

def TokenRequest.row (req : TokenRequest) (tok : MintedToken) (id : UUID) : StoredToken where
  id := id
  ownerType := req.ownerType
  ownerID := req.ownerID
  name := req.name
  tokenPrefix := tok.tokenPrefix
  tokenHash := tok.hash
  scopeRole := req.scopeRole
  lastUsedAt := none
  revokedAt := none
  expiresAt := req.expiresAt

/-- The update of `last_used_at`. -/
def touchToken (rows : List StoredToken) (id : UUID) (now : Nat) : List StoredToken :=
  rows.map fun r => if r.id = id then { r with lastUsedAt := some now } else r

/-- `ResolveAPIToken`: one row of those with the prefix, and its hash. -/
def resolveAPIToken (sha256 : List UInt8 → List UInt8) (rows : List StoredToken) (now : Nat)
    (plaintext : List UInt8) : Except TokenError TokenLookup × List StoredToken :=
  match rows.find? fun r => r.tokenPrefix = prefixOf plaintext && r.Live now with
  | none => (.error .invalidCredentials, rows)
  | some r =>
    if verifyTokenHash sha256 plaintext r.tokenHash then
      (.ok r.lookup, touchToken rows r.id now)
    else (.error .invalidCredentials, rows)

variable {sha256 : List UInt8 → List UInt8} {secret : Option TokenSecret} {tok : MintedToken}
  {kind plaintext : List UInt8}

/-- What `NewToken` mints has the kind before the digits of the secret. -/
theorem newToken_eq_ok (h : newToken sha256 kind secret = .ok tok) :
    (kind = tokenKindPersonal ∨ kind = tokenKindServiceAccount) ∧
      ∃ s, secret = some s ∧ tok.plaintext = kind ++ base64Url s.bytes ∧
        tok.tokenPrefix = tok.plaintext.take prefixLen ∧
        tok.hash = hashToken sha256 tok.plaintext := by
  unfold newToken at h
  split at h
  · cases h
  rename_i hkind
  cases secret with
  | none => cases h
  | some s =>
    cases h
    refine ⟨by tauto, s, rfl, rfl, rfl, rfl⟩

theorem prefixOf_minted (h : newToken sha256 kind secret = .ok tok) :
    tok.tokenPrefix = prefixOf tok.plaintext := by
  obtain ⟨hkind, s, -, hplain, hshown, -⟩ := newToken_eq_ok h
  have hlen : prefixLen ≤ tok.plaintext.length := by
    have hsecret := s.length_bytes
    rw [hplain, List.length_append, length_base64Url, hsecret]
    rcases hkind with rfl | rfl
    · decide
    · decide
  rw [hshown, prefixOf, if_neg (by omega)]

/-- A row and the token it was made for, which the table does not hold. -/
structure IssuedToken (sha256 : List UInt8 → List UInt8) where
  token : MintedToken
  row : StoredToken
  minted : ∃ kind secret, newToken sha256 kind secret = .ok token
  tokenPrefix_row : row.tokenPrefix = token.tokenPrefix
  tokenHash_row : row.tokenHash = token.hash

namespace IssuedToken

theorem row_tokenPrefix (t : IssuedToken sha256) :
    t.row.tokenPrefix = prefixOf t.token.plaintext := by
  obtain ⟨kind, secret, hmint⟩ := t.minted
  rw [t.tokenPrefix_row, prefixOf_minted hmint]

theorem verify_row (hsha : Function.Injective sha256) (t : IssuedToken sha256)
    (plaintext : List UInt8) :
    verifyTokenHash sha256 plaintext t.row.tokenHash ↔ plaintext = t.token.plaintext := by
  obtain ⟨kind, secret, hmint⟩ := t.minted
  obtain ⟨-, -, -, -, -, hhash⟩ := newToken_eq_ok hmint
  rw [verifyTokenHash, t.tokenHash_row, hhash, decide_eq_true_eq]
  constructor
  · intro h
    exact hsha (hexBytes_injective h)
  · intro h
    rw [h]

end IssuedToken

/-! ## Authentication -/

/-- A live token resolves to its own row, and every other text to an error. -/
structure Authenticates (issued : List (IssuedToken sha256)) (now : Nat) : Prop where
  accepted : ∀ t ∈ issued, t.row.Live now →
    (resolveAPIToken sha256 (issued.map IssuedToken.row) now t.token.plaintext).1 = .ok t.row.lookup
  refused : ∀ plaintext,
    (∀ t ∈ issued, t.row.Live now → t.token.plaintext ≠ plaintext) →
      (resolveAPIToken sha256 (issued.map IssuedToken.row) now plaintext).1 =
        .error .invalidCredentials

def readToken (issued : List (IssuedToken sha256)) (now : Nat) (plaintext : List UInt8) :
    Option (IssuedToken sha256) :=
  issued.find? fun t => prefixOf t.token.plaintext = prefixOf plaintext && t.row.Live now

theorem resolveAPIToken_issued (hsha : Function.Injective sha256)
    (issued : List (IssuedToken sha256)) (now : Nat) (plaintext : List UInt8) :
    (resolveAPIToken sha256 (issued.map IssuedToken.row) now plaintext).1 =
      match readToken issued now plaintext with
      | none => .error .invalidCredentials
      | some t => if plaintext = t.token.plaintext then .ok t.row.lookup
          else .error .invalidCredentials := by
  have hfind : (issued.map IssuedToken.row).find? (fun r =>
      r.tokenPrefix = prefixOf plaintext && r.Live now) =
        (readToken issued now plaintext).map IssuedToken.row := by
    rw [List.find?_map, readToken]
    apply congrArg (Option.map IssuedToken.row)
    apply congrArg (fun p => issued.find? p)
    funext t
    simp only [Function.comp_apply, t.row_tokenPrefix]
  rw [resolveAPIToken, hfind]
  cases hread : readToken issued now plaintext with
  | none => rfl
  | some t =>
    simp only [Option.map_some, t.verify_row hsha]
    split <;> rfl

variable {now : Nat} {issued : List (IssuedToken sha256)}

theorem readToken_eq_some {t : IssuedToken sha256} (h : readToken issued now plaintext = some t) :
    t ∈ issued ∧ t.row.Live now ∧ prefixOf t.token.plaintext = prefixOf plaintext := by
  have hmatch := List.find?_some h
  simp only [Bool.and_eq_true, decide_eq_true_eq] at hmatch
  exact ⟨List.mem_of_find?_eq_some h, hmatch.2, hmatch.1⟩

theorem resolveAPIToken_refused (hsha : Function.Injective sha256)
    (h : ∀ t ∈ issued, t.row.Live now → t.token.plaintext ≠ plaintext) :
    (resolveAPIToken sha256 (issued.map IssuedToken.row) now plaintext).1 =
      .error .invalidCredentials := by
  rw [resolveAPIToken_issued hsha]
  cases hread : readToken issued now plaintext with
  | none => rfl
  | some t =>
    obtain ⟨hmem, hlive, -⟩ := readToken_eq_some hread
    exact if_neg fun heq => h t hmem hlive heq.symm

theorem resolveAPIToken_accepted (hsha : Function.Injective sha256) {t : IssuedToken sha256}
    (ht : t ∈ issued) (hlive : t.row.Live now) (halone : ∀ u ∈ issued, u.row.Live now →
      prefixOf u.token.plaintext = prefixOf t.token.plaintext → u = t) :
    (resolveAPIToken sha256 (issued.map IssuedToken.row) now t.token.plaintext).1 =
      .ok t.row.lookup := by
  rw [resolveAPIToken_issued hsha]
  cases hread : readToken issued now t.token.plaintext with
  | none =>
    have hnone := List.find?_eq_none.mp hread t ht
    simp [hlive] at hnone
  | some u =>
    obtain ⟨hmem, hliveu, hshown⟩ := readToken_eq_some hread
    rw [halone u hmem hliveu hshown]
    exact if_pos rfl

/-- **Every live token authenticates, and nothing else does, exactly when no two live tokens
begin with the same twelve characters.** -/
theorem authenticates_iff (hsha : Function.Injective sha256) (issued : List (IssuedToken sha256))
    (now : Nat) (hapart : issued.Pairwise fun t u => t.token.plaintext ≠ u.token.plaintext) :
    Authenticates issued now ↔
      (issued.filter fun t => t.row.Live now).Pairwise fun t u =>
        prefixOf t.token.plaintext ≠ prefixOf u.token.plaintext := by
  constructor
  · intro h
    apply (hapart.filter _).imp_of_mem
    intro t u ht hu hne hshown
    simp only [List.mem_filter, decide_eq_true_eq] at ht hu
    -- the one row that is read for both is the row of only one
    have hreadt := h.accepted t ht.1 ht.2
    have hreadu := h.accepted u hu.1 hu.2
    have hsame : readToken issued now t.token.plaintext =
        readToken issued now u.token.plaintext := by
      rw [readToken, hshown, readToken]
    rw [resolveAPIToken_issued hsha] at hreadt hreadu
    rw [← hsame] at hreadu
    cases hread : readToken issued now t.token.plaintext with
    | none =>
      rw [hread] at hreadt
      cases hreadt
    | some r =>
      simp only [hread] at hreadt hreadu
      split at hreadt
      · split at hreadu
        · exact hne (by simp_all)
        · cases hreadu
      · cases hreadt
  · intro h
    constructor
    · intro t ht hlive
      apply resolveAPIToken_accepted hsha ht hlive
      intro u hu hliveu hshown
      by_contra hne
      have : Std.Symm fun t u : IssuedToken sha256 =>
          prefixOf t.token.plaintext ≠ prefixOf u.token.plaintext := ⟨fun _ _ hxy => hxy.symm⟩
      have hmem : ∀ v ∈ issued, v.row.Live now → v ∈ issued.filter fun t => t.row.Live now := by
        intro v hv hlivev
        simp [hv, hlivev]
      exact h.forall (hmem u hu hliveu) (hmem t ht hlive) hne hshown
    · intro plaintext hnone
      exact resolveAPIToken_refused hsha hnone

private def secretWith (last : UInt8) : TokenSecret where
  bytes := [1, 2, 3] ++ List.replicate 12 0 ++ [last]
  length_bytes := rfl

private def mintedWith (last : UInt8) : MintedToken where
  plaintext := tokenKindPersonal ++ base64Url (secretWith last).bytes
  tokenPrefix := (tokenKindPersonal ++ base64Url (secretWith last).bytes).take prefixLen
  hash := hashToken id (tokenKindPersonal ++ base64Url (secretWith last).bytes)

private def personalRequest : TokenRequest where
  ownerType := "user"
  ownerID := 7
  name := "laptop"
  scopeRole := ""
  expiresAt := none

private def issuedWith (last : UInt8) (uid : UUID) : IssuedToken id where
  token := mintedWith last
  row := personalRequest.row (mintedWith last) uid
  minted := ⟨tokenKindPersonal, some (secretWith last), rfl⟩
  tokenPrefix_row := rfl
  tokenHash_row := rfl

theorem authenticates_iff_two :
    Authenticates [issuedWith 1 1, issuedWith 2 2] 0 ↔
      ([issuedWith 1 1, issuedWith 2 2].filter fun t => t.row.Live 0).Pairwise fun t u =>
        prefixOf t.token.plaintext ≠ prefixOf u.token.plaintext :=
  authenticates_iff (fun _ _ h => h) [issuedWith 1 1, issuedWith 2 2] 0 (by decide)

/-- Two personal tokens with the same first three random bytes: the second never resolves. -/
theorem shared_start_refused :
    (issuedWith 1 1).token.plaintext ≠ (issuedWith 2 2).token.plaintext ∧
      (issuedWith 2 2).row.Live 0 ∧
      ¬Authenticates [issuedWith 1 1, issuedWith 2 2] 0 := by
  refine ⟨by decide, by decide, ?_⟩
  intro h
  have hsecond := h.accepted (issuedWith 2 2) (by simp) (by decide)
  revert hsecond
  decide

end Sluicio.Identity
