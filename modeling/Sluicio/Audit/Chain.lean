import Sluicio.Catalog
import Sluicio.Lib.Encoding
import Sluicio.Lib.HashChain

/-!
# The audit log

One row for each recorded action, hash-chained for each organisation.  `record` and
`pruneOrg` are the two transactions that write; both hold the organisation's lock from
their first read to their commit, so each is one step.  `verifyRows` is the walk of
`Verify`, from the hash it was seeded with, over the rows it read.

Go's floats and PostgreSQL's numerics are parameters, and so is SHA-256.
-/

namespace Sluicio.Audit

open Lib

/-- A JSON value over a type of numbers; the members of an object are in the order of their
keys, in which a Go map is marshalled. -/
inductive Json (N : Type) where
  | null
  | bool (b : Bool)
  | number (n : N)
  | string (s : String)
  | array (values : List (Json N))
  | object (members : List (String × Json N))

/-- What the log relies on outside its own code. -/
structure Platform where
  /-- Go's `float64`, which every number of the metadata becomes. -/
  Float : Type
  /-- PostgreSQL's `numeric`, which JSONB keeps. -/
  Numeric : Type
  formatFloat : Float → List Char
  numeric : Float → Numeric
  /-- A number out of range does not unmarshal. -/
  parseFloat : Numeric → Option Float
  /-- The digest of a text, of which Go hashes the UTF-8 bytes. -/
  sha256 : List Char → List UInt8
  sha256_ne_nil : ∀ text, sha256 text ≠ []

namespace Json

variable {M N : Type}

mutual

def numbers : Json N → List N
  | null | bool _ | string _ => []
  | number n => [n]
  | array vs => valueNumbers vs
  | object ms => memberNumbers ms

def valueNumbers : List (Json N) → List N
  | [] => []
  | v :: vs => numbers v ++ valueNumbers vs

def memberNumbers : List (String × Json N) → List N
  | [] => []
  | (_, v) :: ms => numbers v ++ memberNumbers ms

end

mutual

def mapNumbers (f : M → N) : Json M → Json N
  | null => null
  | bool b => bool b
  | number n => number (f n)
  | string s => string s
  | array vs => array (mapValues f vs)
  | object ms => object (mapMembers f ms)

def mapValues (f : M → N) : List (Json M) → List (Json N)
  | [] => []
  | v :: vs => mapNumbers f v :: mapValues f vs

def mapMembers (f : M → N) : List (String × Json M) → List (String × Json N)
  | [] => []
  | (k, v) :: ms => (k, mapNumbers f v) :: mapMembers f ms

end

mutual

def readNumbers (f : N → Option M) : Json N → Option (Json M)
  | null => some null
  | bool b => some (bool b)
  | number n => (f n).map number
  | string s => some (string s)
  | array vs => (readValues f vs).map array
  | object ms => (readMembers f ms).map object

def readValues (f : N → Option M) : List (Json N) → Option (List (Json M))
  | [] => some []
  | v :: vs => (readNumbers f v).bind fun w => (readValues f vs).map (w :: ·)

def readMembers (f : N → Option M) : List (String × Json N) → Option (List (String × Json M))
  | [] => some []
  | (k, v) :: ms => (readNumbers f v).bind fun w => (readMembers f ms).map ((k, w) :: ·)

end

section RoundTrip

variable {f : N → Option M} {g : M → N}

mutual

theorem readNumbers_mapNumbers : ∀ v : Json M, (∀ x ∈ v.numbers, f (g x) = some x) →
    (v.mapNumbers g).readNumbers f = some v
  | null, _ => rfl
  | bool _, _ => rfl
  | string _, _ => rfl
  | number n, h => by
    have hn : f (g n) = some n := h n (by simp [numbers])
    rw [mapNumbers, readNumbers, hn]
    rfl
  | array vs, h => by
    rw [mapNumbers, readNumbers, readValues_mapValues vs h]
    rfl
  | object ms, h => by
    rw [mapNumbers, readNumbers, readMembers_mapMembers ms h]
    rfl

theorem readValues_mapValues : ∀ vs : List (Json M),
    (∀ x ∈ valueNumbers vs, f (g x) = some x) → readValues f (mapValues g vs) = some vs
  | [], _ => rfl
  | v :: vs, h => by
    have hv := readNumbers_mapNumbers v fun x hx => h x (List.mem_append_left _ hx)
    have hvs := readValues_mapValues vs fun x hx => h x (List.mem_append_right _ hx)
    rw [mapValues, readValues, hv, hvs]
    rfl

theorem readMembers_mapMembers : ∀ ms : List (String × Json M),
    (∀ x ∈ memberNumbers ms, f (g x) = some x) → readMembers f (mapMembers g ms) = some ms
  | [], _ => rfl
  | (k, v) :: ms, h => by
    have hv := readNumbers_mapNumbers v fun x hx => h x (List.mem_append_left _ hx)
    have hms := readMembers_mapMembers ms fun x hx => h x (List.mem_append_right _ hx)
    rw [mapMembers, readMembers, hv, hms]
    rfl

end

end RoundTrip

end Json

/-- How `encoding/json` writes a character of a string. -/
def escapeChar (c : Char) : List Char :=
  if c = '"' ∨ c = '\\' then ['\\', c]
  else if c = '\n' then ['\\', 'n']
  else if c = '\r' then ['\\', 'r']
  else if c = '\t' then ['\\', 't']
  else if c.toNat = 8 then ['\\', 'b']
  else if c.toNat = 12 then ['\\', 'f']
  else if c.toNat < 0x20 ∨ c ∈ ['<', '>', '&'] ∨ c.toNat = 0x2028 ∨ c.toNat = 0x2029 then
    let digits := Nat.toDigits 16 c.toNat
    '\\' :: 'u' :: (List.replicate (4 - digits.length) '0' ++ digits)
  else [c]

def quoted (s : String) : List Char :=
  '"' :: s.toList.flatMap escapeChar ++ ['"']

variable (p : Platform)

mutual

def marshal : Json p.Float → List Char
  | .null => "null".toList
  | .bool b => (if b then "true" else "false").toList
  | .number x => p.formatFloat x
  | .string s => quoted s
  | .array vs => '[' :: marshalValues vs ++ [']']
  | .object ms => '\x7b' :: marshalMembers ms ++ ['\x7d']

def marshalValues : List (Json p.Float) → List Char
  | [] => []
  | [v] => marshal v
  | v :: vs => marshal v ++ ',' :: marshalValues vs

def marshalMembers : List (String × Json p.Float) → List Char
  | [] => []
  | [(k, v)] => quoted k ++ ':' :: marshal v
  | (k, v) :: ms => quoted k ++ ':' :: marshal v ++ ',' :: marshalMembers ms

end

/-- The canonical JSON of an entry's metadata, given as the object it marshals to: no
members when there is no metadata or it does not marshal. -/
def canonicalMetadata (metadata : List (String × Json p.Float)) : List Char :=
  if metadata = [] then ['\x7b', '\x7d'] else marshal p (.object metadata)

/-- What `Verify` makes of a stored payload: anything that does not unmarshal into a map
with members counts as the empty object. -/
def canonicalPayload (payload : Json p.Numeric) : List Char :=
  match payload.readNumbers p.parseFloat with
  | some (.object ms) => canonicalMetadata p ms
  | _ => ['\x7b', '\x7d']

def storedPayload (metadata : List (String × Json p.Float)) : Json p.Numeric :=
  (Json.object metadata).mapNumbers p.numeric

/-- Every number of the metadata comes back out of JSONB as the float it was.  A negative
zero does not: `numeric` has one zero only. -/
def SurvivesJSONB (metadata : List (String × Json p.Float)) : Prop :=
  ∀ x ∈ Json.memberNumbers metadata, p.parseFloat (p.numeric x) = some x

theorem canonicalPayload_storedPayload {metadata : List (String × Json p.Float)}
    (h : SurvivesJSONB p metadata) :
    canonicalPayload p (storedPayload p metadata) = canonicalMetadata p metadata := by
  have hread : (storedPayload p metadata).readNumbers p.parseFloat = some (.object metadata) :=
    Json.readNumbers_mapNumbers (.object metadata) h
  rw [canonicalPayload, hread]

/-! ## Entries and rows -/

/-- An action to record, as `Record` is given it. -/
structure Entry where
  orgID : UUID
  actorUserID : Option UUID
  actorName : String
  actorEmail : String
  action : String
  targetType : String
  targetID : String
  metadata : List (String × Json p.Float)
  ip : String

/-- A row of `audit_log`; `occurredAt` in microseconds since 1970. -/
structure Row where
  id : Nat
  organizationID : UUID
  actorUserID : Option UUID
  actorName : String
  actorEmail : String
  action : String
  resourceType : String
  resourceID : String
  payload : Json p.Numeric
  ip : String
  occurredAt : Int
  entryHash : String
  prevHash : String

def unitSeparator : Char := Char.ofNat 0x1f

/-- `uuid.String`. -/
def uuidText (id : UUID) : List Char := groupedHex id

/-- The actor of an entry, blank when there is none. -/
def actorText : Option UUID → List Char
  | none => []
  | some id => uuidText id

/-- What is hashed of an entry, with the hash before it. -/
structure Content where
  prev : String
  orgID : UUID
  actorUserID : Option UUID
  actorName : String
  actorEmail : String
  action : String
  targetType : String
  targetID : String
  payloadJSON : List Char
  ip : String
  occurredAt : Int

/-- The parts that are hashed, each followed by a unit separator. -/
def Content.parts (c : Content) : List (List Char) :=
  [c.prev.toList, uuidText c.orgID, actorText c.actorUserID, c.actorName.toList,
    c.actorEmail.toList, c.action.toList, c.targetType.toList, c.targetID.toList,
    c.payloadJSON, c.ip.toList, rfc3339Nano c.occurredAt]

def Content.encoded (c : Content) : List Char :=
  terminated unitSeparator c.parts

def chainHash (c : Content) : String :=
  String.ofList (hexBytes (p.sha256 c.encoded))

theorem chainHash_ne_empty (c : Content) : chainHash p c ≠ "" := by
  intro h
  have hchars : hexBytes (p.sha256 c.encoded) = [] := by
    have htext := congrArg String.toList h
    simpa [chainHash] using htext
  exact p.sha256_ne_nil _ (hexBytes_eq_nil.mp hchars)

/-- What `Record` hashes. -/
def Entry.content (e : Entry p) (prev : String) (occurredAt : Int) : Content where
  prev := prev
  orgID := e.orgID
  actorUserID := e.actorUserID
  actorName := e.actorName
  actorEmail := e.actorEmail
  action := e.action
  targetType := e.targetType
  targetID := e.targetID
  payloadJSON := canonicalMetadata p e.metadata
  ip := e.ip
  occurredAt := occurredAt

/-- What `Verify` hashes, for the organisation it walks. -/
def Row.content (r : Row p) (orgID : UUID) : Content where
  prev := r.prevHash
  orgID := orgID
  actorUserID := r.actorUserID
  actorName := r.actorName
  actorEmail := r.actorEmail
  action := r.action
  targetType := r.resourceType
  targetID := r.resourceID
  payloadJSON := canonicalPayload p r.payload
  ip := r.ip
  occurredAt := r.occurredAt

/-- The row that `Record` inserts behind the hash `prev`. -/
def Entry.row (e : Entry p) (id : Nat) (prev : String) (occurredAt : Int) : Row p where
  id := id
  organizationID := e.orgID
  actorUserID := e.actorUserID
  actorName := e.actorName
  actorEmail := e.actorEmail
  action := e.action
  resourceType := e.targetType
  resourceID := e.targetID
  payload := storedPayload p e.metadata
  ip := e.ip
  occurredAt := occurredAt
  entryHash := chainHash p (e.content p prev occurredAt)
  prevHash := prev

/-! ## Verify -/

structure VerifyResult where
  ok : Bool
  checked : Nat
  legacyUnhashed : Nat
  firstBrokenID : Nat
  detail : String
  deriving DecidableEq

def VerifyResult.intact : VerifyResult := ⟨true, 0, 0, 0, ""⟩

/-- The walk of `Verify` over the rows, from the hash `prev`. -/
def verifyRows (orgID : UUID) : String → VerifyResult → List (Row p) → VerifyResult
  | _, res, [] => res
  | prev, res, r :: rows =>
    if r.entryHash = "" then
      verifyRows orgID "" { res with legacyUnhashed := res.legacyUnhashed + 1 } rows
    else if r.prevHash ≠ prev then
      { res with ok := false, firstBrokenID := r.id, detail := "chain link mismatch" }
    else if chainHash p (r.content p orgID) ≠ r.entryHash then
      { res with ok := false, firstBrokenID := r.id, detail := "content hash mismatch" }
    else
      verifyRows orgID r.entryHash { res with checked := res.checked + 1 } rows

def chain (orgID : UUID) : HashChain (Row p) String where
  hash r := r.entryHash
  prev r := r.prevHash
  digest prev r := chainHash p (({ r with prevHash := prev } : Row p).content p orgID)
  blank := ""

/-- `Verify` finds no break exactly when the rows are linked from the seed. -/
theorem verifyRows_ok (orgID : UUID) (prev : String) (res : VerifyResult) (rows : List (Row p)) :
    (verifyRows p orgID prev res rows).ok = true ↔
      res.ok = true ∧ (chain p orgID).Linked prev rows := by
  induction rows generalizing prev res with
  | nil => simp [verifyRows]
  | cons r rows ih =>
    have hlink : (chain p orgID).LinksTo prev r ↔
        r.entryHash = "" ∨ r.prevHash = prev ∧ chainHash p (r.content p orgID) = r.entryHash :=
      Iff.rfl
    have hhash : (chain p orgID).hash r = r.entryHash := rfl
    rw [HashChain.linked_cons, hlink, hhash, verifyRows]
    by_cases hlegacy : r.entryHash = ""
    · rw [if_pos hlegacy, ih, hlegacy]
      simp
    rw [if_neg hlegacy]
    by_cases hprev : r.prevHash = prev
    · rw [if_neg (not_not.mpr hprev)]
      by_cases hwant : chainHash p (r.content p orgID) = r.entryHash
      · rw [if_neg (not_not.mpr hwant), ih]
        simp [hprev, hwant]
      · rw [if_pos hwant]
        simp [hlegacy, hwant]
    · rw [if_pos hprev]
      simp [hlegacy, hprev]

/-! ## The tables -/

/-- A row of `audit_chain_anchor`. -/
structure Anchor where
  lastID : Nat
  lastHash : String

/-- `audit_log`, its rows in the order of their ids, and `audit_chain_anchor` by its key. -/
structure Tables where
  auditLog : List (Row p)
  anchor : UUID → Option Anchor
  nextID : Nat

namespace Tables

variable {p} (t : Tables p)

/-- The rows of an organisation, oldest id first. -/
def orgRows (org : UUID) : List (Row p) :=
  t.auditLog.filter (·.organizationID = org)

/-- The hash that a walk over the organisation's rows starts from. -/
def seed (org : UUID) : String :=
  ((t.anchor org).map Anchor.lastHash).getD ""

/-- `Record`, behind the organisation's lock: the predecessor is the newest row, else the
anchor, else nothing. -/
def record (e : Entry p) (occurredAt : Int) : Tables p :=
  let prev := match (t.orgRows e.orgID).getLast? with
    | some newest => newest.entryHash
    | none => t.seed e.orgID
  { t with
    auditLog := t.auditLog ++ [e.row p t.nextID prev occurredAt]
    nextID := t.nextID + 1 }

/-- `pruneOrg`, behind the organisation's lock: the newest row to go becomes the anchor. -/
def pruneOrg (org : UUID) (cutoff : Int) : Tables p :=
  match ((t.orgRows org).filter (·.occurredAt < cutoff)).getLast? with
  | none => t
  | some newest =>
    { t with
      auditLog := t.auditLog.filter fun r => ¬ (r.organizationID = org ∧ r.occurredAt < cutoff)
      anchor := fun o => if o = org then some ⟨newest.id, newest.entryHash⟩ else t.anchor o }

/-! ### What a recorded entry changes -/

@[simp] theorem record_seed (e : Entry p) (occurredAt : Int) (org : UUID) :
    (t.record e occurredAt).seed org = t.seed org := rfl

theorem record_orgRows_of_ne (e : Entry p) (occurredAt : Int) {org : UUID}
    (h : e.orgID ≠ org) : (t.record e occurredAt).orgRows org = t.orgRows org := by
  simp [record, orgRows, Entry.row, h]

theorem record_orgRows (e : Entry p) (occurredAt : Int) :
    (t.record e occurredAt).orgRows e.orgID = t.orgRows e.orgID ++
      [e.row p t.nextID ((chain p e.orgID).tip (t.seed e.orgID) (t.orgRows e.orgID))
        occurredAt] := by
  have hprev : (match (t.orgRows e.orgID).getLast? with
      | some newest => newest.entryHash
      | none => t.seed e.orgID) =
        (chain p e.orgID).tip (t.seed e.orgID) (t.orgRows e.orgID) := by
    rw [HashChain.tip_eq_getLast?]
    cases (t.orgRows e.orgID).getLast? <;> rfl
  rw [← hprev]
  simp [record, orgRows, Entry.row]

/-! ### What pruning changes -/

theorem pruneOrg_orgRows (org : UUID) (cutoff : Int) (o : UUID) :
    (t.pruneOrg org cutoff).orgRows o =
      if o = org then (t.orgRows o).filter (¬ ·.occurredAt < cutoff) else t.orgRows o := by
  unfold pruneOrg
  split
  next hnone =>
    have hkeep : (t.orgRows org).filter (¬ ·.occurredAt < cutoff) = t.orgRows org := by
      have hempty := List.getLast?_eq_none_iff.mp hnone
      rw [List.filter_eq_nil_iff] at hempty
      rw [List.filter_eq_self]
      simpa using hempty
    by_cases ho : o = org
    · rw [if_pos ho, ho, hkeep]
    · rw [if_neg ho]
  next newest hnewest =>
    unfold orgRows
    by_cases ho : o = org
    · rw [if_pos ho, ho, List.filter_filter, List.filter_filter]
      apply List.filter_congr
      intro r _
      by_cases hr : r.organizationID = org <;> simp [hr]
    rw [if_neg ho, List.filter_filter]
    apply List.filter_congr
    intro r _
    by_cases hr : r.organizationID = o
    · simp [hr, ho]
    · simp [hr]

theorem pruneOrg_seed_of_ne (org : UUID) (cutoff : Int) {o : UUID} (h : o ≠ org) :
    (t.pruneOrg org cutoff).seed o = t.seed o := by
  unfold pruneOrg
  split
  · rfl
  · simp [seed, h]

theorem pruneOrg_seed (org : UUID) (cutoff : Int) :
    (t.pruneOrg org cutoff).seed org =
      (chain p org).tip (t.seed org) ((t.orgRows org).filter (·.occurredAt < cutoff)) := by
  rw [HashChain.tip_eq_getLast?]
  unfold pruneOrg
  split
  next hnone => rw [hnone]; rfl
  next newest hnewest => rw [hnewest]; simp [seed, chain]

end Tables

end Sluicio.Audit
