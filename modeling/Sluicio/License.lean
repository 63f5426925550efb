import Sluicio.Lib.Run
import Sluicio.Tracecompletion.Normalize

/-!
# The license in force

A license is a signed token in a variable or in a file that is read again on every tick of a
ticker.  The token in force decides which features may run.  A renewed token takes effect
without a restart, and what goes wrong with a delivery never takes away the license that is
there.
-/

namespace Sluicio.License

open Lib
open Tracecompletion (trimSpace trimSpace_trimSpace)

abbrev Bytes := List UInt8

structure Claims where
  entitlements : List String
  maxIntegrations : Int
  notBefore : Int
  expiresAt : Int

/-- base64url, Ed25519 with the embedded public key, and JSON. -/
structure Codec where
  decode : List Char → Option Bytes
  signed : Bytes → Bytes → Bool
  unmarshal : Bytes → Option Claims

inductive VerifyError where
  | notToken
  | malformed
  | payloadEncoding
  | signatureEncoding
  | signature
  | payloadJSON

/-- `sluicio_lic_<payload>.<signature>`. -/
def verify (c : Codec) (token : String) : Except VerifyError Claims :=
  let token := (trimSpace token).toList
  let tag := "sluicio_lic_".toList
  if ¬ tag <+: token then .error .notToken
  else
    match (token.drop tag.length).span (· ≠ '.') with
    | (_, []) => .error .malformed
    | (head, _ :: tail) =>
      match c.decode head with
      | none => .error .payloadEncoding
      | some payload =>
        match c.decode tail with
        | none => .error .signatureEncoding
        | some sig =>
          if c.signed payload sig = false then .error .signature
          else
            match c.unmarshal payload with
            | none => .error .payloadJSON
            | some claims => .ok claims

/-- `Manager`; `file` says whether the license came from a file, whose text was last
`lastToken`. -/
structure Manager where
  claims : Option Claims := none
  file : Bool := false
  lastToken : String := ""

open Manager

def Manager.load (c : Codec) (m : Manager) (token : String) : Except VerifyError Manager :=
  (verify c token).map fun claims => { m with claims := some claims }

/-- `LoadFromEnv`, on the two variables and on what the file holds, if it can be read. -/
def Manager.loadFromEnv (c : Codec) (key path : String) (start : Option String) : Manager :=
  if trimSpace key ≠ "" then ((({} : Manager).load c (trimSpace key)).toOption).getD {}
  else if trimSpace path = "" then {}
  else
    match start with
    | none => { file := true }
    | some b =>
      match ({ file := true } : Manager).load c b with
      | .error _ => { file := true }
      | .ok m => { m with lastToken := trimSpace b }

inductive ReloadError where
  | read
  | empty
  | rejected (e : VerifyError)

/-- One tick: the manager after it, and whether the license changed. -/
def Manager.reloadFromFile (c : Codec) (m : Manager) (read : Option String) :
    Manager × Except ReloadError Bool :=
  if m.file = false then (m, .ok false)
  else
    match read with
    | none => (m, .error .read)
    | some b =>
      let tok := trimSpace b
      if tok = "" then (m, .error .empty)
      else if tok = m.lastToken then (m, .ok false)
      else
        match m.load c tok with
        | .error e => (m, .error (.rejected e))
        | .ok m => ({ m with lastToken := tok }, .ok true)

def second : Int := 1000000000

def graceWindow : Int := 14 * 24 * 3600 * second

/-- The license may be used at `now`, in nanoseconds. -/
def Claims.InForce (claims : Claims) (now : Int) : Prop :=
  (claims.notBefore ≠ 0 → claims.notBefore * second ≤ now) ∧
    (claims.expiresAt ≠ 0 → now ≤ claims.expiresAt * second + graceWindow)

instance (claims : Claims) (now : Int) : Decidable (claims.InForce now) :=
  inferInstanceAs (Decidable (_ ∧ _))

/-- What `Entitled` and `MaxIntegrations` ask first. -/
def Manager.inForce (m : Manager) (now : Int) : Option Claims :=
  match m.claims with
  | none => none
  | some claims =>
    if claims.notBefore ≠ 0 ∧ now < claims.notBefore * second then none
    else if claims.expiresAt ≠ 0 ∧ now > claims.expiresAt * second + graceWindow then none
    else some claims

def Manager.entitled (m : Manager) (now : Int) (f : String) : Bool :=
  (m.inForce now).elim false fun claims => claims.entitlements.contains f

/-- 0 is no limit. -/
def Manager.maxIntegrations (m : Manager) (now : Int) : Int :=
  (m.inForce now).elim 0 Claims.maxIntegrations

/-! ## Ticks -/

variable {c : Codec} {m : Manager}

theorem verify_trimSpace (b : String) : verify c (trimSpace b) = verify c b := by
  unfold verify
  rw [trimSpace_trimSpace]

theorem verify_empty : verify c "" = .error .notToken := rfl

/-- The claims of a text, when it is a license. -/
def read? (c : Codec) (read : Option String) : Option Claims :=
  read.bind fun b => (verify c b).toOption

/-- The last text that was loaded is the license in force. -/
def Manager.Current (c : Codec) (m : Manager) : Prop :=
  m.lastToken ≠ "" → verify c m.lastToken = m.claims.elim (.error .notToken) .ok

/-- **A tick** puts in force the license that the file holds, and keeps the one before when it
holds none. -/
theorem reloadFromFile_spec (h : m.Current c) (hfile : m.file) (read : Option String) :
    (m.reloadFromFile c read).1.Current c ∧ (m.reloadFromFile c read).1.file ∧
      (m.reloadFromFile c read).1.claims = (read? c read).or m.claims := by
  unfold reloadFromFile
  rw [if_neg (by simp [hfile])]
  cases read with
  | none => exact ⟨h, hfile, rfl⟩
  | some b =>
    have hread : read? c (some b) = (verify c (trimSpace b)).toOption := by
      rw [verify_trimSpace]
      rfl
    rw [hread]
    dsimp only
    by_cases hempty : trimSpace b = ""
    · rw [if_pos hempty, hempty, verify_empty]
      exact ⟨h, hfile, rfl⟩
    rw [if_neg hempty]
    by_cases hsame : trimSpace b = m.lastToken
    · rw [if_pos hsame, hsame, h (hsame ▸ hempty)]
      refine ⟨h, hfile, ?_⟩
      cases m.claims <;> rfl
    rw [if_neg hsame, Manager.load]
    cases hverify : verify c (trimSpace b) with
    | error e => exact ⟨h, hfile, rfl⟩
    | ok claims => exact ⟨fun _ => hverify, hfile, rfl⟩

/-- The license of the last text that was one. -/
def lastLicense (c : Codec) (reads : List (Option String)) : Option Claims :=
  reads.reverse.findSome? (read? c)

/-- What was delivered: the variable, or the file at the start and at each tick. -/
def delivered (key path : String) (start : Option String) (ticks : List (Option String)) :
    List (Option String) :=
  if trimSpace key ≠ "" then [some key]
  else if trimSpace path = "" then []
  else start :: ticks

theorem lastLicense_singleton (b : String) : lastLicense c [some b] = (verify c b).toOption := by
  simp [lastLicense, read?]

section Start

variable {key path : String}

theorem loadFromEnv_key (c : Codec) (path : String) (hkey : trimSpace key ≠ "")
    (start : Option String) :
    (loadFromEnv c key path start).file = false ∧
      (loadFromEnv c key path start).claims = lastLicense c [some key] := by
  unfold loadFromEnv
  rw [if_pos hkey, Manager.load, verify_trimSpace, lastLicense_singleton]
  cases verify c key <;> exact ⟨rfl, rfl⟩

theorem loadFromEnv_file (c : Codec) (hkey : ¬ trimSpace key ≠ "")
    (hpath : trimSpace path ≠ "") (start : Option String) :
    (loadFromEnv c key path start).Current c ∧
      (loadFromEnv c key path start).file ∧
      (loadFromEnv c key path start).claims = lastLicense c [start] := by
  unfold loadFromEnv
  rw [if_neg hkey, if_neg hpath]
  cases start with
  | none => exact ⟨fun h => absurd rfl h, rfl, rfl⟩
  | some b =>
    rw [lastLicense_singleton]
    simp only [Manager.load]
    cases hverify : verify c b with
    | error e => exact ⟨fun h => absurd rfl h, rfl, rfl⟩
    | ok claims => exact ⟨fun _ => (verify_trimSpace b).trans hverify, rfl, rfl⟩

end Start

/-- The watcher of the file, as long as it runs. -/
def watch (c : Codec) (m : Manager) (ticks : List (Option String)) : Manager :=
  run (fun m read => (m.reloadFromFile c read).1) m ticks

theorem watch_file (hcurrent : m.Current c) (hfile : m.file) {reads : List (Option String)}
    (hclaims : m.claims = lastLicense c reads) (ticks : List (Option String)) :
    (watch c m ticks).claims = lastLicense c (reads ++ ticks) := by
  induction ticks generalizing m reads with
  | nil =>
    rw [List.append_nil]
    exact hclaims
  | cons read ticks ih =>
    obtain ⟨hcurrent', hfile', hclaims'⟩ := reloadFromFile_spec hcurrent hfile read
    have hnext : (m.reloadFromFile c read).1.claims = lastLicense c (reads ++ [read]) := by
      rw [hclaims', hclaims]
      unfold lastLicense
      rw [List.reverse_concat, List.findSome?_cons]
      cases read? c read <;> rfl
    have htail := ih hcurrent' hfile' hnext
    rwa [List.append_assoc] at htail

theorem watch_of_not_file (hfile : m.file = false) (ticks : List (Option String)) :
    watch c m ticks = m := by
  induction ticks with
  | nil => rfl
  | cons read ticks ih =>
    have hstay : (m.reloadFromFile c read).1 = m := by
      unfold reloadFromFile
      rw [if_pos hfile]
    rw [watch, run_cons, hstay]
    exact ih

theorem watch_claims (key path : String) (start : Option String) (ticks : List (Option String)) :
    (watch c (.loadFromEnv c key path start) ticks).claims =
      lastLicense c (delivered key path start ticks) := by
  unfold delivered
  by_cases hkey : trimSpace key ≠ ""
  · obtain ⟨hfile, hclaims⟩ := loadFromEnv_key c path hkey start
    rw [if_pos hkey, watch_of_not_file hfile, hclaims]
  rw [if_neg hkey]
  by_cases hpath : trimSpace path = ""
  · have hunset : loadFromEnv c key path start = {} := by
      unfold loadFromEnv
      rw [if_neg hkey, if_pos hpath]
    rw [if_pos hpath, hunset, watch_of_not_file rfl]
    rfl
  · obtain ⟨hcurrent, hfile, hclaims⟩ := loadFromEnv_file c hkey hpath start
    rw [if_neg hpath]
    exact watch_file hcurrent hfile hclaims ticks

theorem inForce_eq (now : Int) :
    m.inForce now = m.claims.filter fun claims => claims.InForce now := by
  unfold inForce
  cases m.claims with
  | none => rfl
  | some claims =>
    unfold Claims.InForce
    rw [Option.filter_some]
    grind

/-- **The license in force is the last one that was delivered.**  Whatever the file held at
the start and at each tick since, readable or not, the last text that was a signed license
decides, within its time, which features may run and how many integrations there may be. -/
theorem inForce_watched (c : Codec) (key path : String) (start : Option String)
    (ticks : List (Option String)) (now : Int) (f : String) :
    ((watch c (.loadFromEnv c key path start) ticks).entitled now f ↔
      ∃ claims, lastLicense c (delivered key path start ticks) = some claims ∧
        claims.InForce now ∧ f ∈ claims.entitlements) ∧
    (watch c (.loadFromEnv c key path start) ticks).maxIntegrations now =
      ((lastLicense c (delivered key path start ticks)).filter fun claims =>
        claims.InForce now).elim 0 Claims.maxIntegrations := by
  unfold entitled maxIntegrations
  rw [inForce_eq, watch_claims]
  refine ⟨?_, rfl⟩
  cases lastLicense c (delivered key path start ticks) with
  | none => simp
  | some claims => by_cases hin : claims.InForce now <;> simp [Option.filter_some, hin]

end Sluicio.License
