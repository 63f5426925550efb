import Mathlib.Data.List.Lex
import Sluicio.Lib.Encoding
import Sluicio.Lib.Literal
import Sluicio.Lib.Ordered

/-!
# The key of a proposed group

`DedupKey` hashes the sorted names of a group, each behind its length.  A service's name is
whatever bytes the telemetry carries, so the key tells two groups apart only if the bytes that
are hashed can be read back; `framed_injective` says they can.
-/

namespace Sluicio.Proposals

open Lib

/-- `strconv.Itoa` of a length. -/
def itoa (n : Nat) : Bytes := (Nat.toDigits 10 n).map fun c => UInt8.ofNat c.toNat

/-- `":"` -/
def colon : UInt8 := 58

/-- `sort.Strings`: names in the order of their bytes. -/
def sortStrings (names : List Bytes) : List Bytes :=
  orderBy (fun name => name.map UInt8.toNat) names

/-- What `DedupKey` writes to the hash. -/
def dedupInput (services : List Bytes) : Bytes :=
  framed itoa colon (sortStrings services)

def dedupKey (sha256 : Bytes → Bytes) (services : List Bytes) : String :=
  String.ofList (hexBytes (sha256 (dedupInput services)))

theorem digit_toNat {n : Nat} {c : Char} (h : c ∈ Nat.toDigits 10 n) :
    (UInt8.ofNat c.toNat).toNat = c.toNat ∧ 48 ≤ c.toNat ∧ c.toNat ≤ 57 := by
  have hdigit : c.isDigit := Nat.isDigit_of_mem_toDigits (by decide) (by decide) h
  have hrange : 48 ≤ c.toNat ∧ c.toNat ≤ 57 := by
    simpa [Char.isDigit, UInt32.le_iff_toNat_le] using hdigit
  exact ⟨Nat.mod_eq_of_lt (by omega), hrange⟩

theorem itoa_injective : Function.Injective itoa := by
  have hread : ∀ n, (itoa n).map (fun b => Char.ofNat b.toNat) = Nat.toDigits 10 n := by
    intro n
    rw [itoa, List.map_map]
    refine (List.map_congr_left fun c hc => ?_).trans (List.map_id _)
    show Char.ofNat (UInt8.ofNat c.toNat).toNat = c
    rw [(digit_toNat hc).1, Char.ofNat_toNat]
  intro m n h
  have hdigits : Nat.toDigits 10 m = Nat.toDigits 10 n := by rw [← hread m, h, hread n]
  rw [← Nat.ofDigitChars_ten_toDigits (n := m), hdigits, Nat.ofDigitChars_ten_toDigits]

theorem colon_notMem_itoa (n : Nat) : colon ∉ itoa n := by
  intro h
  obtain ⟨c, hc, heq⟩ := List.mem_map.1 h
  have hdigit := digit_toNat hc
  have hcode : (UInt8.ofNat c.toNat).toNat = 58 := by rw [heq]; rfl
  omega

theorem sortStrings_eq_iff_perm {names others : List Bytes} :
    sortStrings names = sortStrings others ↔ names.Perm others :=
  orderBy_eq_iff_perm fun _ _ h => List.map_injective_iff.2 (fun _ _ => UInt8.toNat_inj.1) h

/-- **The key identifies the group**, as far as the hash tells its inputs apart. -/
theorem dedupKey_eq_iff {sha256 : Bytes → Bytes} (hsha : Function.Injective sha256)
    (services others : List Bytes) :
    dedupKey sha256 services = dedupKey sha256 others ↔ services.Perm others := by
  rw [← sortStrings_eq_iff_perm]
  constructor
  · intro h
    have hinput : dedupInput services = dedupInput others :=
      hsha (hexBytes_injective (String.ofList_injective h))
    exact framed_injective itoa_injective colon_notMem_itoa hinput
  · intro h
    rw [dedupKey, dedupKey, dedupInput, h, dedupInput]

/-- Two services, and one whose name is what the two of them are written as. -/
theorem dedupKey_forged :
    dedupKey id [ascii "a", ascii "b"] = dedupKey id [ascii "b", ascii "a"] ∧
      dedupKey id [ascii "a", ascii "b"] ≠ dedupKey id [ascii "a1:b"] := by
  constructor
  · exact (dedupKey_eq_iff Function.injective_id _ _).2 (List.Perm.swap _ _ _)
  · intro h
    have hperm := (dedupKey_eq_iff Function.injective_id _ _).1 h
    exact absurd hperm.length_eq (by decide)

end Sluicio.Proposals
