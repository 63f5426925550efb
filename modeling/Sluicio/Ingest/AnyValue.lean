import Sluicio.Alerting.AlertContext
import Sluicio.Audit.JsonText
import Sluicio.Identity.Mfa

/-!
# Attribute values on their way into the database

`anyValueToString` makes one text of the value of an attribute.  A scalar has its own text; an
array or a list of keys and values is marshalled as JSON, in which a number is a number and
bytes are a string of their digits.

Go's floats, their texts and how they are parsed are parameters.
-/

namespace Sluicio.Ingest

open Lib
open Audit (Json)
open Audit.Json (decode isNumber)
open Alerting (Members setMember)
open Identity (parseInt)

/-- An `AnyValue`; `unset` is also the nil pointer, and a nil `KeyValue` has the empty key and
no value. -/
inductive AnyValue (F : Type) where
  | unset
  | string (s : String)
  | int (n : Int64)
  | double (x : F)
  | bool (b : Bool)
  | bytes (bs : List UInt8)
  | array (values : List (AnyValue F))
  | kvlist (values : List (String × AnyValue F))

/-- A number of the tree that `json.Marshal` is given. -/
inductive Number (F : Type) where
  | int (n : Int64)
  | double (x : F)

/-- What Go does with a `float64`. -/
structure Floats (F : Type) where
  finite : F → Bool
  /-- `strconv.FormatFloat(x, 'f', -1, 64)` -/
  formatFloat : F → String
  /-- the text of `encoding/json` -/
  formatJSON : F → List Char
  parseFloat : String → Option F

/-- The shortest text of a float is parsed back to it, and a finite one has a text in JSON. -/
structure FloatLaws {F : Type} (g : Floats F) : Prop where
  parse_formatFloat : ∀ x, g.parseFloat (g.formatFloat x) = some x
  isNumber_formatJSON : ∀ x, g.finite x → isNumber (g.formatJSON x)
  parse_formatJSON : ∀ x, g.finite x → g.parseFloat (String.ofList (g.formatJSON x)) = some x

variable {F : Type}

mutual

def AnyValue.doubles : AnyValue F → List F
  | .unset | .string _ | .int _ | .bool _ | .bytes _ => []
  | .double x => [x]
  | .array vs => valueDoubles vs
  | .kvlist kvs => memberDoubles kvs

def valueDoubles : List (AnyValue F) → List F
  | [] => []
  | v :: vs => v.doubles ++ valueDoubles vs

def memberDoubles : List (String × AnyValue F) → List F
  | [] => []
  | (_, v) :: kvs => v.doubles ++ memberDoubles kvs

end

mutual

/-- `anyValueToInterface`; a map is marshalled in the order of its keys. -/
def anyValueToInterface : AnyValue F → Json (Number F)
  | .unset => .null
  | .string s => .string s
  | .int n => .number (.int n)
  | .double x => .number (.double x)
  | .bool b => .bool b
  | .bytes bs => .string (String.ofList (hexBytes bs))
  | .array vs => .array (valuesToInterface vs)
  | .kvlist kvs => .object (orderBy Prod.fst (membersToInterface [] kvs))

def valuesToInterface : List (AnyValue F) → List (Json (Number F))
  | [] => []
  | v :: vs => anyValueToInterface v :: valuesToInterface vs

/-- `out[kv.GetKey()] = …` for the pairs that are left. -/
def membersToInterface (out : Members (Number F)) : List (String × AnyValue F) → Members (Number F)
  | [] => out
  | (k, v) :: kvs => membersToInterface (setMember k (anyValueToInterface v) out) kvs

end

section

variable (g : Floats F)

def Number.finite : Number F → Bool
  | .int _ => true
  | .double x => g.finite x

/-- How `encoding/json` writes a number. -/
def formatNumber : Number F → List Char
  | .int n => (toString n.toInt).toList
  | .double x => g.formatJSON x

/-- `json.Marshal`; a float that is not finite is an unsupported value. -/
def jsonMarshal (v : Json (Number F)) : Option (List Char) :=
  if v.numbers.all (Number.finite g) then some (v.text (formatNumber g)) else none

/-- The JSON of an array or a list, empty when it does not marshal. -/
def marshalled (v : AnyValue F) : String :=
  match jsonMarshal g (anyValueToInterface v) with
  | none => ""
  | some cs => String.ofList cs

def anyValueToString : AnyValue F → String
  | .unset => ""
  | .string s => s
  | .int n => toString n.toInt
  | .double x => g.formatFloat x
  | .bool b => if b then "true" else "false"
  | .bytes bs => String.ofList (hexBytes bs)
  | .array vs => marshalled g (.array vs)
  | .kvlist kvs => marshalled g (.kvlist kvs)

end

def parseBool (s : String) : Option Bool :=
  if s ∈ ["1", "t", "T", "true", "TRUE", "True"] then some true
  else if s ∈ ["0", "f", "F", "false", "FALSE", "False"] then some false
  else none

/-- `hex.DecodeString`. -/
def decodeHex : List Char → Option (List UInt8)
  | [] => some []
  | [_] => none
  | a :: b :: cs =>
    match Audit.Json.hexValue a, Audit.Json.hexValue b, decodeHex cs with
    | some x, some y, some bs => some (UInt8.ofNat (16 * x + y) :: bs)
    | _, _, _ => none

def lastValue (kvs : List (String × AnyValue F)) (k : String) : Option (AnyValue F) :=
  kvs.reverse.lookup k

/-- A decoded text stands for a value up to the types it does not name: a number for an integer
or a float that its digits are parsed to, a string for a string or for the bytes of its
digits, an object for the last value of every key. -/
inductive Stands (g : Floats F) : AnyValue F → Json (List Char) → Prop where
  | unset : Stands g .unset .null
  | string (s : String) : Stands g (.string s) (.string s)
  | int {n : Int64} {digits : List Char} (h : parseInt (String.ofList digits) = some n.toInt) :
      Stands g (.int n) (.number digits)
  | double {x : F} {digits : List Char} (h : g.parseFloat (String.ofList digits) = some x) :
      Stands g (.double x) (.number digits)
  | bool (b : Bool) : Stands g (.bool b) (.bool b)
  | bytes {bs : List UInt8} {s : String} (h : decodeHex s.toList = some bs) :
      Stands g (.bytes bs) (.string s)
  | array {vs : List (AnyValue F)} {js : List (Json (List Char))}
      (h : List.Forall₂ (Stands g) vs js) : Stands g (.array vs) (.array js)
  | kvlist {kvs : List (String × AnyValue F)} {ms : Members (List Char)}
      (nodup : (ms.map Prod.fst).Nodup)
      (keys : ∀ k, k ∈ ms.map Prod.fst ↔ k ∈ kvs.map Prod.fst)
      (values : ∀ k j v, (k, j) ∈ ms → lastValue kvs k = some v → Stands g v j) :
      Stands g (.kvlist kvs) (.object ms)

/-! ## The texts of scalars -/

theorem decodeHex_hexBytes (bs : List UInt8) : decodeHex (hexBytes bs) = some bs := by
  have hdigit : ∀ i < 16, Audit.Json.hexValue i.digitChar = some i := by decide
  induction bs with
  | nil => rfl
  | cons b bs ih =>
    have hb := b.toNat_lt
    have hhigh := hdigit (b.toNat / 16) (by omega)
    have hlow := hdigit (b.toNat % 16) (by omega)
    have hbyte : 16 * (b.toNat / 16) + b.toNat % 16 = b.toNat := by omega
    show decodeHex (_ :: _ :: hexBytes bs) = _
    simp only [decodeHex, hhigh, hlow, ih, hbyte, UInt8.ofNat_toNat]

theorem intPart_toDigits (n : Nat) : Audit.Json.intPart (Nat.toDigits 10 n) = some [] := by
  have hdigits : ∀ c ∈ Nat.toDigits 10 n, c.isDigit := fun c hc =>
    Nat.isDigit_of_mem_toDigits (by decide) (by decide) hc
  rcases Nat.eq_zero_or_pos n with rfl | hpos
  · rfl
  have hhead : ∃ c cs, Nat.toDigits 10 n = c :: cs ∧ c ≠ '0' := by
    have hdigit : ∀ d < 10, 0 < d → d.digitChar ≠ '0' := by decide
    clear hdigits
    induction n using Nat.strongRecOn with
    | ind n ih =>
      by_cases hn : n < 10
      · rw [Nat.toDigits_of_lt_base hn]
        exact ⟨_, [], rfl, hdigit n hn hpos⟩
      · obtain ⟨c, cs, hcs, hc⟩ := ih (n / 10) (by omega) (by omega)
        rw [Nat.toDigits_of_base_le (by decide) (by omega), hcs]
        exact ⟨c, _, rfl, hc⟩
  obtain ⟨c, cs, hcs, hc⟩ := hhead
  rw [hcs] at hdigits ⊢
  have hfirst : c.isDigit := hdigits c (by simp)
  have hrest : cs.dropWhile Char.isDigit = [] := by
    rw [List.dropWhile_eq_nil_iff]
    exact fun d hd => hdigits d (List.mem_cons_of_mem c hd)
  unfold Audit.Json.intPart
  split
  · rename_i heq
    exact absurd (List.cons.inj heq).1 hc
  · rw [Audit.Json.digits, if_pos hfirst, hrest]

theorem isNumber_toString (n : Int) : isNumber (toString n).toList := by
  have hdigit : ∀ m, ∀ c ∈ Nat.toDigits 10 m, c.isDigit := fun m c hc =>
    Nat.isDigit_of_mem_toDigits (by decide) (by decide) hc
  have hall : ∀ m, (Nat.toDigits 10 m).all Audit.Json.isNumberChar := by
    intro m
    rw [List.all_eq_true]
    intro c hc
    simp [Audit.Json.isNumberChar, hdigit m c hc]
  cases n with
  | ofNat m =>
    have hsign : Audit.Json.unsigned (Nat.toDigits 10 m) = Nat.toDigits 10 m := by
      unfold Audit.Json.unsigned
      split
      · rename_i cs heq
        have hminus := hdigit m '-' (heq ▸ List.mem_cons_self)
        exact absurd hminus (by decide)
      · rfl
    rw [Identity.toList_toString_ofNat, isNumber, hall, hsign, intPart_toDigits]
    rfl
  | negSucc m =>
    have hsign : Audit.Json.unsigned ('-' :: Nat.toDigits 10 (m + 1)) =
        Nat.toDigits 10 (m + 1) := rfl
    rw [Identity.toList_toString_negSucc, isNumber, List.all_cons, hall, hsign, intPart_toDigits]
    rfl

variable {g : Floats F}

theorem isNumber_formatNumber (hg : FloatLaws g) {x : Number F} (hx : x.finite g) :
    isNumber (formatNumber g x) := by
  cases x with
  | int n => exact isNumber_toString n.toInt
  | double x => exact hg.isNumber_formatJSON x hx

/-! ## What is marshalled -/

variable {kvs : List (String × AnyValue F)} {out : Members (Number F)} {k : String} {v : AnyValue F}

theorem mem_membersToInterface {e : String × Json (Number F)}
    (he : e ∈ membersToInterface out kvs) :
    e ∈ out ∨ ∃ kv ∈ kvs, e = (kv.1, anyValueToInterface kv.2) := by
  induction kvs generalizing out with
  | nil => exact .inl he
  | cons kv kvs ih =>
    rcases ih he with hmem | ⟨kv', hkv', heq⟩
    · rcases List.mem_cons.mp hmem with heq | hmem
      · exact .inr ⟨kv, by simp, heq⟩
      · exact .inl (List.mem_of_mem_filter hmem)
    · exact .inr ⟨kv', by simp [hkv'], heq⟩

theorem nodup_membersToInterface (hout : (out.map Prod.fst).Nodup) :
    ((membersToInterface out kvs).map Prod.fst).Nodup := by
  induction kvs generalizing out with
  | nil => exact hout
  | cons kv kvs ih =>
    apply ih
    rw [setMember, List.map_cons, List.nodup_cons]
    constructor
    · intro hmem
      obtain ⟨e, he, hkey⟩ := List.mem_map.mp hmem
      have hne := (List.mem_filter.mp he).2
      rw [bne_iff_ne] at hne
      exact hne hkey
    · exact hout.sublist (List.filter_sublist.map _)

theorem lastValue_eq_none : lastValue kvs k = none ↔ k ∉ kvs.map Prod.fst := by
  rw [lastValue, List.lookup_eq_none_iff]
  simp only [List.mem_reverse, bne_iff_ne, List.mem_map, not_exists, not_and]
  constructor
  · intro h kv hkv heq
    exact h kv hkv heq.symm
  · intro h kv hkv heq
    exact h kv hkv heq.symm

theorem mem_of_lastValue (h : lastValue kvs k = some v) : (k, v) ∈ kvs := by
  obtain ⟨before, after, heq, -⟩ := List.lookup_eq_some_iff.mp h
  rw [← List.mem_reverse, heq]
  simp

theorem lookup_membersToInterface (kvs : List (String × AnyValue F)) (out : Members (Number F))
    (k : String) :
    (membersToInterface out kvs).lookup k =
      ((lastValue kvs k).map anyValueToInterface).or (out.lookup k) := by
  induction kvs generalizing out with
  | nil => rfl
  | cons kv kvs ih =>
    obtain ⟨key, v⟩ := kv
    rw [membersToInterface, ih, Alerting.lookup_setMember, lastValue, lastValue,
      List.reverse_cons, List.lookup_append]
    cases hlast : kvs.reverse.lookup k with
    | some w => rfl
    | none =>
      by_cases hk : k = key
      · simp [hk]
      · have hbeq : (k == key) = false := by simpa using hk
        simp [hk, List.lookup_cons, hbeq]

theorem mem_memberNumbers {N : Type} {x : N} {ms : List (String × Json N)} :
    x ∈ Json.memberNumbers ms ↔ ∃ e ∈ ms, x ∈ e.2.numbers := by
  induction ms with
  | nil => simp [Json.memberNumbers]
  | cons e ms ih =>
    rw [Json.memberNumbers, List.mem_append, ih]
    simp

theorem mapMembers_eq {M N : Type} (f : M → N) (ms : List (String × Json M)) :
    Json.mapMembers f ms = ms.map fun e => (e.1, e.2.mapNumbers f) := by
  induction ms with
  | nil => rfl
  | cons e ms ih => rw [Json.mapMembers, ih, List.map_cons]

mutual

theorem finite_of_mem_numbers : ∀ v : AnyValue F, (∀ x ∈ v.doubles, g.finite x) →
    ∀ n ∈ (anyValueToInterface v).numbers, n.finite g
  | .unset, _, n, hn | .string _, _, n, hn | .bool _, _, n, hn | .bytes _, _, n, hn => by
    simp [anyValueToInterface, Json.numbers] at hn
  | .int m, _, n, hn => by
    simp only [anyValueToInterface, Json.numbers, List.mem_singleton] at hn
    rw [hn]
    rfl
  | .double x, h, n, hn => by
    simp only [anyValueToInterface, Json.numbers, List.mem_singleton] at hn
    rw [hn]
    exact h x (by simp [AnyValue.doubles])
  | .array vs, h, n, hn => finite_of_mem_valueNumbers vs h n hn
  | .kvlist kvs, h, n, hn => by
    obtain ⟨e, he, hen⟩ := mem_memberNumbers.mp hn
    rcases mem_membersToInterface (mem_orderBy.mp he) with hnil | ⟨kv, hkv, rfl⟩
    · cases hnil
    · exact finite_of_mem_memberNumbers kvs h kv hkv n hen

theorem finite_of_mem_valueNumbers : ∀ vs : List (AnyValue F),
    (∀ x ∈ valueDoubles vs, g.finite x) →
    ∀ n ∈ Json.valueNumbers (valuesToInterface vs), n.finite g
  | [], _, n, hn => by cases hn
  | v :: vs, h, n, hn => by
    rcases List.mem_append.mp hn with hn | hn
    · exact finite_of_mem_numbers v (fun x hx => h x (List.mem_append_left _ hx)) n hn
    · exact finite_of_mem_valueNumbers vs (fun x hx => h x (List.mem_append_right _ hx)) n hn

theorem finite_of_mem_memberNumbers : ∀ kvs : List (String × AnyValue F),
    (∀ x ∈ memberDoubles kvs, g.finite x) →
    ∀ kv ∈ kvs, ∀ n ∈ (anyValueToInterface kv.2).numbers, n.finite g
  | [], _, kv, hkv => by cases hkv
  | (k, v) :: kvs, h, kv, hkv => by
    intro n hn
    rcases List.mem_cons.mp hkv with rfl | hkv
    · exact finite_of_mem_numbers v (fun x hx => h x (List.mem_append_left _ hx)) n hn
    · exact finite_of_mem_memberNumbers kvs (fun x hx => h x (List.mem_append_right _ hx)) kv
        hkv n hn

end

mutual

theorem stands_interface (hg : FloatLaws g) : ∀ v : AnyValue F,
    (∀ x ∈ v.doubles, g.finite x) →
    Stands g v ((anyValueToInterface v).mapNumbers (formatNumber g))
  | .unset, _ => .unset
  | .string s, _ => .string s
  | .bool b, _ => .bool b
  | .bytes bs, _ => .bytes (by rw [String.toList_ofList, decodeHex_hexBytes])
  | .int n, _ => .int (by
      show parseInt (String.ofList (toString n.toInt).toList) = _
      rw [String.ofList_toList]
      exact Identity.parseInt_toString ⟨n.le_toInt, n.toInt_lt⟩)
  | .double x, h => .double (hg.parse_formatJSON x (h x (by simp [AnyValue.doubles])))
  | .array vs, h => .array (stands_values hg vs h)
  | .kvlist kvs, h => by
    have hnil : (([] : Members (Number F)).map Prod.fst).Nodup := List.nodup_nil
    have hnodup : ((orderBy Prod.fst (membersToInterface [] kvs)).map Prod.fst).Nodup := by
      rw [((orderBy_perm _ _).map _).nodup_iff]
      exact nodup_membersToInterface hnil
    have hentry : ∀ k w, (k, w) ∈ orderBy Prod.fst (membersToInterface [] kvs) ↔
        (lastValue kvs k).map anyValueToInterface = some w := by
      intro k w
      rw [mem_orderBy, ← lookup_eq_some_of_nodup (nodup_membersToInterface hnil),
        lookup_membersToInterface]
      simp
    rw [anyValueToInterface, Json.mapNumbers, mapMembers_eq]
    apply Stands.kvlist
    · rw [List.map_map]
      exact hnodup
    · intro k
      rw [List.map_map]
      constructor
      · intro hk
        obtain ⟨e, he, rfl⟩ := List.mem_map.mp hk
        show e.1 ∈ kvs.map Prod.fst
        by_contra hnone
        have hlast := (hentry e.1 e.2).mp he
        rw [lastValue_eq_none.mpr hnone] at hlast
        cases hlast
      · intro hk
        cases hlast : lastValue kvs k with
        | none => exact absurd hk (lastValue_eq_none.mp hlast)
        | some v =>
          have he := (hentry k (anyValueToInterface v)).mpr (by rw [hlast]; rfl)
          exact List.mem_map.mpr ⟨_, he, rfl⟩
    · intro k j v hmem hlast
      obtain ⟨⟨k', w⟩, he, heq⟩ := List.mem_map.mp hmem
      obtain ⟨rfl, rfl⟩ := Prod.mk.inj heq
      have hw := (hentry k' w).mp he
      rw [hlast] at hw
      rw [← Option.some.inj hw]
      exact stands_members hg kvs h (k', v) (mem_of_lastValue hlast)

theorem stands_values (hg : FloatLaws g) : ∀ vs : List (AnyValue F),
    (∀ x ∈ valueDoubles vs, g.finite x) →
    List.Forall₂ (Stands g) vs (Json.mapValues (formatNumber g) (valuesToInterface vs))
  | [], _ => .nil
  | v :: vs, h =>
    .cons (stands_interface hg v fun x hx => h x (List.mem_append_left _ hx))
      (stands_values hg vs fun x hx => h x (List.mem_append_right _ hx))

theorem stands_members (hg : FloatLaws g) : ∀ kvs : List (String × AnyValue F),
    (∀ x ∈ memberDoubles kvs, g.finite x) →
    ∀ kv ∈ kvs, Stands g kv.2 ((anyValueToInterface kv.2).mapNumbers (formatNumber g))
  | [], _, kv, hkv => by cases hkv
  | (k, v) :: kvs, h, kv, hkv => by
    rcases List.mem_cons.mp hkv with rfl | hkv
    · exact stands_interface hg v fun x hx => h x (List.mem_append_left _ hx)
    · exact stands_members hg kvs (fun x hx => h x (List.mem_append_right _ hx)) kv hkv

end

/-! ## What is stored -/

/-- The stored text gives a scalar of a known type back, and an array or a list up to the types
that JSON does not name. -/
structure Survives (g : Floats F) (v : AnyValue F) : Prop where
  string : ∀ s, v = .string s → anyValueToString g v = s
  int : ∀ n, v = .int n → parseInt (anyValueToString g v) = some n.toInt
  double : ∀ x, v = .double x → g.parseFloat (anyValueToString g v) = some x
  bool : ∀ b, v = .bool b → parseBool (anyValueToString g v) = some b
  bytes : ∀ bs, v = .bytes bs → decodeHex (anyValueToString g v).toList = some bs
  array : ∀ vs, v = .array vs → (∀ x ∈ v.doubles, g.finite x) →
    anyValueToString g v ≠ "" ∧ ∃ j, decode (anyValueToString g v).toList = some j ∧ Stands g v j
  kvlist : ∀ kvs, v = .kvlist kvs → (∀ x ∈ v.doubles, g.finite x) →
    anyValueToString g v ≠ "" ∧ ∃ j, decode (anyValueToString g v).toList = some j ∧ Stands g v j

theorem marshalled_decodes (hg : FloatLaws g) (h : ∀ x ∈ v.doubles, g.finite x) :
    ∃ j, decode (marshalled g v).toList = some j ∧ Stands g v j := by
  have hfinite : (anyValueToInterface v).numbers.all (Number.finite g) := by
    rw [List.all_eq_true]
    exact finite_of_mem_numbers v h
  have htext : (marshalled g v).toList = (anyValueToInterface v).text (formatNumber g) := by
    rw [marshalled, jsonMarshal, if_pos hfinite]
    exact String.toList_ofList
  have hnumber : ∀ n ∈ (anyValueToInterface v).numbers, isNumber (formatNumber g n) :=
    fun n hn => isNumber_formatNumber hg (finite_of_mem_numbers v h n hn)
  refine ⟨_, ?_, stands_interface hg v h⟩
  rw [htext, Audit.Json.decode_text _ hnumber]

theorem ne_empty_of_decode {s : String} {j : Json (List Char)} (h : decode s.toList = some j) :
    s ≠ "" := by
  rintro rfl
  cases h

/-- **What is stored of an attribute's value gives it back up to its types.** -/
theorem value_survives (hg : FloatLaws g) (v : AnyValue F) : Survives g v := by
  constructor
  · rintro s rfl
    rfl
  · rintro n rfl
    exact Identity.parseInt_toString ⟨n.le_toInt, n.toInt_lt⟩
  · rintro x rfl
    exact hg.parse_formatFloat x
  · rintro b rfl
    cases b with
    | false => exact (by decide : parseBool "false" = some false)
    | true => exact (by decide : parseBool "true" = some true)
  · rintro bs rfl
    rw [anyValueToString, String.toList_ofList, decodeHex_hexBytes]
  · rintro vs rfl h
    obtain ⟨j, hdecode, hstands⟩ := marshalled_decodes hg h
    exact ⟨ne_empty_of_decode hdecode, j, hdecode, hstands⟩
  · rintro kvs rfl h
    obtain ⟨j, hdecode, hstands⟩ := marshalled_decodes hg h
    exact ⟨ne_empty_of_decode hdecode, j, hdecode, hstands⟩

/-- Floats that are whole numbers of 64 bits, and one that is not a number. -/
private def wholeFloats : Floats (Option Int64) where
  finite := Option.isSome
  formatFloat x :=
    match x with
    | some n => toString n.toInt
    | none => "NaN"
  formatJSON x :=
    match x with
    | some n => (toString n.toInt).toList
    | none => []
  parseFloat s := if s = "NaN" then some none else (parseInt s).map fun n => some (Int64.ofInt n)

private theorem wholeFloats_parse (n : Int64) :
    wholeFloats.parseFloat (toString n.toInt) = some (some n) := by
  have hparse := Identity.parseInt_toString ⟨n.le_toInt, n.toInt_lt⟩
  have hnan : toString n.toInt ≠ "NaN" := by
    intro heq
    rw [heq] at hparse
    revert hparse
    simp [parseInt, Identity.parseDigits]
  show (if toString n.toInt = "NaN" then some none
    else (parseInt (toString n.toInt)).map fun n => some (Int64.ofInt n)) = _
  rw [if_neg hnan, hparse, Option.map_some, Int64.ofInt_toInt]

private theorem wholeFloats_laws : FloatLaws wholeFloats where
  parse_formatFloat x := by
    cases x with
    | none => rfl
    | some n => exact wholeFloats_parse n
  isNumber_formatJSON x hx := by
    cases x with
    | none => cases hx
    | some n => exact isNumber_toString n.toInt
  parse_formatJSON x hx := by
    cases x with
    | none => cases hx
    | some n =>
      show wholeFloats.parseFloat (String.ofList (toString n.toInt).toList) = _
      rw [String.ofList_toList, wholeFloats_parse]

private def sampleValue : AnyValue (Option Int64) :=
  .kvlist [("id", .bytes [0x5f]), ("n", .array [.int 5, .double (some 5), .unset]),
    ("id", .string "<a>")]

theorem sampleValue_survives : Survives wholeFloats sampleValue :=
  value_survives wholeFloats_laws sampleValue

example : anyValueToString wholeFloats sampleValue =
    "\x7b\"id\":\"\\u003ca\\u003e\",\"n\":[5,5,null]\x7d" := by decide +kernel

/-- A text and a number are stored as the same text, and so are two arrays of them. -/
theorem string_stored_as_int :
    AnyValue.string "5" ≠ AnyValue.int (F := Option Int64) 5 ∧
      anyValueToString wholeFloats (.string "5") = anyValueToString wholeFloats (.int 5) ∧
      AnyValue.array [.string "5f"] ≠ AnyValue.array (F := Option Int64) [.bytes [0x5f]] ∧
      anyValueToString wholeFloats (.array [.string "5f"]) =
        anyValueToString wholeFloats (.array [.bytes [0x5f]]) := by
  refine ⟨?_, by decide +kernel, ?_, by decide +kernel⟩
  · intro h
    cases h
  · intro h
    injection h with h
    injection h with h
    cases h

end Sluicio.Ingest
