import Sluicio.Audit.Chain

/-!
# The text of a JSON value

A value is written without spaces, as `json.Marshal` writes it, and read back by the grammar of
JSON, its numbers as the texts they are.  What is written is read back.

Escapes of surrogates, which are never written, are not read.
-/

namespace Sluicio.Audit

open Lib

namespace Json

variable {N : Type}

section

variable (f : N → List Char)

mutual

/-- The text of a value whose numbers are written by `f`. -/
def text : Json N → List Char
  | .null => "null".toList
  | .bool b => (if b then "true" else "false").toList
  | .number n => f n
  | .string s => quoted s
  | .array vs => '[' :: valuesText vs ++ [']']
  | .object ms => '\x7b' :: membersText ms ++ ['\x7d']

def valuesText : List (Json N) → List Char
  | [] => []
  | [v] => text v
  | v :: vs => text v ++ ',' :: valuesText vs

def membersText : List (String × Json N) → List Char
  | [] => []
  | [(k, v)] => quoted k ++ ':' :: text v
  | (k, v) :: ms => quoted k ++ ':' :: text v ++ ',' :: membersText ms

end

end

def digits : List Char → Option (List Char)
  | [] => none
  | c :: cs => if c.isDigit then some (cs.dropWhile Char.isDigit) else none

/-- The digits before the point, with no zero before others. -/
def intPart : List Char → Option (List Char)
  | '0' :: cs => some cs
  | cs => digits cs

def fracPart : List Char → Option (List Char)
  | '.' :: cs => digits cs
  | cs => some cs

def expPart : List Char → Option (List Char)
  | 'e' :: '+' :: cs | 'e' :: '-' :: cs | 'E' :: '+' :: cs | 'E' :: '-' :: cs => digits cs
  | 'e' :: cs | 'E' :: cs => digits cs
  | cs => some cs

def unsigned : List Char → List Char
  | '-' :: cs => cs
  | cs => cs

def isNumberChar (c : Char) : Bool :=
  c.isDigit || c = '+' || c = '-' || c = '.' || c = 'e' || c = 'E'

/-- A text of such characters that spells a number. -/
def isNumber (cs : List Char) : Bool :=
  cs.all isNumberChar && ((intPart (unsigned cs)).bind fracPart).bind expPart = some []

/-! ## Reading -/

def isSpace (c : Char) : Bool :=
  c = ' ' || c = '\t' || c = '\n' || c = '\r'

def skipSpace (cs : List Char) : List Char :=
  cs.dropWhile isSpace

/-- The character that an escape of one letter stands for. -/
def unescape (c : Char) : Option Char :=
  if c = '"' ∨ c = '\\' ∨ c = '/' then some c
  else if c = 'b' then some (Char.ofNat 8)
  else if c = 'f' then some (Char.ofNat 12)
  else if c = 'n' then some '\n'
  else if c = 'r' then some '\r'
  else if c = 't' then some '\t'
  else none

def hexValue (c : Char) : Option Nat :=
  if c.isDigit then some (c.toNat - 48)
  else if 'a' ≤ c ∧ c ≤ 'f' then some (c.toNat - 87)
  else if 'A' ≤ c ∧ c ≤ 'F' then some (c.toNat - 55)
  else none

/-- Where the reader of a string is: between characters, behind a backslash, or with so many
digits of a code point to come. -/
inductive StringState where
  | plain
  | escape
  | unicode (left : Nat) (value : Nat)

/-- The characters up to the closing quote, and what is behind it. -/
def readString : StringState → List Char → Option (List Char × List Char)
  | _, [] => none
  | .plain, c :: cs =>
    if c = '"' then some ([], cs)
    else if c = '\\' then readString .escape cs
    else if c.toNat < 32 then none
    else (readString .plain cs).map fun r => (c :: r.1, r.2)
  | .escape, c :: cs =>
    if c = 'u' then readString (.unicode 3 0) cs
    else
      match unescape c with
      | none => none
      | some d => (readString .plain cs).map fun r => (d :: r.1, r.2)
  | .unicode left value, c :: cs =>
    match hexValue c, left with
    | none, _ => none
    | some d, left + 1 => readString (.unicode left (16 * value + d)) cs
    | some d, 0 =>
      if (16 * value + d).isValidChar then
        (readString .plain cs).map fun r => (Char.ofNat (16 * value + d) :: r.1, r.2)
      else none

def readWord (word : String) (v : Json (List Char)) (cs : List Char) :
    Option (Json (List Char) × List Char) :=
  if word.toList.isPrefixOf cs then some (v, cs.drop word.toList.length) else none

def readNumber (cs : List Char) : Option (Json (List Char) × List Char) :=
  if isNumber (cs.takeWhile isNumberChar) then
    some (.number (cs.takeWhile isNumberChar), cs.dropWhile isNumberChar)
  else none

mutual

def readValue : Nat → List Char → Option (Json (List Char) × List Char)
  | 0, _ => none
  | fuel + 1, cs =>
    match skipSpace cs with
    | [] => none
    | c :: rest =>
      if c = '"' then
        (readString .plain rest).map fun r => (.string (String.ofList r.1), r.2)
      else if c = '[' then
        if (skipSpace rest).head? = some ']' then some (.array [], (skipSpace rest).tail)
        else (readList fuel rest).map fun r => (.array r.1, r.2)
      else if c = '\x7b' then
        if (skipSpace rest).head? = some '\x7d' then some (.object [], (skipSpace rest).tail)
        else (readObject fuel rest).map fun r => (.object r.1, r.2)
      else if c = 't' then readWord "true" (.bool true) (c :: rest)
      else if c = 'f' then readWord "false" (.bool false) (c :: rest)
      else if c = 'n' then readWord "null" .null (c :: rest)
      else readNumber (c :: rest)

/-- The values of an array that has some, up to its end. -/
def readList : Nat → List Char → Option (List (Json (List Char)) × List Char)
  | 0, _ => none
  | fuel + 1, cs =>
    match readValue fuel cs with
    | none => none
    | some (v, rest) =>
      match skipSpace rest with
      | [] => none
      | c :: rest =>
        if c = ',' then (readList fuel rest).map fun r => (v :: r.1, r.2)
        else if c = ']' then some ([v], rest)
        else none

/-- The members of an object that has some, up to its end. -/
def readObject : Nat → List Char → Option (List (String × Json (List Char)) × List Char)
  | 0, _ => none
  | fuel + 1, cs =>
    match readMember fuel cs with
    | none => none
    | some (m, rest) =>
      match skipSpace rest with
      | [] => none
      | c :: rest =>
        if c = ',' then (readObject fuel rest).map fun r => (m :: r.1, r.2)
        else if c = '\x7d' then some ([m], rest)
        else none

def readMember : Nat → List Char → Option ((String × Json (List Char)) × List Char)
  | 0, _ => none
  | fuel + 1, cs =>
    if (skipSpace cs).head? = some '"' then
      match readString .plain (skipSpace cs).tail with
      | none => none
      | some (k, rest) =>
        if (skipSpace rest).head? = some ':' then
          (readValue fuel (skipSpace rest).tail).map fun r => ((String.ofList k, r.1), r.2)
        else none
    else none

end

/-- The value that a whole text spells. -/
def decode (cs : List Char) : Option (Json (List Char)) :=
  match readValue (cs.length + 1) cs with
  | none => none
  | some (v, rest) => if skipSpace rest = [] then some v else none

/-! ## Strings come back -/

private def unicodeEscaped : List Nat :=
  List.range 32 ++ [0x3c, 0x3e, 0x26, 0x2028, 0x2029]

private def hexFour (n : Nat) : List Char :=
  List.replicate (4 - (Nat.toDigits 16 n).length) '0' ++ Nat.toDigits 16 n

private theorem readString_hexFour {n : Nat} (hn : n ∈ unicodeEscaped) (cs : List Char) :
    readString (.unicode 3 0) (hexFour n ++ cs) =
      (readString .plain cs).map fun r => (Char.ofNat n :: r.1, r.2) := by
  have hall : ∀ n ∈ unicodeEscaped, n.isValidChar ∧ n < 65536 ∧ (hexFour n).map hexValue =
      [some (n / 4096), some (n / 256 % 16), some (n / 16 % 16), some (n % 16)] := by
    decide +kernel
  obtain ⟨hvalid, hsmall, hdigits⟩ := hall n hn
  obtain ⟨a, l, hfour, ha, hdigits⟩ := List.map_eq_cons_iff.mp hdigits
  obtain ⟨b, l, rfl, hb, hdigits⟩ := List.map_eq_cons_iff.mp hdigits
  obtain ⟨c, l, rfl, hc, hdigits⟩ := List.map_eq_cons_iff.mp hdigits
  obtain ⟨d, l, rfl, hd, hdigits⟩ := List.map_eq_cons_iff.mp hdigits
  rw [List.map_eq_nil_iff] at hdigits
  subst hdigits
  have hvalue : 16 * (16 * (16 * (16 * 0 + n / 4096) + n / 256 % 16) + n / 16 % 16) + n % 16
      = n := by omega
  rw [hfour]
  simp only [List.cons_append, List.nil_append, readString, ha, hb, hc, hd, hvalue, hvalid, if_true]

private theorem readString_escapeChar (c : Char) (cs : List Char) :
    readString .plain (escapeChar c ++ cs) =
      (readString .plain cs).map fun r => (c :: r.1, r.2) := by
  unfold escapeChar
  split
  · rename_i hc
    have hu : c ≠ 'u' := by
      rintro rfl
      revert hc
      decide
    have hself : unescape c = some c := if_pos (by tauto)
    simp [readString, hu, hself]
  · rename_i hquote
    rw [not_or] at hquote
    by_cases hn : c = '\n'
    · subst hn
      rfl
    by_cases hr : c = '\r'
    · subst hr
      rfl
    by_cases ht : c = '\t'
    · subst ht
      rfl
    rw [if_neg hn, if_neg hr, if_neg ht]
    split
    · rename_i h8
      have hc : c = Char.ofNat 8 := by rw [← h8, Char.ofNat_toNat]
      subst hc
      rfl
    split
    · rename_i h12
      have hc : c = Char.ofNat 12 := by rw [← h12, Char.ofNat_toNat]
      subst hc
      rfl
    split
    · rename_i hcode
      have hmem : c.toNat ∈ unicodeEscaped := by
        rcases hcode with hlow | hmark | hline | hpara
        · exact List.mem_append_left _ (List.mem_range.mpr hlow)
        · apply List.mem_append_right
          simp only [List.mem_cons, List.not_mem_nil, or_false] at hmark
          rcases hmark with rfl | rfl | rfl <;> decide
        · rw [hline]
          decide
        · rw [hpara]
          decide
      have hfour := readString_hexFour hmem cs
      rw [Char.ofNat_toNat] at hfour
      exact hfour
    · rename_i hplain
      have hlow : ¬c.toNat < 32 := fun hlow => hplain (.inl hlow)
      simp [readString, hquote.1, hquote.2, hlow]

theorem readString_quoted (s : String) (rest : List Char) :
    readString .plain (s.toList.flatMap escapeChar ++ '"' :: rest) = some (s.toList, rest) := by
  induction s.toList with
  | nil => rfl
  | cons c cs ih =>
    rw [List.flatMap_cons, List.append_assoc, readString_escapeChar, ih]
    rfl

/-! ## Values come back -/

/-- A text that does not go on with a number. -/
def Ends (rest : List Char) : Prop := ∀ c ∈ rest.head?, isNumberChar c = false

variable {cs rest : List Char}

theorem isNumber_head (h : isNumber cs = true) :
    ∃ c rest, cs = c :: rest ∧ (c = '-' ∨ c.isDigit = true) := by
  simp only [isNumber, Bool.and_eq_true, decide_eq_true_eq] at h
  have hgrammar := h.2
  cases cs with
  | nil => exact absurd hgrammar (by simp [unsigned, intPart, digits])
  | cons c rest =>
    refine ⟨c, rest, rfl, ?_⟩
    by_cases hminus : c = '-'
    · exact .inl hminus
    right
    have hsign : unsigned (c :: rest) = c :: rest := by
      unfold unsigned
      split
      · rename_i heq
        exact absurd (List.cons.inj heq).1 hminus
      · rfl
    by_contra hdigit
    have hzero : c ≠ '0' := by
      rintro rfl
      exact hdigit rfl
    have hnone : intPart (c :: rest) = none := by
      unfold intPart
      split
      · rename_i heq
        exact absurd (List.cons.inj heq).1 hzero
      · simp [digits, hdigit]
    rw [hsign, hnone] at hgrammar
    exact absurd hgrammar (by simp)

theorem readNumber_append (h : isNumber cs = true) (hrest : Ends rest) :
    readNumber (cs ++ rest) = some (.number cs, rest) := by
  have hall : ∀ c ∈ cs, isNumberChar c = true := by
    simp only [isNumber, Bool.and_eq_true, List.all_eq_true] at h
    exact h.1
  have hstop : rest.takeWhile isNumberChar = [] ∧ rest.dropWhile isNumberChar = rest := by
    cases rest with
    | nil => exact ⟨rfl, rfl⟩
    | cons c rest =>
      have hc : isNumberChar c = false := hrest c rfl
      simp [hc]
  have htake : (cs ++ rest).takeWhile isNumberChar = cs := by
    rw [List.takeWhile_append_of_pos hall, hstop.1, List.append_nil]
  have hdrop : (cs ++ rest).dropWhile isNumberChar = rest := by
    rw [List.dropWhile_append_of_pos hall, hstop.2]
  rw [readNumber, htake, hdrop, if_pos h]

theorem skipSpace_cons {c : Char} (h : isSpace c = false) (cs : List Char) :
    skipSpace (c :: cs) = c :: cs := by
  simp [skipSpace, h]

private theorem number_head {c : Char} (h : c = '-' ∨ c.isDigit = true) :
    isSpace c = false ∧ c ≠ '"' ∧ c ≠ '[' ∧ c ≠ ']' ∧ c ≠ '\x7b' ∧ c ≠ 't' ∧ c ≠ 'f' ∧ c ≠ 'n' := by
  have hne : ∀ d : Char, d ≠ '-' → d.isDigit = false → c ≠ d := by
    rintro d hd hdigit rfl
    rcases h with h | h
    · exact hd h
    · rw [hdigit] at h
      cases h
  refine ⟨?_, hne _ (by decide) rfl, hne _ (by decide) rfl, hne _ (by decide) rfl,
    hne _ (by decide) rfl, hne _ (by decide) rfl, hne _ (by decide) rfl, hne _ (by decide) rfl⟩
  have hspace := hne ' ' (by decide) rfl
  have htab := hne '\t' (by decide) rfl
  have hline := hne '\n' (by decide) rfl
  have hreturn := hne '\r' (by decide) rfl
  simp [isSpace, hspace, htab, hline, hreturn]

variable {f : N → List Char}

theorem text_head (v : Json N) (h : ∀ x ∈ v.numbers, isNumber (f x)) :
    ∃ c rest, text f v = c :: rest ∧ isSpace c = false ∧ c ≠ ']' := by
  cases v with
  | null => exact ⟨'n', _, rfl, rfl, by decide⟩
  | bool b =>
    cases b with
    | false => exact ⟨'f', _, rfl, rfl, by decide⟩
    | true => exact ⟨'t', _, rfl, rfl, by decide⟩
  | number n =>
    obtain ⟨c, rest, htext, hc⟩ := isNumber_head (h n (by simp [numbers]))
    have hhead := number_head hc
    exact ⟨c, rest, htext, hhead.1, hhead.2.2.2.1⟩
  | string s => exact ⟨'"', _, rfl, rfl, by decide⟩
  | array vs => exact ⟨'[', _, rfl, rfl, by decide⟩
  | object ms => exact ⟨'\x7b', _, rfl, rfl, by decide⟩

theorem valuesText_cons_cons (v w : Json N) (vs : List (Json N)) :
    valuesText f (v :: w :: vs) = text f v ++ ',' :: valuesText f (w :: vs) := rfl

theorem membersText_cons_cons (m n : String × Json N) (ms : List (String × Json N)) :
    membersText f (m :: n :: ms) =
      quoted m.1 ++ ':' :: text f m.2 ++ ',' :: membersText f (n :: ms) := rfl

theorem valuesText_head (v : Json N) (vs : List (Json N))
    (h : ∀ x ∈ valueNumbers (v :: vs), isNumber (f x) = true) :
    ∃ c rest, valuesText f (v :: vs) = c :: rest ∧ isSpace c = false ∧ c ≠ ']' := by
  obtain ⟨c, rest, htext, hc⟩ := text_head v fun x hx => h x (List.mem_append_left _ hx)
  cases vs with
  | nil => exact ⟨c, rest, htext, hc⟩
  | cons w vs =>
    refine ⟨c, rest ++ ',' :: valuesText f (w :: vs), ?_, hc⟩
    rw [valuesText_cons_cons, htext, List.cons_append]

theorem membersText_head (m : String × Json N) (ms : List (String × Json N)) :
    ∃ rest, membersText f (m :: ms) = '"' :: rest := by
  cases ms with
  | nil => exact ⟨_, rfl⟩
  | cons n ms => exact ⟨_, rfl⟩

theorem two_le_length_quoted (s : String) : 2 ≤ (quoted s).length := by
  simp [quoted]

theorem ends_comma : Ends (',' :: rest) := by simp [Ends, isNumberChar]

variable {rest : List Char} {fuel : Nat} {c : Char}

theorem ends_close : Ends (']' :: rest) := by simp [Ends, isNumberChar]

theorem ends_brace : Ends ('\x7d' :: rest) := by simp [Ends, isNumberChar]

private theorem readList_step {cs : List Char} {v : Json (List Char)}
    (hv : readValue fuel cs = some (v, c :: rest)) (hc : isSpace c = false) :
    readList (fuel + 1) cs =
      if c = ',' then (readList fuel rest).map fun r => (v :: r.1, r.2)
      else if c = ']' then some ([v], rest)
      else none := by
  rw [readList, hv]
  simp only [skipSpace_cons hc]

private theorem readObject_step {m : String × Json (List Char)}
    (hm : readMember fuel cs = some (m, c :: rest)) (hc : isSpace c = false) :
    readObject (fuel + 1) cs =
      if c = ',' then (readObject fuel rest).map fun r => (m :: r.1, r.2)
      else if c = '\x7d' then some ([m], rest)
      else none := by
  rw [readObject, hm]
  simp only [skipSpace_cons hc]

private theorem readMember_step {k : String} {v : Json (List Char)}
    (hv : readValue fuel cs = some (v, rest)) :
    readMember (fuel + 1) (quoted k ++ ':' :: cs) = some ((k, v), rest) := by
  have hquote : quoted k ++ ':' :: cs =
      '"' :: (k.toList.flatMap escapeChar ++ '"' :: ':' :: cs) := by
    simp [quoted]
  rw [readMember, hquote, skipSpace_cons rfl]
  simp only [List.head?_cons, if_true, List.tail_cons, readString_quoted,
    skipSpace_cons (c := ':') rfl, hv, Option.map_some, String.ofList_toList]

mutual

theorem readValue_text : ∀ (v : Json N) (fuel : Nat) (rest : List Char),
    (∀ x ∈ v.numbers, isNumber (f x)) → Ends rest → (text f v).length ≤ fuel →
    readValue (fuel + 1) (text f v ++ rest) = some (v.mapNumbers f, rest)
  | .null, fuel, rest, _, _, _ => by
    show readValue (fuel + 1) ('n' :: 'u' :: 'l' :: 'l' :: rest) = _
    rw [readValue, skipSpace_cons rfl]
    simp [readWord, mapNumbers]
  | .bool true, fuel, rest, _, _, _ => by
    show readValue (fuel + 1) ('t' :: 'r' :: 'u' :: 'e' :: rest) = _
    rw [readValue, skipSpace_cons rfl]
    simp [readWord, mapNumbers]
  | .bool false, fuel, rest, _, _, _ => by
    show readValue (fuel + 1) ('f' :: 'a' :: 'l' :: 's' :: 'e' :: rest) = _
    rw [readValue, skipSpace_cons rfl]
    simp [readWord, mapNumbers]
  | .number n, fuel, rest, h, hrest, _ => by
    have hn := h n (by simp [numbers])
    obtain ⟨c, cs, htext, hc⟩ := isNumber_head hn
    obtain ⟨hspace, hquote, harray, -, hobject, ht, hf, hnull⟩ := number_head hc
    have hread := readNumber_append hn hrest
    rw [htext] at hread
    rw [text, htext, List.cons_append, readValue, skipSpace_cons hspace]
    simp only [hquote, harray, hobject, ht, hf, hnull, if_false]
    rw [← List.cons_append, hread, mapNumbers, htext]
  | .string s, fuel, rest, _, _, _ => by
    have hquote : quoted s ++ rest = '"' :: (s.toList.flatMap escapeChar ++ '"' :: rest) := by
      simp [quoted]
    rw [text, hquote, readValue, skipSpace_cons rfl]
    simp [readString_quoted, mapNumbers]
  | .array [], fuel, rest, _, _, _ => by
    show readValue (fuel + 1) ('[' :: ']' :: rest) = _
    rw [readValue, skipSpace_cons rfl]
    simp [skipSpace_cons (c := ']') rfl, mapNumbers, mapValues]
  | .array (v :: vs), fuel, rest, h, _, hfuel => by
    obtain ⟨c, cs, htext, hspace, hend⟩ := valuesText_head v vs h
    simp only [text, List.length_append, List.length_cons, List.length_nil] at hfuel
    have hlist := readList_valuesText (v :: vs) (fuel - 1) rest (List.cons_ne_nil v vs) h
      (by omega)
    rw [show fuel - 1 + 1 = fuel by omega] at hlist
    rw [text, show '[' :: valuesText f (v :: vs) ++ [']'] ++ rest =
      '[' :: (valuesText f (v :: vs) ++ ']' :: rest) by simp, readValue, skipSpace_cons rfl]
    have hhead : (skipSpace (valuesText f (v :: vs) ++ ']' :: rest)).head? ≠ some ']' := by
      rw [htext, List.cons_append, skipSpace_cons hspace]
      simpa using hend
    simp [hhead, hlist, mapNumbers]
  | .object [], fuel, rest, _, _, _ => by
    show readValue (fuel + 1) ('\x7b' :: '\x7d' :: rest) = _
    rw [readValue, skipSpace_cons rfl]
    simp [skipSpace_cons (c := '\x7d') rfl, mapNumbers, mapMembers]
  | .object (m :: ms), fuel, rest, h, _, hfuel => by
    obtain ⟨cs, htext⟩ := membersText_head (f := f) m ms
    simp only [text, List.length_append, List.length_cons, List.length_nil] at hfuel
    have hobject := readObject_membersText (m :: ms) (fuel - 1) rest (List.cons_ne_nil m ms) h
      (by omega)
    rw [show fuel - 1 + 1 = fuel by omega] at hobject
    rw [text, show '\x7b' :: membersText f (m :: ms) ++ ['\x7d'] ++ rest =
      '\x7b' :: (membersText f (m :: ms) ++ '\x7d' :: rest) by simp, readValue,
      skipSpace_cons rfl]
    have hhead : (skipSpace (membersText f (m :: ms) ++ '\x7d' :: rest)).head? ≠ some '\x7d' := by
      rw [htext, List.cons_append, skipSpace_cons rfl]
      simp
    simp [hhead, hobject, mapNumbers]

theorem readList_valuesText : ∀ (vs : List (Json N)) (fuel : Nat) (rest : List Char),
    vs ≠ [] → (∀ x ∈ valueNumbers vs, isNumber (f x)) →
    (valuesText f vs).length + 1 ≤ fuel →
    readList (fuel + 1) (valuesText f vs ++ ']' :: rest) = some (mapValues f vs, rest)
  | [], _, _, hne, _, _ => absurd rfl hne
  | [v], fuel, rest, _, h, hfuel => by
    simp only [valuesText] at hfuel ⊢
    have hv := readValue_text v (fuel - 1) (']' :: rest)
      (fun x hx => h x (List.mem_append_left _ hx)) ends_close (by omega)
    rw [show fuel - 1 + 1 = fuel by omega] at hv
    rw [readList_step hv rfl]
    simp [mapValues]
  | v :: w :: vs, fuel, rest, _, h, hfuel => by
    rw [valuesText_cons_cons] at hfuel ⊢
    rw [List.length_append, List.length_cons] at hfuel
    have hv := readValue_text v (fuel - 1) (',' :: (valuesText f (w :: vs) ++ ']' :: rest))
      (fun x hx => h x (List.mem_append_left _ hx)) ends_comma (by omega)
    have hvs := readList_valuesText (w :: vs) (fuel - 1) rest (List.cons_ne_nil w vs)
      (fun x hx => h x (List.mem_append_right _ hx)) (by omega)
    rw [show fuel - 1 + 1 = fuel by omega] at hv hvs
    rw [List.append_assoc, List.cons_append, readList_step hv rfl, if_pos rfl, hvs]
    simp [mapValues]

theorem readObject_membersText : ∀ (ms : List (String × Json N)) (fuel : Nat)
    (rest : List Char), ms ≠ [] → (∀ x ∈ memberNumbers ms, isNumber (f x)) →
    (membersText f ms).length + 1 ≤ fuel →
    readObject (fuel + 1) (membersText f ms ++ '\x7d' :: rest) = some (mapMembers f ms, rest)
  | [], _, _, hne, _, _ => absurd rfl hne
  | [(k, v)], fuel, rest, _, h, hfuel => by
    simp only [membersText, List.length_append, List.length_cons] at hfuel ⊢
    have hk := two_le_length_quoted k
    have hv := readValue_text v (fuel - 2) ('\x7d' :: rest)
      (fun x hx => h x (List.mem_append_left _ hx)) ends_brace (by omega)
    have hm := readMember_step (k := k) hv
    rw [show fuel - 2 + 1 + 1 = fuel by omega] at hm
    rw [List.append_assoc, List.cons_append, readObject_step hm rfl]
    simp [mapMembers]
  | (k, v) :: n :: ms, fuel, rest, _, h, hfuel => by
    rw [membersText_cons_cons] at hfuel ⊢
    simp only [List.length_append, List.length_cons] at hfuel
    have hk := two_le_length_quoted k
    have hv := readValue_text v (fuel - 2) (',' :: (membersText f (n :: ms) ++ '\x7d' :: rest))
      (fun x hx => h x (List.mem_append_left _ hx)) ends_comma (by omega)
    have hm := readMember_step (k := k) hv
    have hms := readObject_membersText (n :: ms) (fuel - 1) rest (List.cons_ne_nil n ms)
      (fun x hx => h x (List.mem_append_right _ hx)) (by omega)
    rw [show fuel - 2 + 1 + 1 = fuel by omega] at hm
    rw [show fuel - 1 + 1 = fuel by omega] at hms
    rw [show quoted k ++ ':' :: text f v ++ ',' :: membersText f (n :: ms) ++ '\x7d' :: rest =
      quoted k ++ ':' :: (text f v ++ ',' :: (membersText f (n :: ms) ++ '\x7d' :: rest)) by simp,
      readObject_step hm rfl, if_pos rfl, hms]
    simp [mapMembers]

end

/-- **A value that is written is read back, its numbers as they were written.** -/
theorem decode_text (v : Json N) (h : ∀ x ∈ v.numbers, isNumber (f x)) :
    decode (text f v) = some (v.mapNumbers f) := by
  have hread := readValue_text v (text f v).length [] h (by simp [Ends]) le_rfl
  rw [List.append_nil] at hread
  rw [decode, hread]
  rfl

end Json

end Sluicio.Audit
