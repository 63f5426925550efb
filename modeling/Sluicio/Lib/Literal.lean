import Mathlib.Data.List.Basic

/-!
# Quoted literals

A text is a list of bytes.  A literal stands between single quotes; inside it a quote is
doubled, or a backslash stands before it, and a backslash escapes the byte after it.
`readBody` reads a literal whose opening quote has been read, up to the quote that closes
it.

An escaper writes a value byte by byte.  It is sound on a byte when reading what it writes
gives the byte back; a literal written by an escaper that is sound on every byte of the
value is read as that value, whatever follows (`readBody_written`).
-/

namespace Sluicio.Lib

/-- A text, which need not be UTF-8. -/
abbrev Bytes := List UInt8

/-- `'`. -/
def quote : UInt8 := 39

/-- `\`. -/
def backslash : UInt8 := 92

def comma : UInt8 := 44

def colon : UInt8 := 58

def openBrace : UInt8 := 123

def closeBrace : UInt8 := 125

/-- Blanks, tabs and line ends. -/
def isSpace (b : UInt8) : Bool := b = 32 ∨ (9 ≤ b ∧ b ≤ 13)

def skipSpaces (text : Bytes) : Bytes := text.dropWhile isSpace

def ascii (s : String) : Bytes := s.toList.map fun c => UInt8.ofNat c.toNat

/-- The value of a hexadecimal digit. -/
def hexDigit (b : UInt8) : Option UInt8 :=
  if 48 ≤ b ∧ b ≤ 57 then some (b - 48)
  else if 65 ≤ b ∧ b ≤ 70 then some (b - 55)
  else if 97 ≤ b ∧ b ≤ 102 then some (b - 87)
  else none

/-- What a backslash and the byte after it stand for, when that is not `x`: the controls
`\a \b \e \f \n \r \t \v \0`, nothing for `\N`, the byte itself if it is one that quotes or
escapes, and else both. -/
def unescape (b : UInt8) : Bytes :=
  if b = 97 then [7]
  else if b = 98 then [8]
  else if b = 101 then [27]
  else if b = 102 then [12]
  else if b = 110 then [10]
  else if b = 114 then [13]
  else if b = 116 then [9]
  else if b = 118 then [11]
  else if b = 48 then [0]
  else if b = 78 then []
  else if b = quote ∨ b = backslash ∨ b = 34 ∨ b = 96 ∨ b = 47 then [b]
  else [backslash, b]

/-- Put bytes in front of the value that was read. -/
def prepend (bs : Bytes) (read : Bytes × Bytes) : Bytes × Bytes := (bs ++ read.1, read.2)

/-- What the byte before asks of the next one: nothing, whether a quote is doubled, what is
escaped, or the digits of a `\xHH`. -/
inductive Pending where
  | none
  | quote
  | escape
  | high
  | low (high : UInt8)

/-- The rest of a literal: its value, and the text behind its closing quote. -/
def readFrom : Pending → Bytes → Option (Bytes × Bytes)
  | .quote, [] => some ([], [])
  | _, [] => none
  | .none, b :: rest =>
    if b = quote then readFrom .quote rest
    else if b = backslash then readFrom .escape rest
    else (readFrom .none rest).map (prepend [b])
  | .quote, b :: rest =>
    if b = quote then (readFrom .none rest).map (prepend [quote]) else some ([], b :: rest)
  | .escape, b :: rest =>
    if b = 120 then readFrom .high rest else (readFrom .none rest).map (prepend (unescape b))
  | .high, b :: rest => (hexDigit b).bind fun h => readFrom (.low h) rest
  | .low h, b :: rest =>
    (hexDigit b).bind fun l => (readFrom .none rest).map (prepend [16 * h + l])

/-- A literal after its opening quote. -/
def readBody (text : Bytes) : Option (Bytes × Bytes) := readFrom .none text

def readLiteral : Bytes → Option (Bytes × Bytes)
  | [] => none
  | b :: rest => if b = quote then readBody rest else none

/-- The byte that must come next. -/
def expectByte (b : UInt8) : Bytes → Option Bytes
  | [] => none
  | c :: rest => if c = b then some rest else none

/-! ## Writing -/

def written (esc : UInt8 → Bytes) (value : Bytes) : Bytes := value.flatMap esc

def backslashed (b : UInt8) : Bytes :=
  if b = backslash then [backslash, backslash] else if b = quote then [backslash, quote] else [b]

/-- A backslash before backslashes, quotes doubled. -/
def doubled (b : UInt8) : Bytes :=
  if b = backslash then [backslash, backslash] else if b = quote then [quote, quote] else [b]

/-- Quotes doubled, and nothing done about backslashes. -/
def quotesDoubled (b : UInt8) : Bytes := if b = quote then [quote, quote] else [b]

def literal (esc : UInt8 → Bytes) (value : Bytes) : Bytes := quote :: (written esc value ++ [quote])

/-- What the escaper writes for the byte is read as that byte, whatever follows. -/
def SoundAt (esc : UInt8 → Bytes) (b : UInt8) : Prop :=
  ∀ rest, readBody (esc b ++ rest) = (readBody rest).map (prepend [b])

/-- Text that does not go on with a quote, so that a literal before it ends where it does. -/
def Closed (rest : Bytes) : Prop := ∀ b ∈ rest.head?, b ≠ quote

@[simp] theorem closed_nil : Closed [] := by
  intro b hb
  cases hb

variable {esc : UInt8 → Bytes} {entries : List (Bytes × Bytes)} {value rest : Bytes} {b : UInt8}
  {texts : List Bytes}

@[simp] theorem closed_cons : Closed (b :: rest) ↔ b ≠ quote := by
  simp [Closed]

theorem readBody_plain (hquote : b ≠ quote) (hescape : b ≠ backslash) (rest : Bytes) :
    readBody (b :: rest) = (readBody rest).map (prepend [b]) := by
  simp [readBody, readFrom, hquote, hescape]

theorem readBody_escaped (hb : b = quote ∨ b = backslash) (rest : Bytes) :
    readBody (backslash :: b :: rest) = (readBody rest).map (prepend [b]) := by
  have hhex : b ≠ 120 := by
    rcases hb with rfl | rfl <;> decide
  have hvalue : unescape b = [b] := by
    rcases hb with rfl | rfl <;> rfl
  have hquote : backslash ≠ quote := by decide
  simp [readBody, readFrom, hhex, hvalue, hquote]

theorem readBody_doubled_quote (rest : Bytes) :
    readBody (quote :: quote :: rest) = (readBody rest).map (prepend [quote]) := by
  simp [readBody, readFrom]

theorem readBody_close (hrest : Closed rest) : readBody (quote :: rest) = some ([], rest) := by
  cases rest with
  | nil => simp [readBody, readFrom]
  | cons b rest => simp [readBody, readFrom, closed_cons.1 hrest]

theorem soundAt_backslashed (b : UInt8) : SoundAt backslashed b := by
  intro rest
  by_cases hescape : b = backslash
  · subst hescape
    exact readBody_escaped (.inr rfl) rest
  by_cases hquote : b = quote
  · subst hquote
    exact readBody_escaped (.inl rfl) rest
  · simpa [backslashed, hescape, hquote] using readBody_plain hquote hescape rest

theorem soundAt_doubled (b : UInt8) : SoundAt doubled b := by
  intro rest
  by_cases hescape : b = backslash
  · subst hescape
    exact readBody_escaped (.inr rfl) rest
  by_cases hquote : b = quote
  · subst hquote
    exact readBody_doubled_quote rest
  · simpa [doubled, hescape, hquote] using readBody_plain hquote hescape rest

theorem soundAt_quotesDoubled (hescape : b ≠ backslash) : SoundAt quotesDoubled b := by
  intro rest
  by_cases hquote : b = quote
  · subst hquote
    exact readBody_doubled_quote rest
  · simpa [quotesDoubled, hquote] using readBody_plain hquote hescape rest

theorem readBody_written (hsound : ∀ b ∈ value, SoundAt esc b) (hrest : Closed rest) :
    readBody (written esc value ++ quote :: rest) = some (value, rest) := by
  induction value with
  | nil => exact readBody_close hrest
  | cons b value ih =>
    have hvalue := ih fun c hc => hsound c (List.mem_cons_of_mem b hc)
    have hb := hsound b List.mem_cons_self (written esc value ++ quote :: rest)
    have htext : written esc (b :: value) ++ quote :: rest =
        esc b ++ (written esc value ++ quote :: rest) := by
      simp [written]
    rw [htext, hb, hvalue]
    rfl

theorem readLiteral_literal (hsound : ∀ b ∈ value, SoundAt esc b) (hrest : Closed rest) :
    readLiteral (literal esc value ++ rest) = some (value, rest) := by
  have htext : literal esc value ++ rest = quote :: (written esc value ++ quote :: rest) := by
    simp [literal]
  rw [htext]
  simpa [readLiteral] using readBody_written hsound hrest

@[simp] theorem skipSpaces_cons (hb : isSpace b = false) (rest : Bytes) :
    skipSpaces (b :: rest) = b :: rest := by
  simp [skipSpaces, hb]

@[simp] theorem skipSpaces_literal (esc : UInt8 → Bytes) (value rest : Bytes) :
    skipSpaces (literal esc value ++ rest) = literal esc value ++ rest := by
  have hquote : isSpace quote = false := by decide
  simp [literal, hquote]

/-! ## Maps of literals -/

/-- A literal, a colon and a literal, spaces around them: the pair, and the text from the
first byte behind it that is no space. -/
def readEntry (text : Bytes) : Option ((Bytes × Bytes) × Bytes) :=
  (readLiteral (skipSpaces text)).bind fun key =>
    (expectByte colon (skipSpaces key.2)).bind fun rest =>
      (readLiteral (skipSpaces rest)).map fun value => ((key.1, value.1), skipSpaces value.2)

/-- The entries up to the closing brace, which ends the text.  `n` bounds their number. -/
def readEntries : Nat → Bytes → Option (List (Bytes × Bytes))
  | 0, _ => none
  | n + 1, text => (readEntry text).bind fun entry =>
    if entry.2 = [closeBrace] then some [entry.1]
    else (expectByte comma entry.2).bind fun rest => (readEntries n rest).map (entry.1 :: ·)

/-- A map: its entries, in the order they are written. -/
def readMap (text : Bytes) : Option (List (Bytes × Bytes)) :=
  (expectByte openBrace text).bind fun rest =>
    if skipSpaces rest = [closeBrace] then some [] else readEntries rest.length rest

/-- The text is read as the entry, whatever follows but a quote. -/
def SpellsEntry (text : Bytes) (entry : Bytes × Bytes) : Prop :=
  ∀ rest, Closed rest → readEntry (text ++ rest) = some (entry, skipSpaces rest)

theorem spellsEntry_literals {esc' : UInt8 → Bytes} {key : Bytes} (hkey : ∀ b ∈ key, SoundAt esc b)
    (hvalue : ∀ b ∈ value, SoundAt esc' b) :
    SpellsEntry (literal esc key ++ colon :: literal esc' value) (key, value) := by
  intro rest hrest
  have hafter : Closed (colon :: (literal esc' value ++ rest)) := closed_cons.2 (by decide)
  have hread := readLiteral_literal hkey hafter
  have hread' := readLiteral_literal hvalue hrest
  have htext : literal esc key ++ colon :: literal esc' value ++ rest =
      literal esc key ++ colon :: (literal esc' value ++ rest) := by
    simp
  have hcolon : isSpace colon = false := by decide
  simp [htext, readEntry, hread, expectByte, hcolon, hread']

theorem SpellsEntry.ne_nil {text : Bytes} {entry : Bytes × Bytes} (h : SpellsEntry text entry) :
    text ≠ [] := by
  intro hnil
  have hread := h [] closed_nil
  subst hnil
  cases hread

theorem length_le_of_spelled (hspells : List.Forall₂ SpellsEntry texts entries) :
    entries.length ≤ ([comma].intercalate texts).length := by
  induction hspells with
  | nil => simp
  | @cons text entry texts entries hspell hrest ih =>
    have hpos : 0 < text.length := List.length_pos_iff.2 hspell.ne_nil
    cases hrest with
    | nil => simpa [Nat.succ_le_iff] using hpos
    | cons _ _ =>
      rw [List.intercalate_cons_cons]
      simp only [List.length_append, List.length_cons] at ih ⊢
      omega

theorem readEntries_spelled {n : Nat} (hspells : List.Forall₂ SpellsEntry texts entries)
    (hne : entries ≠ []) (hn : entries.length ≤ n) :
    readEntries n ([comma].intercalate texts ++ [closeBrace]) = some entries := by
  induction hspells generalizing n with
  | nil => exact absurd rfl hne
  | @cons text entry texts entries hspell hrest ih =>
    obtain ⟨k, rfl⟩ : ∃ k, n = k + 1 := by
      have hpos : 1 ≤ n := by
        simp only [List.length_cons] at hn
        omega
      exact ⟨n - 1, by omega⟩
    cases hrest with
    | nil =>
      have hread := hspell [closeBrace] (closed_cons.2 (by decide))
      have hend : skipSpaces [closeBrace] = [closeBrace] := by decide
      simp [readEntries, hread, hend]
    | @cons text' entry' texts entries hspell' hrest =>
      have hnext := ih (List.cons_ne_nil _ _) (n := k) (by simpa using hn)
      have hread := hspell (comma :: ([comma].intercalate (text' :: texts) ++ [closeBrace]))
        (closed_cons.2 (by decide))
      have hcomma : isSpace comma = false := by decide
      have hmore : comma ≠ closeBrace := by decide
      rw [List.intercalate_cons_cons]
      simp only [List.append_assoc, List.cons_append, List.nil_append, readEntries]
      rw [hread]
      simp [hcomma, hmore, expectByte, hnext]

theorem readEntries_closed {text : Bytes} (htext : skipSpaces text = [closeBrace]) (n : Nat) :
    readEntries n text = none := by
  have hbrace : closeBrace ≠ quote := by decide
  cases n with
  | zero => rfl
  | succ n => simp [readEntries, readEntry, htext, readLiteral, hbrace]

theorem readMap_spelled (hspells : List.Forall₂ SpellsEntry texts entries) (hne : entries ≠ []) :
    readMap (openBrace :: ([comma].intercalate texts ++ [closeBrace])) = some entries := by
  have hbound := length_le_of_spelled hspells
  have hread := readEntries_spelled hspells hne
    (n := ([comma].intercalate texts).length + 1) (by omega)
  have hopen : skipSpaces ([comma].intercalate texts ++ [closeBrace]) ≠ [closeBrace] := by
    intro hclosed
    rw [readEntries_closed hclosed] at hread
    cases hread
  simp [readMap, expectByte, hopen, hread]

end Sluicio.Lib
