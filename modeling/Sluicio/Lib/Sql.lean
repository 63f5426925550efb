import Sluicio.Lib.Literal

/-!
# SQL conditions over one row

The part of SQL a filter on a row is written in: columns, string literals, entries of a map
column, arrays, function calls, `=`, `IN` and `AND`.  A text is cut into tokens, the tokens
are parsed, and an expression has a value on a row.

The lexer and the parser are given fuel: the number of bytes, and the number of tokens.
`WrittenAs text e` says that a text is an expression wherever it stands, with fuel enough.
There is a rule for each way to write one (`writtenAs_column`, `writtenAs_call`, …), so that
a program that builds a condition as text is verified rule by rule, in the order it writes.
-/

namespace Sluicio.Lib.Sql

inductive Token where
  | word (w : Bytes)
  | str (s : Bytes)
  | sym (b : UInt8)
  deriving DecidableEq

def openParen : UInt8 := 40

def closeParen : UInt8 := 41

def openBracket : UInt8 := 91

def closeBracket : UInt8 := 93

def equals : UInt8 := 61

/-- A byte that is a token of its own. -/
def isSymbol (b : UInt8) : Bool :=
  [openParen, closeParen, openBracket, closeBracket, equals, comma].contains b

/-- ASCII letters and `_`. -/
def isLetter (b : UInt8) : Bool := (65 ≤ b ∧ b ≤ 90) ∨ (97 ≤ b ∧ b ≤ 122) ∨ b = 95

def isWordByte (b : UInt8) : Bool := isLetter b ∨ (48 ≤ b ∧ b ≤ 57)

/-- The tokens of a text, with `n` steps at most. -/
def lex : Nat → Bytes → Option (List Token)
  | _, [] => some []
  | 0, _ :: _ => none
  | n + 1, b :: rest =>
    if isSpace b then lex n rest
    else if b = quote then
      (readBody rest).bind fun read => (lex n read.2).map (.str read.1 :: ·)
    else if isLetter b then
      (lex n (rest.dropWhile isWordByte)).map (.word (b :: rest.takeWhile isWordByte) :: ·)
    else if isSymbol b then (lex n rest).map (.sym b :: ·)
    else none

/-- A step reads a byte at least. -/
def tokens (text : Bytes) : Option (List Token) := lex text.length text

def Spells (text : Bytes) (toks : List Token) : Prop :=
  ∃ n, n ≤ text.length ∧ lex n text = some toks

variable {e : Expr} {esc : UInt8 → Bytes} {value rest w : Bytes} {b : UInt8} {toks : List Token}
  {tss : List (List Token)} {es : List Expr} {texts : List Bytes}

theorem lex_succ {n : Nat} {text : Bytes} (h : lex n text = some toks) :
    lex (n + 1) text = some toks := by
  have hmap {n m : Nat} {f : List Token → List Token} {text : Bytes} {toks : List Token}
      (hlex : ∀ out, lex n text = some out → lex m text = some out)
      (hmapped : (lex n text).map f = some toks) : (lex m text).map f = some toks := by
    obtain ⟨out, hout, rfl⟩ := Option.map_eq_some_iff.1 hmapped
    rw [hlex out hout]
    rfl
  induction n generalizing text toks with
  | zero =>
    cases text with
    | nil => simpa [lex] using h
    | cons b rest => simp [lex] at h
  | succ n ih =>
    cases text with
    | nil => simpa [lex] using h
    | cons b rest =>
      rw [lex] at h ⊢
      by_cases hspace : isSpace b
      · rw [if_pos hspace] at h ⊢
        exact ih h
      rw [if_neg hspace] at h ⊢
      by_cases hquote : b = quote
      · rw [if_pos hquote] at h ⊢
        obtain ⟨read, hread, hout⟩ := Option.bind_eq_some_iff.1 h
        rw [hread]
        exact hmap (fun _ hlex => ih hlex) hout
      rw [if_neg hquote] at h ⊢
      by_cases hletter : isLetter b
      · rw [if_pos hletter] at h ⊢
        exact hmap (fun _ hlex => ih hlex) h
      rw [if_neg hletter] at h ⊢
      by_cases hsymbol : isSymbol b
      · rw [if_pos hsymbol] at h ⊢
        exact hmap (fun _ hlex => ih hlex) h
      · rw [if_neg hsymbol] at h
        cases h

theorem Spells.tokens_eq {text : Bytes} (h : Spells text toks) : tokens text = some toks := by
  obtain ⟨n, hn, hlex⟩ := h
  have hmono : ∀ k, lex (n + k) text = some toks := by
    intro k
    induction k with
    | zero => exact hlex
    | succ k ih => exact lex_succ ih
  have hlen : n + (text.length - n) = text.length := by omega
  rw [tokens, ← hlen]
  exact hmono _

theorem spells_nil : Spells [] [] := ⟨0, Nat.le_refl 0, rfl⟩

theorem spells_space (hb : isSpace b) (h : Spells rest toks) : Spells (b :: rest) toks := by
  obtain ⟨n, hn, hlex⟩ := h
  exact ⟨n + 1, by simpa using hn, by simpa [lex, hb] using hlex⟩

theorem spells_sym (hb : isSymbol b) (h : Spells rest toks) :
    Spells (b :: rest) (.sym b :: toks) := by
  obtain ⟨n, hn, hlex⟩ := h
  have hplain : isSpace b = false ∧ b ≠ quote ∧ isLetter b = false := by
    have hmem : b ∈ [openParen, closeParen, openBracket, closeBracket, equals, comma] := by
      simpa [isSymbol] using hb
    simp only [List.mem_cons, List.not_mem_nil, or_false] at hmem
    rcases hmem with rfl | rfl | rfl | rfl | rfl | rfl <;> decide
  exact ⟨n + 1, by simpa using hn, by simp [lex, hb, hplain, hlex]⟩

theorem spells_literal (hsound : ∀ b ∈ value, SoundAt esc b) (hrest : Closed rest)
    (h : Spells rest toks) : Spells (literal esc value ++ rest) (.str value :: toks) := by
  obtain ⟨n, hn, hlex⟩ := h
  have hread := readBody_written hsound hrest
  have htext : literal esc value ++ rest = quote :: (written esc value ++ quote :: rest) := by
    simp [literal]
  have hquote : isSpace quote = false := by decide
  refine ⟨n + 1, ?_, ?_⟩
  · simp [htext]
    omega
  · simp [htext, lex, hquote, hread, hlex]

theorem not_special_of_isLetter (hb : isLetter b) : isSpace b = false ∧ b ≠ quote := by
  simp only [isLetter, isSpace, quote, decide_eq_true_eq, decide_eq_false_iff_not,
    UInt8.le_iff_toNat_le, ← UInt8.toNat_inj, ne_eq, UInt8.reduceToNat] at hb ⊢
  omega

/-- Text that does not go on with a letter or a digit. -/
def EndsWord (rest : Bytes) : Prop := ∀ b ∈ rest.head?, isWordByte b = false

theorem takeWhile_word (hw : ∀ b ∈ w, isWordByte b) (hrest : EndsWord rest) :
    (w ++ rest).takeWhile isWordByte = w ∧ (w ++ rest).dropWhile isWordByte = rest := by
  rw [List.takeWhile_append_of_pos hw, List.dropWhile_append_of_pos hw]
  cases rest with
  | nil => simp
  | cons b rest =>
    have hb : isWordByte b = false := hrest b (by simp)
    simp [hb]

theorem spells_word (hb : isLetter b) (hw : ∀ c ∈ w, isWordByte c) (hrest : EndsWord rest)
    (h : Spells rest toks) : Spells (b :: w ++ rest) (.word (b :: w) :: toks) := by
  obtain ⟨n, hn, hlex⟩ := h
  obtain ⟨htake, hdrop⟩ := takeWhile_word hw hrest
  have hplain : isSpace b = false ∧ b ≠ quote := not_special_of_isLetter hb
  refine ⟨n + 1, ?_, ?_⟩
  · simp
    omega
  · simp [lex, hplain, hb, htake, hdrop, hlex]

/-! ## Expressions -/

inductive Expr where
  | str (s : Bytes)
  | column (name : Bytes)
  | index (map key : Expr)
  | array (items : List Expr)
  | call (function : Bytes) (args : List Expr)
  | eq (left right : Expr)
  | isIn (left : Expr) (items : List Expr)
  | and (left right : Expr)

/-- What is read from the front of the tokens, and the tokens behind it. -/
abbrev Parser (α : Type) := List Token → Option (α × List Token)

def inKeyword : Bytes := ascii "IN"

def andKeyword : Bytes := ascii "AND"

/-- The tokens behind the one that must come next. -/
def expect (t : Token) : List Token → Option (List Token)
  | [] => none
  | u :: rest => if u = t then some rest else none

/-- One or more expressions with commas between them, up to the symbol that closes the list.
`n` bounds their number. -/
def items (expr : Parser Expr) (close : UInt8) : Nat → Parser (List Expr)
  | 0, _ => none
  | n + 1, toks => (expr toks).bind fun head =>
    match expect (.sym close) head.2 with
    | some rest => some ([head.1], rest)
    | none => (expect (.sym comma) head.2).bind fun rest =>
      (items expr close n rest).map fun tail => (head.1 :: tail.1, tail.2)

/-- A literal, a column, a call, an array, or an expression in parentheses. -/
def primary (expr : Parser Expr) : Parser Expr
  | [] => none
  | .str s :: rest => some (.str s, rest)
  | .word w :: rest =>
    match expect (.sym openParen) rest with
    | some args => (items expr closeParen args.length args).map fun read =>
      (.call w read.1, read.2)
    | none => some (.column w, rest)
  | .sym b :: rest =>
    if b = openParen then (expr rest).bind fun read =>
      (expect (.sym closeParen) read.2).map fun rest => (read.1, rest)
    else if b = openBracket then (items expr closeBracket rest.length rest).map fun read =>
      (.array read.1, read.2)
    else none

/-- A primary expression, with a key in brackets behind it or without. -/
def subscripted (expr : Parser Expr) : Parser Expr := fun toks =>
  (primary expr toks).bind fun read =>
    match expect (.sym openBracket) read.2 with
    | some rest => (expr rest).bind fun key =>
      (expect (.sym closeBracket) key.2).map fun rest => (.index read.1 key.1, rest)
    | none => some read

/-- `=` and `IN` bind alike, and neither is chained. -/
def comparison (expr : Parser Expr) : Parser Expr := fun toks =>
  (subscripted expr toks).bind fun left =>
    match expect (.sym equals) left.2 with
    | some rest => (subscripted expr rest).map fun right => (.eq left.1 right.1, right.2)
    | none =>
      match expect (.word inKeyword) left.2 with
      | some rest => (expect (.sym openParen) rest).bind fun rest =>
        (items expr closeParen rest.length rest).map fun set => (.isIn left.1 set.1, set.2)
      | none => some left

/-- Comparisons with `AND` between them, of which there are `n` at most. -/
def conjunction (expr : Parser Expr) : Nat → Parser Expr
  | 0, _ => none
  | n + 1, toks => (comparison expr toks).bind fun left =>
    match expect (.word andKeyword) left.2 with
    | some rest => (conjunction expr n rest).map fun right => (.and left.1 right.1, right.2)
    | none => some left

/-- An expression that nests at most `n` deep. -/
def expression : Nat → Parser Expr
  | 0, _ => none
  | n + 1, toks => conjunction (expression n) toks.length toks

def parse (text : Bytes) : Option Expr :=
  (tokens text).bind fun toks => (expression toks.length toks).bind fun read =>
    if read.2 = [] then some read.1 else none

/-! ### Rules -/

section Rules

variable {expr : Parser Expr} {toks rest rest' : List Token} {e e' : Expr} {es : List Expr}
  {n : Nat}

@[simp] theorem expect_self (t : Token) (rest : List Token) : expect t (t :: rest) = some rest := by
  simp [expect]

@[simp] theorem expect_nil (t : Token) : expect t [] = none := rfl

variable {close : UInt8} {t : Token}

theorem expect_of_ne {u : Token} (h : u ≠ t) (rest : List Token) : expect t (u :: rest) = none := by
  simp [expect, h]

theorem items_last (hhead : expr toks = some (e, .sym close :: rest)) :
    items expr close (n + 1) toks = some ([e], rest) := by
  simp [items, hhead]

theorem items_cons (hclose : close ≠ comma) (hhead : expr toks = some (e, .sym comma :: rest))
    (htail : items expr close n rest = some (es, rest')) :
    items expr close (n + 1) toks = some (e :: es, rest') := by
  have hcomma : expect (.sym close) (.sym comma :: rest) = none :=
    expect_of_ne (by simpa using hclose.symm) rest
  simp [items, hhead, hcomma, htail]

theorem primary_column {w : Bytes} (hrest : expect (.sym openParen) rest = none) :
    primary expr (.word w :: rest) = some (.column w, rest) := by
  simp [primary, hrest]

theorem primary_call {w : Bytes}
    (hargs : items expr closeParen rest.length rest = some (es, rest')) :
    primary expr (.word w :: .sym openParen :: rest) = some (.call w es, rest') := by
  simp [primary, hargs]

theorem primary_array (hitems : items expr closeBracket rest.length rest = some (es, rest')) :
    primary expr (.sym openBracket :: rest) = some (.array es, rest') := by
  have hbracket : openBracket ≠ openParen := by decide
  simp [primary, hbracket, hitems]

theorem primary_paren (hinner : expr rest = some (e, .sym closeParen :: rest')) :
    primary expr (.sym openParen :: rest) = some (e, rest') := by
  simp [primary, hinner]

theorem subscripted_of_primary (h : primary expr toks = some (e, rest))
    (hrest : expect (.sym openBracket) rest = none) : subscripted expr toks = some (e, rest) := by
  simp [subscripted, h, hrest]

theorem subscripted_index (h : primary expr toks = some (e, .sym openBracket :: rest))
    (hkey : expr rest = some (e', .sym closeBracket :: rest')) :
    subscripted expr toks = some (.index e e', rest') := by
  simp [subscripted, h, hkey]

theorem comparison_of_subscripted (h : subscripted expr toks = some (e, rest))
    (heq : expect (.sym equals) rest = none) (hin : expect (.word inKeyword) rest = none) :
    comparison expr toks = some (e, rest) := by
  simp [comparison, h, heq, hin]

theorem comparison_eq (h : subscripted expr toks = some (e, .sym equals :: rest))
    (hright : subscripted expr rest = some (e', rest')) :
    comparison expr toks = some (.eq e e', rest') := by
  simp [comparison, h, hright]

theorem comparison_isIn
    (h : subscripted expr toks = some (e, .word inKeyword :: .sym openParen :: rest))
    (hset : items expr closeParen rest.length rest = some (es, rest')) :
    comparison expr toks = some (.isIn e es, rest') := by
  have hword : expect (.sym equals) (.word inKeyword :: .sym openParen :: rest) = none :=
    expect_of_ne (by simp) _
  simp [comparison, h, hword, hset]

theorem conjunction_of_comparison (h : comparison expr toks = some (e, rest))
    (hrest : expect (.word andKeyword) rest = none) :
    conjunction expr (n + 1) toks = some (e, rest) := by
  simp [conjunction, h, hrest]

theorem conjunction_and (h : comparison expr toks = some (e, .word andKeyword :: rest))
    (hright : conjunction expr n rest = some (e', rest')) :
    conjunction expr (n + 1) toks = some (.and e e', rest') := by
  simp [conjunction, h, hright]

/-- Tokens an expression cannot go on with. -/
def Ends (rest : List Token) : Prop :=
  ∀ t ∈ rest.head?, t = .sym closeParen ∨ t = .sym closeBracket ∨ t = .sym comma

@[simp] theorem ends_nil : Ends [] := by
  intro t ht
  cases ht

@[simp] theorem ends_cons : Ends (t :: rest) ↔
    t = .sym closeParen ∨ t = .sym closeBracket ∨ t = .sym comma := by
  simp [Ends]

theorem Ends.expect_none (h : Ends rest) (ht : ¬ Ends [t]) : expect t rest = none := by
  cases rest with
  | nil => rfl
  | cons u rest =>
    have hne : u ≠ t := by
      intro heq
      subst heq
      exact ht (by simpa using h)
    exact expect_of_ne hne rest

theorem expression_of_comparison (h : comparison (expression n) toks = some (e, rest))
    (hrest : Ends rest) : expression (n + 1) toks = some (e, rest) := by
  cases toks with
  | nil => simp [comparison, subscripted, primary] at h
  | cons t toks =>
    have hand : ¬ Ends [.word andKeyword] := by simp
    exact conjunction_of_comparison h (hrest.expect_none hand)

theorem expression_of_subscripted (h : subscripted (expression n) toks = some (e, rest))
    (hrest : Ends rest) : expression (n + 1) toks = some (e, rest) := by
  have heq : ¬ Ends [.sym equals] := by simp [equals, closeParen, closeBracket, comma]
  have hin : ¬ Ends [.word inKeyword] := by simp
  exact expression_of_comparison
    (comparison_of_subscripted h (hrest.expect_none heq) (hrest.expect_none hin)) hrest

theorem expression_of_primary (h : primary (expression n) toks = some (e, rest))
    (hrest : Ends rest) : expression (n + 1) toks = some (e, rest) := by
  have hopen : ¬ Ends [.sym openBracket] := by
    simp [openBracket, closeParen, closeBracket, comma]
  exact expression_of_subscripted (subscripted_of_primary h (hrest.expect_none hopen)) hrest

end Rules

/-! ### Texts of expressions -/

/-- Text that goes on with neither a quote nor a letter or digit. -/
def Apart (rest : Bytes) : Prop := ∀ b ∈ rest.head?, b ≠ quote ∧ isWordByte b = false

@[simp] theorem apart_nil : Apart [] := by
  intro b hb
  cases hb

@[simp] theorem apart_cons : Apart (b :: rest) ↔ b ≠ quote ∧ isWordByte b = false := by
  simp [Apart]

theorem Apart.closed (h : Apart rest) : Closed rest := fun b hb => (h b hb).1

theorem Apart.endsWord (h : Apart rest) : EndsWord rest := fun b hb => (h b hb).2

/-- The text has these tokens wherever it stands apart. -/
def Spelling (text : Bytes) (toks : List Token) : Prop :=
  ∀ rest out, Apart rest → Spells rest out → Spells (text ++ rest) (toks ++ out)

/-- The tokens are the expression wherever an expression ends behind them. -/
def Denotes (toks : List Token) (e : Expr) : Prop :=
  ∀ n rest, toks.length ≤ n → Ends rest → expression n (toks ++ rest) = some (e, rest)

def WrittenAs (text : Bytes) (e : Expr) : Prop := ∃ toks, Spelling text toks ∧ Denotes toks e

theorem WrittenAs.parse_eq {text : Bytes} (h : WrittenAs text e) : parse text = some e := by
  obtain ⟨toks, hspelling, hdenotes⟩ := h
  have hspells := hspelling [] [] apart_nil spells_nil
  have hread := hdenotes toks.length [] (Nat.le_refl _) ends_nil
  simp only [List.append_nil] at hspells hread
  simp [parse, hspells.tokens_eq, hread]

theorem Denotes.ne_nil (h : Denotes toks e) : toks ≠ [] := by
  intro hnil
  have hread := h 0 [] (by simp [hnil]) ends_nil
  cases hread

def isWord : Bytes → Bool
  | [] => false
  | b :: v => isLetter b && v.all isWordByte

theorem spells_of_isWord (hw : isWord w) (hrest : EndsWord rest) (h : Spells rest toks) :
    Spells (w ++ rest) (.word w :: toks) := by
  cases w with
  | nil => cases hw
  | cons b v =>
    simp only [isWord, Bool.and_eq_true, List.all_eq_true] at hw
    exact spells_word hw.1 hw.2 hrest h

/-! How a text is spelled from left to right. -/

theorem spelling_word (hw : isWord w) : Spelling w [.word w] :=
  fun _ _ hrest h => spells_of_isWord hw hrest.endsWord h

theorem spelling_str (hsound : ∀ b ∈ value, SoundAt esc b) :
    Spelling (literal esc value) [.str value] :=
  fun _ _ hrest h => spells_literal hsound hrest.closed h

theorem Spelling.space {text : Bytes} (h : Spelling text toks) : Spelling (32 :: text) toks :=
  fun rest out hrest hout => spells_space (by decide) (h rest out hrest hout)

theorem Spelling.sym {text : Bytes} (hb : isSymbol b) (h : Spelling text toks) :
    Spelling (b :: text) (.sym b :: toks) :=
  fun rest out hrest hout => spells_sym hb (h rest out hrest hout)

theorem spelling_sym (hb : isSymbol b) : Spelling [b] [.sym b] :=
  Spelling.sym hb fun _ _ _ h => h

/-- A byte that keeps two texts apart. -/
theorem Spelling.append {text text' : Bytes} {toks' : List Token} (h : Spelling text toks)
    (hb : b ≠ quote ∧ isWordByte b = false) (h' : Spelling (b :: text') toks') :
    Spelling (text ++ b :: text') (toks ++ toks') := by
  intro rest out hrest hout
  simpa using h _ _ (apart_cons.2 hb) (h' rest out hrest hout)

theorem writtenAs_column (hw : isWord w) : WrittenAs w (.column w) := by
  have hparen : ¬ Ends [.sym openParen] := by
    simp [openParen, closeParen, closeBracket, comma]
  refine ⟨[.word w], spelling_word hw, ?_⟩
  intro n rest hn hrest
  obtain ⟨m, rfl⟩ := Nat.exists_eq_add_of_le' hn
  exact expression_of_primary (primary_column (hrest.expect_none hparen)) hrest

theorem writtenAs_str (hsound : ∀ b ∈ value, SoundAt esc b) :
    WrittenAs (literal esc value) (.str value) := by
  refine ⟨[.str value], spelling_str hsound, ?_⟩
  intro n rest hn hrest
  obtain ⟨m, rfl⟩ := Nat.exists_eq_add_of_le' hn
  exact expression_of_primary rfl hrest

theorem writtenAs_index {text : Bytes} {key : Expr} (hw : isWord w) (hkey : WrittenAs text key) :
    WrittenAs (w ++ openBracket :: (text ++ [closeBracket])) (.index (.column w) key) := by
  obtain ⟨toks, hspelling, hdenotes⟩ := hkey
  refine ⟨.word w :: .sym openBracket :: (toks ++ [.sym closeBracket]), ?_, ?_⟩
  · have hinner := hspelling.append (by decide) (spelling_sym (b := closeBracket) (by decide))
    exact (spelling_word hw).append (by decide) (hinner.sym (by decide))
  · intro n rest hn hrest
    simp only [List.length_cons, List.length_append] at hn
    obtain ⟨m, rfl⟩ := Nat.exists_eq_add_of_le' (show 1 ≤ n by omega)
    have hread := hdenotes m (.sym closeBracket :: rest) (by omega) (by simp)
    have hparen : expect (.sym openParen) (.sym openBracket ::
        (toks ++ .sym closeBracket :: rest)) = none :=
      expect_of_ne (by simp [openBracket, openParen]) _
    have hentry := subscripted_index (primary_column (w := w) hparen) hread
    have hall := expression_of_subscripted hentry hrest
    simpa using hall

/-! ### Texts of lists -/

/-- Texts with a comma and a blank between them. -/
def commaJoined (texts : List Bytes) : Bytes := [comma, 32].intercalate texts

def commaTokens (tss : List (List Token)) : List Token := [.sym comma].intercalate tss

theorem commaTokens_cons (h : tss ≠ []) :
    commaTokens (toks :: tss) = toks ++ .sym comma :: commaTokens tss := by
  simp [commaTokens, List.intercalate_cons_of_ne_nil h]

@[simp] theorem commaJoined_singleton (text : Bytes) : commaJoined [text] = text :=
  List.intercalate_singleton

theorem commaJoined_cons {text : Bytes} (h : texts ≠ []) :
    commaJoined (text :: texts) = text ++ comma :: 32 :: commaJoined texts := by
  simp [commaJoined, List.intercalate_cons_of_ne_nil h]

theorem spelling_commaJoined (h : List.Forall₂ Spelling texts tss) :
    Spelling (commaJoined texts) (commaTokens tss) := by
  induction h with
  | nil => exact fun _ _ _ h => h
  | @cons text toks texts tss hhead htail ih =>
    cases texts with
    | nil =>
      cases htail
      simpa [commaJoined, commaTokens] using hhead
    | cons text' texts =>
      have hne : tss ≠ [] := by
        cases htail
        exact List.cons_ne_nil _ _
      rw [commaJoined_cons (List.cons_ne_nil _ _), commaTokens_cons hne]
      exact hhead.append (by decide) (ih.space.sym (by decide))

theorem length_le_commaTokens (h : List.Forall₂ Denotes tss es) :
    es.length ≤ (commaTokens tss).length ∧
      ∀ toks ∈ tss, toks.length ≤ (commaTokens tss).length := by
  induction h with
  | nil => simp
  | @cons toks e tss es hhead htail ih =>
    have hpos : 0 < toks.length := List.length_pos_iff.2 hhead.ne_nil
    cases htail with
    | nil =>
      have hone : commaTokens [toks] = toks := List.intercalate_singleton
      simpa [hone, Nat.succ_le_iff] using hpos
    | cons _ _ =>
      rw [commaTokens_cons (List.cons_ne_nil _ _)]
      simp only [List.length_append, List.length_cons, List.forall_mem_cons] at ih ⊢
      refine ⟨by omega, by omega, by omega, ?_⟩
      intro toks' hmem
      have hle := ih.2.2 toks' hmem
      omega

theorem items_commaTokens {close : UInt8} (hclose : close = closeParen ∨ close = closeBracket)
    (h : List.Forall₂ Denotes tss es) (hne : es ≠ []) {n k : Nat}
    (hn : (commaTokens tss).length ≤ n) (hk : es.length ≤ k) (rest : List Token) :
    items (expression n) close k (commaTokens tss ++ .sym close :: rest) = some (es, rest) := by
  have hcomma : close ≠ comma := by
    rcases hclose with rfl | rfl <;> decide
  have hends : Ends (.sym close :: rest) := by
    rcases hclose with rfl | rfl <;> simp
  induction h generalizing k with
  | nil => exact absurd rfl hne
  | @cons toks e tss es hhead htail ih =>
    obtain ⟨m, rfl⟩ := Nat.exists_eq_add_of_le' hk
    cases htail with
    | nil =>
      have hone : commaTokens [toks] = toks := List.intercalate_singleton
      rw [hone] at hn ⊢
      exact items_last (hhead n _ hn hends)
    | @cons toks' e' tss es hhead' htail =>
      rw [commaTokens_cons (List.cons_ne_nil _ _)] at hn ⊢
      simp only [List.length_append, List.length_cons] at hn
      have hnext := ih (List.cons_ne_nil _ _) (by omega) (k := m + (e' :: es).length)
        (Nat.le_add_left _ _)
      have hread := hhead n (.sym comma :: (commaTokens (toks' :: tss) ++ .sym close :: rest))
        (by omega) (by simp)
      have hall := items_cons hcomma hread hnext
      simpa [Nat.add_assoc] using hall

theorem WrittenAs.tokens_of_forall (h : List.Forall₂ WrittenAs texts es) :
    ∃ tss, List.Forall₂ Spelling texts tss ∧ List.Forall₂ Denotes tss es := by
  induction h with
  | nil => exact ⟨[], .nil, .nil⟩
  | cons hhead _ ih =>
    obtain ⟨toks, hspelling, hdenotes⟩ := hhead
    obtain ⟨tss, htexts, htss⟩ := ih
    exact ⟨toks :: tss, .cons hspelling htexts, .cons hdenotes htss⟩

theorem items_of_written (h : List.Forall₂ WrittenAs texts es) (hne : es ≠ []) :
    ∃ toks, Spelling (commaJoined texts) toks ∧
      ∀ close, close = closeParen ∨ close = closeBracket → ∀ n, toks.length ≤ n → ∀ rest,
        items (expression n) close (toks ++ .sym close :: rest).length
          (toks ++ .sym close :: rest) = some (es, rest) := by
  obtain ⟨tss, htexts, htss⟩ := WrittenAs.tokens_of_forall h
  refine ⟨commaTokens tss, spelling_commaJoined htexts, ?_⟩
  intro close hclose n hn rest
  have hlen := (length_le_commaTokens htss).1
  exact items_commaTokens hclose htss hne hn (by simp; omega) rest

theorem writtenAs_array (h : List.Forall₂ WrittenAs texts es) (hne : es ≠ []) :
    WrittenAs (openBracket :: (commaJoined texts ++ [closeBracket])) (.array es) := by
  obtain ⟨toks, hspelling, hitems⟩ := items_of_written h hne
  refine ⟨.sym openBracket :: (toks ++ [.sym closeBracket]), ?_, ?_⟩
  · have hinner := hspelling.append (by decide) (spelling_sym (b := closeBracket) (by decide))
    exact hinner.sym (by decide)
  · intro n rest hn hrest
    simp only [List.length_cons, List.length_append] at hn
    obtain ⟨m, rfl⟩ := Nat.exists_eq_add_of_le' (show 1 ≤ n by omega)
    have hread := hitems closeBracket (.inr rfl) m (by omega) rest
    have hall := expression_of_primary (primary_array hread) hrest
    simpa using hall

theorem writtenAs_call (hw : isWord w) (h : List.Forall₂ WrittenAs texts es) (hne : es ≠ []) :
    WrittenAs (w ++ openParen :: (commaJoined texts ++ [closeParen])) (.call w es) := by
  obtain ⟨toks, hspelling, hitems⟩ := items_of_written h hne
  refine ⟨.word w :: .sym openParen :: (toks ++ [.sym closeParen]), ?_, ?_⟩
  · have hinner := hspelling.append (by decide) (spelling_sym (b := closeParen) (by decide))
    exact (spelling_word hw).append (by decide) (hinner.sym (by decide))
  · intro n rest hn hrest
    simp only [List.length_cons, List.length_append] at hn
    obtain ⟨m, rfl⟩ := Nat.exists_eq_add_of_le' (show 1 ≤ n by omega)
    have hread := hitems closeParen (.inl rfl) m (by omega) rest
    have hall := expression_of_primary (primary_call (w := w) hread) hrest
    simpa using hall

theorem writtenAs_isIn {text : Bytes} (he : WrittenAs text e) (h : List.Forall₂ WrittenAs texts es)
    (hne : es ≠ []) :
    WrittenAs (openParen :: (text ++ closeParen :: 32 ::
      (inKeyword ++ 32 :: openParen :: (commaJoined texts ++ [closeParen])))) (.isIn e es) := by
  obtain ⟨left, hleft, hdenotes⟩ := he
  obtain ⟨toks, hspelling, hitems⟩ := items_of_written h hne
  refine ⟨.sym openParen :: (left ++ .sym closeParen :: .word inKeyword :: .sym openParen ::
    (toks ++ [.sym closeParen])), ?_, ?_⟩
  · have hset := hspelling.append (by decide) (spelling_sym (b := closeParen) (by decide))
    have hin := (spelling_word (w := inKeyword) (by decide)).append (by decide)
      (hset.sym (b := openParen) (by decide)).space
    have hinner := hleft.append (by decide) (hin.space.sym (b := closeParen) (by decide))
    exact hinner.sym (by decide)
  · intro n rest hn hrest
    simp only [List.length_cons, List.length_append] at hn
    obtain ⟨m, rfl⟩ := Nat.exists_eq_add_of_le' (show 1 ≤ n by omega)
    have hset := hitems closeParen (.inl rfl) m (by omega) rest
    have hread := hdenotes m (.sym closeParen :: .word inKeyword :: .sym openParen ::
      (toks ++ .sym closeParen :: rest)) (by omega) (by simp)
    have hbracket : expect (.sym openBracket) (.word inKeyword :: .sym openParen ::
        (toks ++ .sym closeParen :: rest)) = none := expect_of_ne (by simp) _
    have hparen := subscripted_of_primary (primary_paren hread) hbracket
    have hall := expression_of_comparison (comparison_isIn hparen hset) hrest
    simpa using hall

/-! ### Texts of conditions -/

def EndsComparison (rest : List Token) : Prop := Ends rest ∨ rest.head? = some (.word andKeyword)

theorem EndsComparison.expect_none {rest : List Token} {t : Token} (h : EndsComparison rest)
    (ht : ¬ Ends [t]) (hand : t ≠ .word andKeyword) : expect t rest = none := by
  rcases h with hends | hhead
  · exact hends.expect_none ht
  · cases rest with
    | nil => rfl
    | cons u rest =>
      have hu : u = .word andKeyword := by simpa using hhead
      exact expect_of_ne (by rw [hu]; exact hand.symm) rest

/-- A text that is one comparison, with `AND` behind it or nothing. -/
def ComparedAs (text : Bytes) (e : Expr) : Prop :=
  ∃ toks, Spelling text toks ∧ toks ≠ [] ∧ ∀ n rest, toks.length ≤ n + 1 → EndsComparison rest →
    comparison (expression n) (toks ++ rest) = some (e, rest)

theorem ComparedAs.writtenAs {text : Bytes} (h : ComparedAs text e) : WrittenAs text e := by
  obtain ⟨toks, hspelling, hne, hread⟩ := h
  refine ⟨toks, hspelling, ?_⟩
  intro n rest hn hrest
  have hpos : 0 < toks.length := List.length_pos_iff.2 hne
  obtain ⟨m, rfl⟩ := Nat.exists_eq_add_of_le' (show 1 ≤ n by omega)
  exact expression_of_comparison (hread m rest hn (.inl hrest)) hrest

theorem comparedAs_eq (hw : isWord w) (hsound : ∀ b ∈ value, SoundAt esc b) :
    ComparedAs (w ++ 32 :: equals :: 32 :: literal esc value) (.eq (.column w) (.str value)) := by
  refine ⟨[.word w, .sym equals, .str value], ?_, by simp, ?_⟩
  · have hequals := (spelling_str hsound).space.sym (b := equals) (by decide)
    exact (spelling_word hw).append (by decide) hequals.space
  · intro n rest _ hrest
    have hopen : ¬ Ends [.sym openBracket] := by
      simp [openBracket, closeParen, closeBracket, comma]
    have hleft : subscripted (expression n) (.word w :: .sym equals :: .str value :: rest) =
        some (.column w, .sym equals :: .str value :: rest) :=
      subscripted_of_primary
        (primary_column (expect_of_ne (by simp [equals, openParen]) _))
        (expect_of_ne (by simp [equals, openBracket]) _)
    have hright : subscripted (expression n) (.str value :: rest) = some (.str value, rest) :=
      subscripted_of_primary rfl (hrest.expect_none hopen (by simp))
    exact comparison_eq hleft hright

theorem comparedAs_paren {text : Bytes} (h : WrittenAs text e) :
    ComparedAs (openParen :: (text ++ [closeParen])) e := by
  obtain ⟨toks, hspelling, hdenotes⟩ := h
  refine ⟨.sym openParen :: (toks ++ [.sym closeParen]), ?_, by simp, ?_⟩
  · have hinner := hspelling.append (by decide) (spelling_sym (b := closeParen) (by decide))
    exact hinner.sym (by decide)
  · intro n rest hn hrest
    simp only [List.length_cons, List.length_append] at hn
    have hopen : ¬ Ends [.sym openBracket] := by
      simp [openBracket, closeParen, closeBracket, comma]
    have hequals : ¬ Ends [.sym equals] := by simp [equals, closeParen, closeBracket, comma]
    have hin : ¬ Ends [.word inKeyword] := by simp
    have hread := hdenotes n (.sym closeParen :: rest) (by omega) (by simp)
    have hparen := subscripted_of_primary (primary_paren hread) (hrest.expect_none hopen (by simp))
    have hall := comparison_of_subscripted hparen (hrest.expect_none hequals (by simp))
      (hrest.expect_none hin (by simp [inKeyword, andKeyword, ascii]))
    simpa using hall

theorem writtenAs_and {text text' : Bytes} {e' : Expr} (h : ComparedAs text e)
    (h' : ComparedAs text' e') :
    WrittenAs (text ++ 32 :: (andKeyword ++ 32 :: text')) (.and e e') := by
  obtain ⟨toks, hspelling, hne, hread⟩ := h
  obtain ⟨toks', hspelling', hne', hread'⟩ := h'
  refine ⟨toks ++ .word andKeyword :: toks', ?_, ?_⟩
  · have hkeyword := (spelling_word (w := andKeyword) (by decide)).append (by decide)
      hspelling'.space
    exact hspelling.append (by decide) hkeyword.space
  · intro n rest hn hrest
    simp only [List.length_cons, List.length_append] at hn
    have hpos : 0 < toks.length := List.length_pos_iff.2 hne
    obtain ⟨m, rfl⟩ := Nat.exists_eq_add_of_le' (show 1 ≤ n by omega)
    have hleft := hread m (.word andKeyword :: (toks' ++ rest)) (by omega) (.inr rfl)
    have hright := hread' m rest (by omega) (.inl hrest)
    have hand : ¬ Ends [.word andKeyword] := by simp
    have hlast (k : Nat) : conjunction (expression m) (k + 1) (toks' ++ rest) = some (e', rest) :=
      conjunction_of_comparison hright (hrest.expect_none hand)
    have hall (k : Nat) := conjunction_and hleft (hlast k)
    have hlen : ∃ k, (toks ++ .word andKeyword :: toks' ++ rest).length = k + 1 + 1 := by
      refine ⟨(toks ++ toks' ++ rest).length - 1, ?_⟩
      simp only [List.length_append, List.length_cons]
      omega
    obtain ⟨k, hk⟩ := hlen
    rw [expression, hk]
    simpa using hall k

/-! ## Values -/

inductive Value where
  | str (s : Bytes)
  | map (get : Bytes → Bytes)
  | array (items : List Bytes)
  | bool (b : Bool)

abbrev Row := Bytes → Option Value

/-- `lower`: ASCII letters, and no others. -/
def lowerByte (b : UInt8) : UInt8 := if 65 ≤ b ∧ b ≤ 90 then b + 32 else b

def lower (s : Bytes) : Bytes := s.map lowerByte

/-- `transform`: what stands where `x` does, or the default. -/
def transform (x : Bytes) : List Bytes → List Bytes → Bytes → Bytes
  | source :: sources, target :: targets, default =>
    if x = source then target else transform x sources targets default
  | _, _, default => default

def Value.text : Value → Option Bytes
  | .str s => some s
  | _ => none

def apply (function : Bytes) (args : List Value) : Option Value :=
  if function = ascii "lower" then
    match args with
    | [.str s] => some (.str (lower s))
    | _ => none
  else if function = ascii "transform" then
    match args with
    | [.str x, .array sources, .array targets, .str default] =>
      if sources.length = targets.length then some (.str (transform x sources targets default))
      else none
    | _ => none
  else none

mutual

def Expr.eval (row : Row) : Expr → Option Value
  | .str s => some (.str s)
  | .column name => row name
  | .index m key =>
    match m.eval row, key.eval row with
    | some (.map get), some (.str k) => some (.str (get k))
    | _, _ => none
  | .array es => ((evalAll row es).bind fun vs => vs.mapM Value.text).map .array
  | .call function args => (evalAll row args).bind (apply function)
  | .eq left right =>
    match left.eval row, right.eval row with
    | some (.str a), some (.str b) => some (.bool (a = b))
    | _, _ => none
  | .isIn left es =>
    match left.eval row, (evalAll row es).bind fun vs => vs.mapM Value.text with
    | some (.str a), some set => some (.bool (set.contains a))
    | _, _ => none
  | .and left right =>
    match left.eval row, right.eval row with
    | some (.bool a), some (.bool b) => some (.bool (a && b))
    | _, _ => none

def evalAll (row : Row) : List Expr → Option (List Value)
  | [] => some []
  | e :: es => (e.eval row).bind fun v => (evalAll row es).map (v :: ·)

end

theorem evalAll_literals (row : Row) (vs : List Bytes) :
    ((evalAll row (vs.map .str)).bind fun values => values.mapM Value.text) = some vs := by
  have hvalues (ws : List Bytes) : evalAll row (ws.map .str) = some (ws.map .str) := by
    induction ws with
    | nil => rfl
    | cons w ws ih => simp [evalAll, Expr.eval, ih]
  have htexts (ws : List Bytes) : (ws.map Value.str).mapM Value.text = some ws := by
    induction ws with
    | nil => rfl
    | cons w ws ih => simp [Value.text, ih]
  simp [hvalues, htexts]

theorem transform_map (x : Bytes) (sources : List Bytes) (f : Bytes → Bytes) (default : Bytes) :
    transform x sources (sources.map f) default = if x ∈ sources then f x else default := by
  induction sources with
  | nil => rfl
  | cons source sources ih =>
    by_cases hx : x = source
    · simp [transform, hx]
    · simp [transform, hx, ih]

end Sluicio.Lib.Sql
