import Mathlib.Algebra.GroupWithZero.Nat
import Mathlib.Data.List.Count
import Sluicio.Store.Clause

/-!
# A clause and its arguments

What the compilers return is the text of a clause with its arguments taken out,
beside the arguments in the order of the text (`emit`).  Two facts say that this is
as good as the bound clause: positional binding gives it back (`fill_emit`), and the
text has one `?` for each argument (`count_placeholders`), as long as no name written
into the text has a question mark of its own.
-/

namespace Sluicio.Store

open Token

variable {α : Type}

@[simp] theorem filterMap_label_sql (s : String) (ts : List (Token α)) :
    (Token.sql s :: ts).filterMap label? = ts.filterMap label? := rfl

@[simp] theorem filterMap_label_hole (a : α) (ts : List (Token α)) :
    (Token.hole a :: ts).filterMap label? = a :: ts.filterMap label? := rfl

theorem Cond.fill_erase (c : Cond α) (rest : List α) :
    c.erase.fill (c.tokens.filterMap label? ++ rest) = some (c, rest) := by
  cases c with
  | text op e v => cases op <;> rfl
  | number op e v => rfl
  | nonEmpty e => cases e <;> rfl
  | isEmpty e => cases e <;> rfl
  | present m key => rfl
  | absent m key => rfl
  | never => rfl

namespace Clause

theorem filterMap_joined (sep : String) (parts : List (Clause α)) :
    (joined sep parts).filterMap label? = parts.flatMap holes := by
  induction parts with
  | nil => simp [joined]
  | cons part parts ih =>
    cases parts with
    | nil => simp [joined, holes]
    | cons next parts =>
      have hnext : joined sep (part :: next :: parts) =
          part.tokens ++ .sql sep :: joined sep (next :: parts) := rfl
      rw [hnext, List.filterMap_append, filterMap_label_sql, ih, List.flatMap_cons]
      rfl

theorem holes_cond (c : Cond α) : holes (.cond c) = c.tokens.filterMap label? := by
  simp [holes, tokens]

@[simp] theorem holes_all (parts : List (Clause α)) : holes (.all parts) = parts.flatMap holes := by
  simp [holes, tokens, filterMap_joined]

@[simp] theorem holes_any (parts : List (Clause α)) : holes (.any parts) = parts.flatMap holes := by
  simp [holes, tokens, filterMap_joined]

@[simp] theorem holes_countIf (c : Clause α) : holes (.countIf c) = holes c := by
  simp [holes, tokens]

@[simp] theorem holes_traceIn (start stop : α) (groups : Clause α) (having : List (Clause α)) :
    holes (.traceIn start stop groups having) =
      start :: stop :: (holes groups ++ having.flatMap holes) := by
  simp [holes, tokens, filterMap_joined]

@[simp] theorem holes_subtree (anchor : Clause α) (start stop start' stop' : α)
    (anchor' : Clause α) :
    holes (.subtree anchor start stop start' stop' anchor') =
      holes anchor ++ [start, stop, start', stop'] ++ holes anchor' := by
  simp [holes, tokens]

mutual

theorem fill_erase (c : Clause α) (rest : List α) :
    fill (erase c) (holes c ++ rest) = some (c, rest) := by
  cases c with
  | cond c => simp [erase, fill, holes_cond, Cond.fill_erase]
  | all parts => simp [erase, fill, fillList_eraseList]
  | any parts => simp [erase, fill, fillList_eraseList]
  | countIf c => simp [erase, fill, fill_erase c]
  | traceIn start stop groups having =>
    simp [erase, fill, fill_erase groups, fillList_eraseList]
  | subtree anchor start stop start' stop' anchor' =>
    simp [erase, fill, fill_erase anchor, fill_erase anchor']

theorem fillList_eraseList (parts : List (Clause α)) (rest : List α) :
    fillList (eraseList parts) (parts.flatMap holes ++ rest) = some (parts, rest) := by
  cases parts with
  | nil => rfl
  | cons part parts =>
    simp [eraseList, fillList, fill_erase part, fillList_eraseList parts]

end

theorem eraseList_eq (parts : List (Clause α)) : eraseList parts = parts.map erase := by
  induction parts with
  | nil => rfl
  | cons part parts ih => rw [eraseList, ih, List.map_cons]

/-- What a compiler returns for a bound clause: its text, and its arguments. -/
def emit (c : Clause α) : Clause Unit × List α := (c.erase, c.holes)

theorem fill_emit (c : Clause α) : fill c.emit.1 c.emit.2 = some (c, []) := by
  have := fill_erase c []
  rwa [List.append_nil] at this

end Clause

/-! ## Question marks -/

theorem clean_append {a b : String} (ha : '?' ∉ a.toList) (hb : '?' ∉ b.toList) :
    '?' ∉ (a ++ b).toList := by
  rw [String.toList_append, List.mem_append]
  exact fun h => h.elim ha hb

/-- The text of the token has no question mark of its own. -/
def Token.Clean : Token α → Prop
  | .sql s => '?' ∉ s.toList
  | .hole _ => True

def Token.marks : Token α → Nat
  | .sql s => s.toList.count '?'
  | .hole _ => 0

/-- A text has one `?` for each placeholder, and the marks that are none. -/
theorem count_marks (ts : List (Token α)) :
    (String.join (ts.map Token.text)).toList.count '?' =
      (ts.filterMap label?).length + (ts.map marks).sum := by
  induction ts with
  | nil => rfl
  | cons t ts ih =>
    rw [List.map_cons, String.join_cons, String.toList_append, List.count_append, ih,
      List.map_cons, List.sum_cons]
    cases t with
    | sql s =>
      rw [filterMap_label_sql]
      show s.toList.count '?' + _ = _ + (s.toList.count '?' + _)
      omega
    | hole a =>
      have hone : "?".toList.count '?' = 1 := by decide
      rw [filterMap_label_hole, List.length_cons]
      show "?".toList.count '?' + _ = _ + (0 + _)
      omega

theorem Token.marks_eq_zero {t : Token α} : t.marks = 0 ↔ t.Clean := by
  cases t with
  | sql s => exact List.count_eq_zero
  | hole a => exact iff_of_true rfl trivial

/-- One `?` for each placeholder, just when no other text has one. -/
theorem count_placeholders_iff {ts : List (Token α)} :
    (String.join (ts.map Token.text)).toList.count '?' = (ts.filterMap label?).length ↔
      ∀ t ∈ ts, t.Clean := by
  have hsum : (ts.map marks).sum = 0 ↔ ∀ t ∈ ts, t.Clean := by
    rw [List.sum_eq_zero_iff_forall_eq_nat, List.forall_mem_map]
    exact forall₂_congr fun t _ => marks_eq_zero
  rw [count_marks, ← hsum]
  omega

/-- One `?` for each placeholder, when no other text has one. -/
theorem count_placeholders_tokens {ts : List (Token α)} (h : ∀ t ∈ ts, t.Clean) :
    (String.join (ts.map Token.text)).toList.count '?' = (ts.filterMap label?).length :=
  count_placeholders_iff.2 h

/-- The names a condition writes into its text have no question mark. -/
def Cond.Clean (c : Cond α) : Prop := ∀ t ∈ c.tokens, t.Clean

namespace Clause

mutual

/-- Every name a clause writes into its text is free of question marks. -/
def Clean : Clause α → Prop
  | .cond c => c.Clean
  | .all parts => ListClean parts
  | .any parts => ListClean parts
  | .countIf clause => Clean clause
  | .traceIn _ _ groups having => Clean groups ∧ ListClean having
  | .subtree anchor _ _ _ _ anchor' => Clean anchor ∧ Clean anchor'

def ListClean : List (Clause α) → Prop
  | [] => True
  | part :: parts => Clean part ∧ ListClean parts

end

theorem listClean_iff {parts : List (Clause α)} : ListClean parts ↔ ∀ p ∈ parts, p.Clean := by
  induction parts with
  | nil => simp [ListClean]
  | cons part parts ih => simp [ListClean, ih]

theorem clean_joined {sep : String} {parts : List (Clause α)} (hsep : '?' ∉ sep.toList)
    (h : ∀ p ∈ parts, ∀ t ∈ p.tokens, t.Clean) : ∀ t ∈ joined sep parts, t.Clean := by
  induction parts with
  | nil =>
    intro t ht
    exact absurd ht List.not_mem_nil
  | cons part parts ih =>
    intro t ht
    rw [joined, List.mem_append] at ht
    cases ht with
    | inl ht => exact h part List.mem_cons_self t ht
    | inr ht =>
      by_cases hlast : parts.isEmpty
      · simp [hlast] at ht
      simp only [hlast, if_false, List.mem_cons, Bool.false_eq_true] at ht
      cases ht with
      | inl ht =>
        subst ht
        exact hsep
      | inr ht => exact ih (fun p hp => h p (List.mem_cons_of_mem _ hp)) t ht

theorem clean_enclosed {l r : String} {toks : List (Token α)} (h : ∀ t ∈ toks, t.Clean)
    (hl : '?' ∉ l.toList) (hr : '?' ∉ r.toList) :
    ∀ t ∈ Token.sql l :: (toks ++ [.sql r]), t.Clean :=
  List.forall_mem_cons.2 ⟨hl, List.forall_mem_append.2 ⟨h, List.forall_mem_singleton.2 hr⟩⟩

theorem subtreeHead_clean : '?' ∉ subtreeHead.toList := by
  have hcap : '?' ∉ (toString subtreeDepthCap).toList := by
    rw [show toString subtreeDepthCap = "512" from rfl]
    simp
  exact clean_append (clean_append (clean_append (clean_append (clean_append (clean_append
    (clean_append (clean_append (clean_append (by simp) (by simp)) (by simp)) (by simp))
      (by simp)) hcap) (by simp)) (by simp)) (by simp)) (by simp)

mutual

theorem clean_tokens : ∀ {c : Clause α}, c.Clean → ∀ t ∈ c.tokens, t.Clean
  | .cond c, h => h
  | .all parts, h =>
    clean_enclosed (clean_joined (by decide) (listClean_tokens h)) (by simp) (by simp)
  | .any parts, h =>
    clean_enclosed (clean_joined (by decide) (listClean_tokens h)) (by simp) (by simp)
  | .countIf c, h => clean_enclosed (clean_tokens (c := c) h) (by simp) (by simp)
  | .traceIn start stop groups having, h => by
    have hgroups := clean_tokens (c := groups) h.1
    have hhaving := clean_enclosed (l := "\n\t\tGROUP BY TraceId\n\t\tHAVING ") (r := "\n\t)")
      (clean_joined (by decide : '?' ∉ " AND ".toList) (listClean_tokens h.2)) (by simp) (by simp)
    simp only [tokens, List.forall_mem_append]
    exact ⟨by simp [Token.Clean], hgroups, hhaving⟩
  | .subtree anchor start stop start' stop' anchor', h => by
    have hanchor := clean_tokens (c := anchor) h.1
    have hanchor' := clean_tokens (c := anchor') h.2
    simp only [tokens, List.forall_mem_append, List.forall_mem_cons (a := Token.sql subtreeHead)]
    exact ⟨subtreeHead_clean, hanchor, by simp [Token.Clean], hanchor', by simp [Token.Clean]⟩

theorem listClean_tokens :
    ∀ {parts : List (Clause α)}, ListClean parts → ∀ p ∈ parts, ∀ t ∈ p.tokens, t.Clean
  | [], _, p, hp => absurd hp List.not_mem_nil
  | part :: parts, h, p, hp => by
    cases hp with
    | head => exact clean_tokens h.1
    | tail _ hp => exact listClean_tokens h.2 p hp

end

mutual

theorem clean_of_tokens : ∀ {c : Clause α}, (∀ t ∈ c.tokens, t.Clean) → c.Clean
  | .cond c, h => h
  | .all parts, h => by
    rw [tokens, List.forall_mem_cons, List.forall_mem_append] at h
    exact listClean_of_joined " AND " h.2.1
  | .any parts, h => by
    rw [tokens, List.forall_mem_cons, List.forall_mem_append] at h
    exact listClean_of_joined " OR " h.2.1
  | .countIf c, h => by
    rw [tokens, List.forall_mem_cons, List.forall_mem_append] at h
    exact clean_of_tokens (c := c) h.2.1
  | .traceIn start stop groups having, h => by
    simp only [tokens, List.forall_mem_append] at h
    have hhaving := (List.forall_mem_append.1 (List.forall_mem_cons.1 h.2.2).2).1
    exact ⟨clean_of_tokens h.2.1, listClean_of_joined " AND " hhaving⟩
  | .subtree anchor start stop start' stop' anchor', h => by
    simp only [tokens, List.forall_mem_append, List.forall_mem_cons (a := Token.sql subtreeHead)] at h
    exact ⟨clean_of_tokens h.2.1, clean_of_tokens h.2.2.2.1⟩

theorem listClean_of_joined : ∀ {parts : List (Clause α)} (sep : String),
    (∀ t ∈ joined sep parts, t.Clean) → ListClean parts
  | [], _, _ => trivial
  | part :: parts, sep, h => by
    refine ⟨clean_of_tokens fun t ht => h t ?_, ?_⟩
    · rw [joined]
      exact List.mem_append_left _ ht
    · refine listClean_of_joined sep fun t ht => h t ?_
      rw [joined]
      cases parts with
      | nil => cases ht
      | cons next parts => exact List.mem_append_right _ (List.mem_cons_of_mem _ ht)

end

mutual

theorem text_erase : ∀ c : Clause α, c.erase.tokens.map Token.text = c.tokens.map Token.text
  | .cond c => by
    cases c with
    | text op e v => cases op <;> rfl
    | number op e v => rfl
    | nonEmpty e => cases e <;> rfl
    | isEmpty e => cases e <;> rfl
    | present m key => rfl
    | absent m key => rfl
    | never => rfl
  | .all parts => by simp [erase, tokens, text_eraseList, Token.text]
  | .any parts => by simp [erase, tokens, text_eraseList, Token.text]
  | .countIf c => by simp [erase, tokens, text_erase c, Token.text]
  | .traceIn start stop groups having => by
    simp [erase, tokens, text_erase groups, text_eraseList, Token.text]
  | .subtree anchor start stop start' stop' anchor' => by
    simp [erase, tokens, text_erase anchor, text_erase anchor', Token.text]

theorem text_eraseList : ∀ (parts : List (Clause α)) (sep : String),
    (joined sep (eraseList parts)).map Token.text = (joined sep parts).map Token.text
  | [], sep => rfl
  | part :: parts, sep => by
    cases parts with
    | nil => simp [eraseList, joined, text_erase part]
    | cons next parts =>
      have hrest := text_eraseList (next :: parts) sep
      have hleft : joined sep (eraseList (part :: next :: parts)) =
          part.erase.tokens ++ .sql sep :: joined sep (eraseList (next :: parts)) := rfl
      have hright : joined sep (part :: next :: parts) =
          part.tokens ++ .sql sep :: joined sep (next :: parts) := rfl
      rw [hleft, hright, List.map_append, List.map_append, List.map_cons, List.map_cons,
        text_erase part, hrest]
      rfl

end

/-- The emitted text has one `?` for each emitted argument. -/
theorem count_placeholders {c : Clause α} (h : c.Clean) :
    (render c.emit.1).toList.count '?' = c.emit.2.length := by
  have hcount := count_placeholders_tokens (clean_tokens h)
  show (String.join (c.erase.tokens.map Token.text)).toList.count '?' = _
  rw [text_erase, hcount]
  rfl

end Clause

end Sluicio.Store
