import Mathlib.Algebra.GroupWithZero.Nat
import Mathlib.Data.List.Count

/-!
# Statements with positional arguments

A statement is put together from fragments: the text of one stands inside the text of another,
and each placeholder reads the next argument.  A fragment is a syntax tree over the operators
of a language.  The language says how an operator is written around its operands and which
value it has of theirs, and a tree has its text and its meaning from there and from nothing
else.  It takes its arguments from the front, in the order of its text, and leaves the rest.

`Answers f args value` says that the fragment has a placeholder for each of the arguments and
the value on every row, whatever stands after it, so that a program that builds a statement and
its arguments side by side is verified piece by piece.
-/

namespace Sluicio.Lib

/-- The operators of a language: the pieces of text between which one puts its `n` operands,
and the value that it has of theirs on a row. -/
structure Language (O V R : Type) where
  pieces : O → Nat → List String
  value : O → R → List V → Option V

/-- A placeholder, or an operator with its operands. -/
inductive Fragment (O : Type) where
  | hole
  | node (op : O) (parts : List (Fragment O))

namespace Fragment

/-- The texts put between the pieces. -/
def weave : List String → List String → String
  | piece :: pieces, text :: texts => piece ++ text ++ weave pieces texts
  | piece :: _, [] => piece
  | [], _ => ""

variable {O V R : Type} (lang : Language O V R)

mutual

/-- The text of the tree, `?` for each placeholder. -/
def text : Fragment O → String
  | hole => "?"
  | node op parts => weave (lang.pieces op parts.length) (texts parts)

def texts : List (Fragment O) → List String
  | [] => []
  | f :: fs => text f :: texts fs

end

mutual

/-- The value of the tree on a row, and the arguments that it leaves. -/
def read (row : R) : Fragment O → List V → Option (V × List V)
  | hole, [] => none
  | hole, a :: as => some (a, as)
  | node op parts, as =>
    (readAll row parts as).bind fun rs => (lang.value op row rs.1).map fun v => (v, rs.2)

/-- The fragments in order, each on what the ones before left. -/
def readAll (row : R) : List (Fragment O) → List V → Option (List V × List V)
  | [], as => some ([], as)
  | f :: fs, as =>
    (read row f as).bind fun r => (readAll row fs r.2).map fun rs => (r.1 :: rs.1, rs.2)

end

/-! ## What a fragment answers -/

structure Answers (f : Fragment O) (args : List V) (value : R → V) : Prop where
  holes : (f.text lang).toList.count '?' = args.length
  read : ∀ row rest, f.read lang row (args ++ rest) = some (value row, rest)

/-- A fragment with its arguments and its value. -/
structure Bound (O V R : Type) where
  fragment : Fragment O
  args : List V
  value : R → V

def Bound.Sound (b : Bound O V R) : Prop := b.fragment.Answers lang b.args b.value

variable {lang}

theorem texts_eq_map (fs : List (Fragment O)) : texts lang fs = fs.map (text lang) := by
  induction fs with
  | nil => rfl
  | cons f fs ih => rw [texts, ih, List.map_cons]

theorem answers_hole (v : V) : (hole : Fragment O).Answers lang [v] fun _ => v := by
  have hone : "?".toList.count '?' = 1 := by decide
  exact ⟨hone, fun _ _ => rfl⟩

/-- Fragments that have one argument each. -/
theorem flatMap_args {α : Type} (xs : List α) {f : α → Bound O V R} {arg : α → V}
    (h : ∀ x, (f x).args = [arg x]) : (xs.map f).flatMap Bound.args = xs.map arg := by
  induction xs with
  | nil => rfl
  | cons x xs ih => simp [h, ih]

variable {as : List V} {bs : List (Bound O V R)} {x : R → V} {f : Fragment O}

theorem readAll_bound (h : ∀ b ∈ bs, b.Sound lang) (row : R) (rest : List V) :
    readAll lang row (bs.map Bound.fragment) (bs.flatMap Bound.args ++ rest) =
      some (bs.map fun b => b.value row, rest) := by
  induction bs with
  | nil => rfl
  | cons b bs ih =>
    obtain ⟨hb, hbs⟩ := List.forall_mem_cons.1 h
    have hfirst := hb.read row (bs.flatMap Bound.args ++ rest)
    simp [readAll, hfirst, ih hbs]

theorem count_weave {pieces texts : List String} (hpieces : ∀ p ∈ pieces, '?' ∉ p.toList)
    (hlength : pieces.length = texts.length + 1) :
    (weave pieces texts).toList.count '?' = (texts.map fun t => t.toList.count '?').sum := by
  induction texts generalizing pieces with
  | nil =>
    obtain ⟨piece, rfl⟩ := List.length_eq_one_iff.1 hlength
    exact List.count_eq_zero.2 (hpieces piece (List.mem_singleton_self piece))
  | cons text texts ih =>
    cases pieces with
    | nil => cases hlength
    | cons piece pieces =>
      obtain ⟨hpiece, hrest⟩ := List.forall_mem_cons.1 hpieces
      have htail := ih hrest (Nat.succ.inj hlength)
      simp [weave, List.count_eq_zero.2 hpiece, htail]

/-- The operator is written around `n` operands, without a placeholder of its own. -/
structure Plain (lang : Language O V R) (op : O) (n : Nat) : Prop where
  pieces : ∀ p ∈ lang.pieces op n, '?' ∉ p.toList
  length : (lang.pieces op n).length = n + 1

variable {op : O} {value : R → V}

/-- **An operator on fragments** has their placeholders and their arguments, and the value that
it has of theirs. -/
theorem answers_node (h : ∀ b ∈ bs, b.Sound lang) (hplain : Plain lang op bs.length)
    (hvalue : ∀ row, lang.value op row (bs.map fun b => b.value row) = some (value row)) :
    (node op (bs.map Bound.fragment)).Answers lang (bs.flatMap Bound.args) value := by
  constructor
  · have hcounts : (bs.map fun b => (b.fragment.text lang).toList.count '?') =
        bs.map fun b => b.args.length := List.map_congr_left fun b hb => (h b hb).holes
    rw [text, texts_eq_map, List.length_map, count_weave hplain.pieces
      (by simpa using hplain.length), List.map_map, List.map_map, List.length_flatMap]
    exact congrArg List.sum hcounts
  · intro row rest
    rw [read, readAll_bound h, Option.bind_some, hvalue]
    rfl

theorem answers_leaf (hplain : Plain lang op 0)
    (hvalue : ∀ row, lang.value op row [] = some (value row)) :
    (node op []).Answers lang [] value :=
  answers_node (fun _ hb => absurd hb List.not_mem_nil) hplain hvalue

theorem answers_one (hf : f.Answers lang as x) (hplain : Plain lang op 1)
    (hvalue : ∀ row, lang.value op row [x row] = some (value row)) :
    (node op [f]).Answers lang as value := by
  have hsound : ∀ b ∈ [Bound.mk f as x], b.Sound lang := List.forall_mem_singleton.2 hf
  simpa using answers_node hsound hplain hvalue

theorem answers_pair {g : Fragment O} {bs : List V} {y : R → V} (hf : f.Answers lang as x)
    (hg : g.Answers lang bs y) (hplain : Plain lang op 2)
    (hvalue : ∀ row, lang.value op row [x row, y row] = some (value row)) :
    (node op [f, g]).Answers lang (as ++ bs) value := by
  have hsound : ∀ b ∈ [Bound.mk f as x, Bound.mk g bs y], b.Sound lang := by
    simpa [Bound.Sound] using ⟨hf, hg⟩
  simpa using answers_node hsound hplain hvalue

/-- The pieces of a list: what opens it, what stands between two of its `n`, what closes it. -/
def listPieces (opening sep closing : String) : Nat → List String
  | 0 => [opening ++ closing]
  | n + 1 => opening :: (List.replicate n sep ++ [closing])

theorem length_listPieces (opening sep closing : String) (n : Nat) :
    (listPieces opening sep closing n).length = n + 1 := by
  cases n <;> simp [listPieces]

theorem listPieces_plain {opening sep closing : String} (hopening : '?' ∉ opening.toList)
    (hsep : '?' ∉ sep.toList) (hclosing : '?' ∉ closing.toList) {n : Nat} {p : String}
    (hp : p ∈ listPieces opening sep closing n) : '?' ∉ p.toList := by
  cases n with
  | zero =>
    rw [List.mem_singleton.1 hp, String.toList_append, List.mem_append]
    exact fun h => h.elim hopening hclosing
  | succ n =>
    rcases List.mem_cons.1 hp with rfl | hp
    · exact hopening
    · rcases List.mem_append.1 hp with hp | hp
      · exact List.eq_of_mem_replicate hp ▸ hsep
      · exact List.mem_singleton.1 hp ▸ hclosing

end Fragment

end Sluicio.Lib
