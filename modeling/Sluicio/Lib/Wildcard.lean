import Mathlib.Data.List.Infix
import Mathlib.Data.String.Basic

/-!
# Patterns of characters and runs

A pattern has alternatives, and an alternative is a list of atoms: a character, or a run of
any characters.  As a regular expression it is anchored at both ends and its special
characters are escaped.  The text reads back, so a matcher of such texts can be given by its
alternatives.
-/

namespace Sluicio.Lib

inductive Atom where
  | lit (c : Char)
  | run

def atomsMatch : List Atom → List Char → Bool
  | [], text => text.isEmpty
  | .run :: atoms, text => text.tails.any (atomsMatch atoms)
  | .lit c :: atoms, d :: text => c = d && atomsMatch atoms text
  | .lit _ :: _, [] => false

theorem atomsMatch_lits (cs text : List Char) : atomsMatch (cs.map .lit) text ↔ text = cs := by
  induction cs generalizing text with
  | nil =>
    show text.isEmpty = true ↔ _
    rw [List.isEmpty_iff]
  | cons c cs ih =>
    cases text with
    | nil => simp [atomsMatch]
    | cons d text =>
      show (decide (c = d) && atomsMatch (cs.map .lit) text) = true ↔ _
      rw [Bool.and_eq_true, decide_eq_true_eq, ih, List.cons.injEq]
      exact and_congr_left fun _ => eq_comm

section Text

variable (special : Char → Bool)

def Atom.text : Atom → List Char
  | .lit c => if special c then ['\\', c] else [c]
  | .run => ['.', '*']

def atomsText (atoms : List Atom) : List Char := atoms.flatMap (Atom.text special)

/-- The alternatives, separated by bars. -/
def alternativesText (alts : List (List Atom)) : List Char :=
  ['|'].intercalate (alts.map (atomsText special))

/-- The regular expression of the alternatives. -/
def patternText (alts : List (List Atom)) : String :=
  "^(?:" ++ String.ofList (alternativesText special alts) ++ ")$"

/-- The matcher gives the regular expressions of alternatives their meaning. -/
def ReadsPatterns (matcher : String → String → Bool) : Prop :=
  ∀ alts, alts ≠ [] → ∀ text,
    matcher text (patternText special alts) ↔
      ∃ atoms ∈ alts, atomsMatch atoms text.toList

end Text

theorem patternText_eq {ι : Type*} (special : Char → Bool) {render : ι → String}
    {atoms : ι → List Atom} (hrender : ∀ x, (render x).toList = atomsText special (atoms x))
    (xs : List ι) :
    "^(?:" ++ "|".intercalate (xs.map render) ++ ")$" = patternText special (xs.map atoms) := by
  have hmap : (xs.map render).map String.toList = (xs.map atoms).map (atomsText special) := by
    rw [List.map_map, List.map_map]
    exact List.map_congr_left fun x _ => hrender x
  have halts : "|".intercalate (xs.map render) =
      String.ofList (alternativesText special (xs.map atoms)) := by
    rw [← String.toList_inj, String.toList_intercalate, hmap]
    exact String.toList_ofList.symm
  unfold patternText
  rw [halts]

/-! ## Reading it back -/

/-- The alternatives of a text; `cur` are the atoms of the one that is being read. -/
def readAlternatives : List Atom → List Char → List (List Atom)
  | cur, [] => [cur]
  | cur, '|' :: cs => cur :: readAlternatives [] cs
  | cur, '\\' :: c :: cs => readAlternatives (cur ++ [.lit c]) cs
  | cur, '.' :: '*' :: cs => readAlternatives (cur ++ [.run]) cs
  | cur, c :: cs => readAlternatives (cur ++ [.lit c]) cs

structure Escapes (special : Char → Bool) : Prop where
  bar : special '|'
  backslash : special '\\'
  dot : special '.'

section Read

variable {special : Char → Bool}

theorem readAlternatives_plain (hspecial : Escapes special) {c : Char} (hc : special c = false)
    (cur : List Atom) (cs : List Char) :
    readAlternatives cur (c :: cs) = readAlternatives (cur ++ [.lit c]) cs := by
  have hbar : c ≠ '|' := fun h => by rw [h, hspecial.bar] at hc; cases hc
  have hslash : c ≠ '\\' := fun h => by rw [h, hspecial.backslash] at hc; cases hc
  have hdot : c ≠ '.' := fun h => by rw [h, hspecial.dot] at hc; cases hc
  rw [readAlternatives]
  · exact hbar
  · exact fun d ds h => absurd h hslash
  · exact fun ds h => absurd h hdot

theorem readAlternatives_atom (hspecial : Escapes special) (atom : Atom) (cur : List Atom)
    (cs : List Char) :
    readAlternatives cur (atom.text special ++ cs) = readAlternatives (cur ++ [atom]) cs := by
  cases atom with
  | run => rfl
  | lit c =>
    show readAlternatives cur ((if special c then ['\\', c] else [c]) ++ cs) = _
    cases hc : special c with
    | true => rfl
    | false => exact readAlternatives_plain hspecial hc cur cs

theorem readAlternatives_atoms (hspecial : Escapes special) (atoms cur : List Atom)
    (cs : List Char) :
    readAlternatives cur (atomsText special atoms ++ cs) = readAlternatives (cur ++ atoms) cs := by
  induction atoms generalizing cur with
  | nil =>
    rw [List.append_nil]
    rfl
  | cons atom atoms ih =>
    show readAlternatives cur ((atom.text special ++ atomsText special atoms) ++ cs) = _
    rw [List.append_assoc, readAlternatives_atom hspecial, ih, List.append_assoc]
    rfl

theorem readAlternatives_alternativesText (hspecial : Escapes special) {alts : List (List Atom)}
    (halts : alts ≠ []) : readAlternatives [] (alternativesText special alts) = alts := by
  induction alts with
  | nil => exact absurd rfl halts
  | cons first rest ih =>
    cases rest with
    | nil =>
      have hlast := readAlternatives_atoms hspecial first [] []
      rw [List.append_nil] at hlast
      simpa [alternativesText, List.intercalate, readAlternatives] using hlast
    | cons second rest =>
      have hcons : alternativesText special (first :: second :: rest) =
          atomsText special first ++ '|' :: alternativesText special (second :: rest) := by
        simp [alternativesText, List.intercalate]
      rw [hcons, readAlternatives_atoms hspecial, List.nil_append]
      show first :: readAlternatives [] (alternativesText special (second :: rest)) = _
      rw [ih (List.cons_ne_nil _ _)]

/-- The pattern, read as alternatives between its anchors, matches the text. -/
def matchesPattern (text pattern : String) : Bool :=
  (readAlternatives [] (pattern.toList.drop 4).dropLast.dropLast).any fun atoms =>
    atomsMatch atoms text.toList

/-- **Such a matcher gives the patterns their meaning.** -/
theorem readsPatterns_matchesPattern (hspecial : Escapes special) :
    ReadsPatterns special matchesPattern := by
  intro alts halts text
  have hbetween : ((patternText special alts).toList.drop 4).dropLast.dropLast =
      alternativesText special alts := by
    have halts : (String.ofList (alternativesText special alts)).toList =
        alternativesText special alts := String.toList_ofList
    unfold patternText
    rw [String.toList_append, String.toList_append, halts]
    show (('^' :: '(' :: '?' :: ':' :: (alternativesText special alts ++ [')', '$'])).drop
      4).dropLast.dropLast = _
    simp
  unfold matchesPattern
  rw [hbetween, readAlternatives_alternativesText hspecial halts, List.any_eq_true]

end Read

end Sluicio.Lib
