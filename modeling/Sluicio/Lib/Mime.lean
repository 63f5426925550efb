import Mathlib.Data.List.TakeWhile
import Sluicio.Lib.Literal

/-!
# Messages of several parts

A message is lines that end in CRLF.  Its fields are the lines up to the first empty one, a
line that begins with white space being more of the one before; a field of the content type
names a boundary, and the lines that begin with two hyphens and the boundary stand before,
between and, with two hyphens more, behind the parts.  A part is fields and a content again.

`parseMail` reads any text so.  Texts that are joined with a CRLF have the lines of the one
and then those of the other (`crlfLines_append`), and the lines of a part are those up to the
first that begins as the boundary says (`sections_fst`).
-/

namespace Sluicio.Lib.Mime

def cr : UInt8 := 13

def lf : UInt8 := 10

def crlf : Bytes := [cr, lf]

/-! ## Lines -/

/-- One byte more at the front of the first line. -/
def prependByte (b : UInt8) : List Bytes → List Bytes
  | [] => [[b]]
  | line :: lines => (b :: line) :: lines

/-- The lines of a text, that behind the last CRLF with them. -/
def crlfLines : Bytes → List Bytes
  | [] => [[]]
  | [b] => [[b]]
  | a :: b :: rest =>
    if a = cr ∧ b = lf then [] :: crlfLines rest else prependByte a (crlfLines (b :: rest))

def joinLines (lines : List Bytes) : Bytes := crlf.intercalate lines

variable {ls : List Bytes}

theorem prependByte_append (b : UInt8) (hls : ls ≠ []) (ms : List Bytes) :
    prependByte b ls ++ ms = prependByte b (ls ++ ms) := by
  cases ls with
  | nil => exact absurd rfl hls
  | cons l ls => rfl

theorem crlfLines_ne_nil (s : Bytes) : crlfLines s ≠ [] := by
  induction s using crlfLines.induct with
  | case1 => exact List.cons_ne_nil _ _
  | case2 b => exact List.cons_ne_nil _ _
  | case3 a b rest hcrlf ih =>
    rw [crlfLines, if_pos hcrlf]
    exact List.cons_ne_nil _ _
  | case4 a b rest hcrlf ih =>
    rw [crlfLines, if_neg hcrlf]
    cases crlfLines (b :: rest) <;> exact List.cons_ne_nil _ _

/-- **The lines of two texts** that a CRLF joins. -/
theorem crlfLines_append (s t : Bytes) :
    crlfLines (s ++ (crlf ++ t)) = crlfLines s ++ crlfLines t := by
  induction s using crlfLines.induct with
  | case1 => rfl
  | case2 b =>
    have hb : ¬ (b = cr ∧ cr = lf) := fun h => absurd h.2 (by decide)
    show crlfLines (b :: cr :: lf :: t) = [b] :: crlfLines t
    rw [crlfLines, if_neg hb, crlfLines, if_pos ⟨rfl, rfl⟩]
    rfl
  | case3 a b rest hcrlf ih =>
    show crlfLines (a :: b :: (rest ++ (crlf ++ t))) = crlfLines (a :: b :: rest) ++ crlfLines t
    rw [crlfLines, if_pos hcrlf, crlfLines, if_pos hcrlf, ih, List.cons_append]
  | case4 a b rest hcrlf ih =>
    show crlfLines (a :: b :: (rest ++ (crlf ++ t))) = crlfLines (a :: b :: rest) ++ crlfLines t
    rw [crlfLines, if_neg hcrlf, crlfLines, if_neg hcrlf,
      prependByte_append a (crlfLines_ne_nil _), ← ih]
    rfl

theorem crlfLines_of_lf_notMem {s : Bytes} (hs : lf ∉ s) : crlfLines s = [s] := by
  induction s using crlfLines.induct with
  | case1 => rfl
  | case2 b => rfl
  | case3 a b rest hcrlf ih => exact absurd (by simp [hcrlf.2]) hs
  | case4 a b rest hcrlf ih =>
    rw [crlfLines, if_neg hcrlf, ih fun hmem => hs (List.mem_cons_of_mem a hmem)]
    rfl

theorem joinLines_cons (l : Bytes) (hls : ls ≠ []) :
    joinLines (l :: ls) = l ++ (crlf ++ joinLines ls) := by
  cases ls with
  | nil => exact absurd rfl hls
  | cons m ls => simp [joinLines, List.intercalate_cons_cons]

theorem joinLines_prependByte (b : UInt8) (ls : List Bytes) :
    joinLines (prependByte b ls) = b :: joinLines ls := by
  cases ls with
  | nil => rfl
  | cons l ls =>
    by_cases hls : ls = []
    · subst hls
      simp [prependByte, joinLines]
    · rw [prependByte, joinLines_cons _ hls, joinLines_cons _ hls, List.cons_append]

theorem joinLines_crlfLines (s : Bytes) : joinLines (crlfLines s) = s := by
  induction s using crlfLines.induct with
  | case1 => rfl
  | case2 b => simp [crlfLines, joinLines]
  | case3 a b rest hcrlf ih =>
    obtain ⟨rfl, rfl⟩ := hcrlf
    rw [crlfLines, if_pos ⟨rfl, rfl⟩, joinLines_cons _ (crlfLines_ne_nil rest), ih]
    rfl
  | case4 a b rest hcrlf ih => rw [crlfLines, if_neg hcrlf, joinLines_prependByte, ih]

theorem length_joinLines_lt {ms : List Bytes} (hls : ls ≠ []) (hms : ms ≠ []) :
    (joinLines ls).length < (joinLines (ls ++ ms)).length := by
  induction ls with
  | nil => exact absurd rfl hls
  | cons l ls ih =>
    by_cases hrest : ls = []
    · subst hrest
      rw [List.singleton_append, joinLines_cons l hms]
      simp [joinLines, crlf]
    have hmore : ls ++ ms ≠ [] := List.append_ne_nil_of_left_ne_nil hrest ms
    have hlt := ih hrest
    rw [List.cons_append, joinLines_cons l hrest, joinLines_cons l hmore]
    simp only [List.length_append]
    omega

/-! ## Fields -/

/-- The lines up to the first empty one, and those behind it. -/
def splitHead : List Bytes → List Bytes × List Bytes
  | [] => ([], [])
  | l :: ls => if l = [] then ([], ls) else (l :: (splitHead ls).1, (splitHead ls).2)

/-- The line is more of the one before. -/
def Folded (l : Bytes) : Prop := l.head? = some 32 ∨ l.head? = some 9

instance (l : Bytes) : Decidable (Folded l) := inferInstanceAs (Decidable (_ ∨ _))

/-- A line with what is folded below it. -/
def foldOnto (l : Bytes) : List Bytes → List Bytes
  | [] => [l]
  | m :: ms => if Folded m then (l ++ m) :: ms else l :: m :: ms

/-- Each field's lines as one. -/
def unfoldLines : List Bytes → List Bytes
  | [] => []
  | l :: ls => foldOnto l (unfoldLines ls)

/-- A name and a body. -/
abbrev Field := Bytes × Bytes

/-- The name before the colon, and the body behind it and a space. -/
def readField (l : Bytes) : Field :=
  let rest := (l.dropWhile fun b => b ≠ colon).drop 1
  (l.takeWhile fun b => b ≠ colon, if rest.head? = some 32 then rest.drop 1 else rest)

def readFields (ls : List Bytes) : List Field := (unfoldLines ls).map readField

theorem splitHead_append {head : List Bytes} (hhead : ∀ l ∈ head, l ≠ []) (body : List Bytes) :
    splitHead (head ++ [] :: body) = (head, body) := by
  induction head with
  | nil => rfl
  | cons l ls ih =>
    rw [List.forall_mem_cons] at hhead
    rw [List.cons_append, splitHead, if_neg hhead.1, ih hhead.2]

theorem unfoldLines_of_not_folded (hls : ∀ l ∈ ls, ¬ Folded l) : unfoldLines ls = ls := by
  induction ls with
  | nil => rfl
  | cons l ls ih =>
    rw [List.forall_mem_cons] at hls
    rw [unfoldLines, ih hls.2]
    cases ls with
    | nil => rfl
    | cons m ms => rw [foldOnto, if_neg (hls.2 m List.mem_cons_self)]

def fieldLine (f : Field) : Bytes := f.1 ++ (colon :: 32 :: f.2)

/-- A field's name: some bytes, neither a colon nor white space nor the end of a line. -/
def IsName (name : Bytes) : Prop :=
  name ≠ [] ∧ ∀ b ∈ name, b ≠ colon ∧ b ≠ 32 ∧ b ≠ 9 ∧ b ≠ lf

instance (name : Bytes) : Decidable (IsName name) := inferInstanceAs (Decidable (_ ∧ _))

section FieldLine

variable {f : Field}

theorem readField_fieldLine (hname : IsName f.1) : readField (fieldLine f) = f := by
  have hplain : ∀ b ∈ f.1, decide (b ≠ colon) = true := fun b hb =>
    decide_eq_true (hname.2 b hb).1
  have htake : (fieldLine f).takeWhile (fun b => b ≠ colon) = f.1 := by
    rw [fieldLine, List.takeWhile_append_of_pos hplain]
    simp
  have hdrop : (fieldLine f).dropWhile (fun b => b ≠ colon) = colon :: 32 :: f.2 := by
    rw [fieldLine, List.dropWhile_append_of_pos hplain]
    simp
  rw [readField, htake, hdrop]
  rfl

theorem head?_fieldLine (hname : IsName f.1) : ∃ b ∈ f.1, (fieldLine f).head? = some b := by
  obtain ⟨b, name, hb⟩ := List.exists_cons_of_ne_nil hname.1
  exact ⟨b, by rw [hb]; exact List.mem_cons_self, by rw [fieldLine, hb]; rfl⟩

theorem not_folded_fieldLine (hname : IsName f.1) : ¬ Folded (fieldLine f) := by
  obtain ⟨b, hb, hhead⟩ := head?_fieldLine hname
  obtain ⟨-, hspace, htab, -⟩ := hname.2 b hb
  rw [Folded, hhead, Option.some_inj, Option.some_inj]
  exact not_or.2 ⟨hspace, htab⟩

theorem fieldLine_ne_nil (f : Field) : fieldLine f ≠ [] := by
  simp [fieldLine]

theorem lf_notMem_fieldLine (hname : IsName f.1) (hbody : lf ∉ f.2) : lf ∉ fieldLine f := by
  intro hmem
  rw [fieldLine, List.mem_append, List.mem_cons, List.mem_cons] at hmem
  rcases hmem with hmem | hcolon | hspace | hmem
  · exact (hname.2 lf hmem).2.2.2 rfl
  · exact absurd hcolon (by decide)
  · exact absurd hspace (by decide)
  · exact hbody hmem

end FieldLine

theorem readFields_fieldLines {fs : List Field} (hnames : ∀ f ∈ fs, IsName f.1) :
    readFields (fs.map fieldLine) = fs := by
  have hplain : ∀ l ∈ fs.map fieldLine, ¬ Folded l := by
    intro l hl
    obtain ⟨f, hf, rfl⟩ := List.mem_map.1 hl
    exact not_folded_fieldLine (hnames f hf)
  have hread : ∀ f ∈ fs, (readField ∘ fieldLine) f = id f := fun f hf =>
    readField_fieldLine (hnames f hf)
  rw [readFields, unfoldLines_of_not_folded hplain, List.map_map, List.map_congr_left hread,
    List.map_id]

def fieldText (fs : List Field) : Bytes := fs.flatMap fun f => fieldLine f ++ crlf

theorem crlfLines_fieldText {fs : List Field} (hnames : ∀ f ∈ fs, IsName f.1)
    (hbodies : ∀ f ∈ fs, lf ∉ f.2) (body : Bytes) :
    crlfLines (fieldText fs ++ body) = fs.map fieldLine ++ crlfLines body := by
  induction fs with
  | nil => rfl
  | cons f fs ih =>
    rw [List.forall_mem_cons] at hnames hbodies
    have hline := crlfLines_of_lf_notMem (lf_notMem_fieldLine hnames.1 hbodies.1)
    rw [fieldText, List.flatMap_cons, List.append_assoc, List.append_assoc, crlfLines_append,
      hline, ← fieldText, ih hnames.2 hbodies.2]
    rfl

/-- `--` and the boundary. -/
def dashed (boundary : Bytes) : Bytes := 45 :: 45 :: boundary

/-- The line begins as the boundary says.  It need not end there. -/
def Delimits (boundary l : Bytes) : Prop := dashed boundary <+: l

/-- The line is behind the last part. -/
def Closes (boundary l : Bytes) : Prop := dashed boundary ++ [45, 45] <+: l

instance (boundary l : Bytes) : Decidable (Delimits boundary l) :=
  inferInstanceAs (Decidable (_ <+: _))
instance (boundary l : Bytes) : Decidable (Closes boundary l) :=
  inferInstanceAs (Decidable (_ <+: _))

/-- The lines before the first delimiter, and those of each part. -/
def sections (boundary : Bytes) : List Bytes → List Bytes × List (List Bytes)
  | [] => ([], [])
  | l :: ls =>
    if Closes boundary l then ([], [])
    else if Delimits boundary l then ([], (sections boundary ls).1 :: (sections boundary ls).2)
    else (l :: (sections boundary ls).1, (sections boundary ls).2)

theorem Closes.delimits {boundary l : Bytes} (h : Closes boundary l) : Delimits boundary l :=
  (List.prefix_append _ _).trans h

section Sections

variable {boundary : Bytes}

/-- **The first part ends** at the first line that begins as the boundary says, whoever wrote
it. -/
theorem sections_fst (ls : List Bytes) :
    (sections boundary ls).1 = ls.takeWhile fun l => ¬ Delimits boundary l := by
  induction ls with
  | nil => rfl
  | cons l ls ih =>
    rw [sections, List.takeWhile_cons]
    by_cases hdelimits : Delimits boundary l
    · by_cases hcloses : Closes boundary l <;> simp [hcloses, hdelimits]
    · have hcloses : ¬ Closes boundary l := fun h => hdelimits h.delimits
      simp [hcloses, hdelimits, ih]

theorem sections_snd_append {ls : List Bytes} (hls : ∀ l ∈ ls, ¬ Delimits boundary l)
    (ms : List Bytes) : (sections boundary (ls ++ ms)).2 = (sections boundary ms).2 := by
  induction ls with
  | nil => rfl
  | cons l ls ih =>
    rw [List.forall_mem_cons] at hls
    have hcloses : ¬ Closes boundary l := fun h => hls.1 h.delimits
    rw [List.cons_append, sections, if_neg hcloses, if_neg hls.1]
    exact ih hls.2

theorem not_closes_dashed (boundary : Bytes) : ¬ Closes boundary (dashed boundary) := by
  intro h
  have hlen := h.length_le
  rw [List.length_append] at hlen
  simp only [List.length_cons, List.length_nil] at hlen
  omega

theorem sections_dashed (ls : List Bytes) :
    (sections boundary (dashed boundary :: ls)).2 =
      (sections boundary ls).1 :: (sections boundary ls).2 := by
  have hdelimits : Delimits boundary (dashed boundary) := List.prefix_refl _
  rw [sections, if_neg (not_closes_dashed boundary), if_pos hdelimits]

theorem sections_close (ls : List Bytes) :
    sections boundary ((dashed boundary ++ [45, 45]) :: ls) = ([], []) := by
  have hcloses : Closes boundary (dashed boundary ++ [45, 45]) := List.prefix_refl _
  rw [sections, if_pos hcloses]

end Sections

/-- A part: its fields and its content. -/
structure Part where
  fields : List Field
  content : Bytes
  deriving DecidableEq

structure Mail where
  fields : List Field
  parts : List Part
  deriving DecidableEq

def readPart (ls : List Bytes) : Part where
  fields := readFields (splitHead ls).1
  content := joinLines (splitHead ls).2

/-- What stands behind the first occurrence of a text. -/
def behind (p : Bytes) : Bytes → Option Bytes
  | [] => if p = [] then some [] else none
  | b :: bs => if p <+: b :: bs then some ((b :: bs).drop p.length) else behind p bs

/-- The boundary that a content type names, up to the closing quote. -/
def boundaryOf (contentType : Bytes) : Option Bytes :=
  (behind (ascii "boundary=\"") contentType).map fun rest => rest.takeWhile fun b => b ≠ 34

/-- The fields of a message and, where they name a boundary, its parts. -/
def parseMail (raw : Bytes) : Mail :=
  let head := splitHead (crlfLines raw)
  let fields := readFields head.1
  { fields := fields
    parts :=
      match (fields.lookup (ascii "Content-Type")).bind boundaryOf with
      | some boundary => (sections boundary head.2).2.map readPart
      | none => [] }

/-! ## Writing a message -/

def partText (p : Part) : Bytes := fieldText p.fields ++ (crlf ++ p.content)

/-- The parts between delimiters, and the line behind them. -/
def partsText (boundary : Bytes) : List Part → Bytes
  | [] => dashed boundary ++ [45, 45] ++ crlf
  | p :: ps =>
    dashed boundary ++ (crlf ++ (partText p ++ (crlf ++ partsText boundary ps)))

/-- A message with its fields and its parts. -/
def mailText (boundary : Bytes) (m : Mail) : Bytes :=
  fieldText m.fields ++ (crlf ++ partsText boundary m.parts)

/-- The fields can be written a line each, and none of the lines is a delimiter's. -/
structure Writable (boundary : Bytes) (fs : List Field) : Prop where
  names : ∀ f ∈ fs, IsName f.1
  bodies : ∀ f ∈ fs, lf ∉ f.2
  plain : ∀ f ∈ fs, ¬ Delimits boundary (fieldLine f)

/-- No line of the content begins as the boundary says. -/
def Undelimited (boundary content : Bytes) : Prop :=
  ∀ l ∈ crlfLines content, ¬ Delimits boundary l

section Parts

variable {boundary : Bytes}

def partLines (p : Part) : List Bytes := p.fields.map fieldLine ++ [] :: crlfLines p.content

/-- The lines of what `partsText` writes. -/
def partsLines (boundary : Bytes) : List Part → List Bytes
  | [] => [dashed boundary ++ [45, 45], []]
  | p :: ps => dashed boundary :: (partLines p ++ partsLines boundary ps)

variable {p : Part} {ps : List Part}

theorem crlfLines_partText (hp : Writable boundary p.fields) (rest : Bytes) :
    crlfLines (partText p ++ (crlf ++ rest)) = partLines p ++ crlfLines rest := by
  have hempty := crlfLines_append [] p.content
  rw [crlfLines_append, partText, crlfLines_fieldText hp.names hp.bodies]
  show _ ++ crlfLines ([] ++ (crlf ++ p.content)) ++ _ = _
  rw [hempty]
  rfl

theorem crlfLines_partsText (hboundary : lf ∉ boundary)
    (hps : ∀ p ∈ ps, Writable boundary p.fields) :
    crlfLines (partsText boundary ps) = partsLines boundary ps := by
  have hdashed : lf ∉ dashed boundary := by
    intro hmem
    rcases List.mem_cons.1 hmem with hdash | hmem
    · exact absurd hdash (by decide)
    · rcases List.mem_cons.1 hmem with hdash | hmem
      · exact absurd hdash (by decide)
      · exact hboundary hmem
  induction ps with
  | nil =>
    have hclose : lf ∉ dashed boundary ++ [45, 45] := by
      rw [List.mem_append]
      exact not_or.2 ⟨hdashed, by decide⟩
    have hend := crlfLines_append (dashed boundary ++ [45, 45]) []
    rw [List.append_nil] at hend
    rw [partsText, hend, crlfLines_of_lf_notMem hclose]
    rfl
  | cons p ps ih =>
    rw [List.forall_mem_cons] at hps
    rw [partsText, crlfLines_append, crlfLines_of_lf_notMem hdashed, crlfLines_partText hps.1,
      ih hps.2]
    rfl

theorem exists_partsLines (boundary : Bytes) (ps : List Part) :
    ∃ l ls, partsLines boundary ps = l :: ls ∧ Delimits boundary l := by
  cases ps with
  | nil => exact ⟨_, _, rfl, List.prefix_append _ _⟩
  | cons p ps => exact ⟨_, _, rfl, List.prefix_refl _⟩

/-- The lines of a content up to a delimiter. -/
def uncut (boundary content : Bytes) : List Bytes :=
  (crlfLines content).takeWhile fun l => ¬ Delimits boundary l

/-- The lines that are read as the first part: its fields, and its content up to the first line
that is taken for a delimiter. -/
theorem sections_partLines (hp : Writable boundary p.fields) (ps : List Part) :
    (sections boundary (partLines p ++ partsLines boundary ps)).1 =
      p.fields.map fieldLine ++ [] :: uncut boundary p.content := by
  have hfields : ∀ l ∈ p.fields.map fieldLine, decide (¬ Delimits boundary l) = true := by
    intro l hl
    obtain ⟨f, hf, rfl⟩ := List.mem_map.1 hl
    exact decide_eq_true (hp.plain f hf)
  have hempty : ¬ Delimits boundary [] := by simp [Delimits, dashed]
  obtain ⟨l, ls, hnext, hdelimits⟩ := exists_partsLines boundary ps
  rw [uncut, sections_fst, partLines, List.append_assoc, List.takeWhile_append_of_pos hfields,
    List.cons_append, List.takeWhile_cons, if_pos (decide_eq_true hempty), List.takeWhile_append,
    hnext]
  split_ifs with hall
  · rw [List.takeWhile_cons, if_neg (by simpa using hdelimits), List.append_nil,
      (List.takeWhile_prefix _).eq_of_length hall]
  · rfl

theorem readPart_lines {fs : List Field} (hfs : ∀ f ∈ fs, IsName f.1) (content : List Bytes) :
    readPart (fs.map fieldLine ++ [] :: content) = ⟨fs, joinLines content⟩ := by
  have hlines : ∀ l ∈ fs.map fieldLine, l ≠ [] := by
    intro l hl
    obtain ⟨f, -, rfl⟩ := List.mem_map.1 hl
    exact fieldLine_ne_nil f
  rw [readPart, splitHead_append hlines, readFields_fieldLines hfs]

theorem uncut_eq_iff (boundary content : Bytes) :
    uncut boundary content = crlfLines content ↔ Undelimited boundary content := by
  rw [uncut, List.takeWhile_eq_self_iff]
  constructor
  · intro h l hl
    exact of_decide_eq_true (h l hl)
  · intro h l hl
    exact decide_eq_true (h l hl)

theorem joinLines_uncut_iff (boundary content : Bytes) :
    joinLines (uncut boundary content) = content ↔ Undelimited boundary content := by
  rw [← uncut_eq_iff]
  constructor
  · intro hsame
    obtain ⟨rest, hrest⟩ : ∃ rest, uncut boundary content ++ rest = crlfLines content :=
      List.takeWhile_prefix _
    by_contra hcut
    have hne : rest ≠ [] := by
      rintro rfl
      exact hcut (by rw [← hrest, List.append_nil])
    by_cases hnil : uncut boundary content = []
    · -- nothing is left of a content that begins with a delimiter, and it is not empty
      rw [hnil] at hsame
      subst hsame
      exact absurd hnil (by simp [uncut, joinLines, crlfLines, Delimits, dashed])
    · have hlt := length_joinLines_lt hnil hne
      rw [hrest, hsame, joinLines_crlfLines] at hlt
      exact absurd hlt (Nat.lt_irrefl _)
  · intro hall
    rw [hall, joinLines_crlfLines]

theorem sections_partLines_snd (hp : Writable boundary p.fields)
    (hcontent : Undelimited boundary p.content) (ps : List Part) :
    (sections boundary (partLines p ++ partsLines boundary ps)).2 =
      (sections boundary (partsLines boundary ps)).2 := by
  apply sections_snd_append
  intro l hl
  rcases List.mem_append.1 hl with hfield | hbody
  · obtain ⟨f, hf, rfl⟩ := List.mem_map.1 hfield
    exact hp.plain f hf
  · rcases List.mem_cons.1 hbody with rfl | hline
    · simp [Delimits, dashed]
    · exact hcontent l hline

/-- **The parts are read as they were written** just when no content holds a line that begins as
the boundary says. -/
theorem readParts_iff (hps : ∀ p ∈ ps, Writable boundary p.fields) :
    (sections boundary (partsLines boundary ps)).2.map readPart = ps ↔
      ∀ p ∈ ps, Undelimited boundary p.content := by
  induction ps with
  | nil =>
    rw [partsLines, sections_close]
    simp
  | cons p ps ih =>
    rw [List.forall_mem_cons] at hps
    rw [partsLines, sections_dashed, sections_partLines hps.1, List.map_cons,
      readPart_lines hps.1.names, List.forall_mem_cons]
    constructor
    · intro hread
      obtain ⟨hhead, htail⟩ := List.cons.inj hread
      have hcontent := (joinLines_uncut_iff boundary p.content).1 (congrArg Part.content hhead)
      rw [sections_partLines_snd hps.1 hcontent] at htail
      exact ⟨hcontent, (ih hps.2).1 htail⟩
    · intro hplain
      rw [sections_partLines_snd hps.1 hplain.1, (ih hps.2).2 hplain.2]
      exact congrArg (· :: ps) (congrArg (Part.mk p.fields)
        ((joinLines_uncut_iff boundary p.content).2 hplain.1))

/-- **A message is read as it was written** just when no content of its parts holds a line that
begins as the boundary says. -/
theorem parseMail_mailText_iff {m : Mail} (hboundary : lf ∉ boundary)
    (hnames : ∀ f ∈ m.fields, IsName f.1) (hbodies : ∀ f ∈ m.fields, lf ∉ f.2)
    (htype : (m.fields.lookup (ascii "Content-Type")).bind boundaryOf = some boundary)
    (hparts : ∀ p ∈ m.parts, Writable boundary p.fields) :
    parseMail (mailText boundary m) = m ↔ ∀ p ∈ m.parts, Undelimited boundary p.content := by
  have hlines : crlfLines (mailText boundary m) =
      m.fields.map fieldLine ++ [] :: partsLines boundary m.parts := by
    have hempty := crlfLines_append [] (partsText boundary m.parts)
    rw [List.nil_append] at hempty
    rw [mailText, crlfLines_fieldText hnames hbodies, hempty, crlfLines_partsText hboundary hparts]
    rfl
  have hlines' : ∀ l ∈ m.fields.map fieldLine, l ≠ [] := by
    intro l hl
    obtain ⟨f, -, rfl⟩ := List.mem_map.1 hl
    exact fieldLine_ne_nil f
  rw [parseMail, hlines, splitHead_append hlines', readFields_fieldLines hnames, htype]
  rw [← readParts_iff hparts]
  constructor
  · intro h
    exact congrArg Mail.parts h
  · intro h
    exact congrArg (Mail.mk m.fields) h

end Parts

end Sluicio.Lib.Mime
