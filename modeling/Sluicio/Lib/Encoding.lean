import Mathlib.Algebra.Group.Nat.Defs
import Mathlib.Data.List.DropRight
import Sluicio.Lib.Zone

/-!
# Texts that stand for values

What a program prints in order to hash or to compare must be read back in one way only.
Here are the texts of numbers, of instants and of bytes, and lists of texts written one
after another with a terminator behind each.  Every one comes with the fact that says
when two values have the same text.
-/

namespace Sluicio.Lib

section Terminated

variable {α : Type*}

/-- The parts one after another, each followed by `sep`. -/
def terminated (sep : α) (parts : List (List α)) : List α :=
  parts.flatMap (· ++ [sep])

@[simp] theorem terminated_nil (sep : α) : terminated sep [] = [] := rfl

@[simp] theorem terminated_cons (sep : α) (p : List α) (ps : List (List α)) :
    terminated sep (p :: ps) = p ++ sep :: terminated sep ps := by
  simp [terminated]

variable [DecidableEq α]

variable {a x y b : List α} {sep : α}

/-- A part is read back as soon as it is known how often `sep` occurs in it. -/
theorem append_sep_inj (hcount : a.count sep = b.count sep) (h : a ++ sep :: x = b ++ sep :: y) :
    a = b ∧ x = y := by
  induction a generalizing b with
  | nil =>
    cases b with
    | nil => simpa using h
    | cons c b =>
      have hc : sep = c := by simp at h; exact h.1
      simp [hc] at hcount
  | cons d a ih =>
    cases b with
    | nil =>
      have hd : d = sep := by simp at h; exact h.1
      simp [hd] at hcount
    | cons c b =>
      have hcons : d = c ∧ a ++ sep :: x = b ++ sep :: y := by simpa using h
      have hcount' : a.count sep = b.count sep := by
        simpa [List.count_cons, hcons.1] using hcount
      have hrest := ih hcount' hcons.2
      exact ⟨by rw [hcons.1, hrest.1], hrest.2⟩

theorem append_sep_inj_of_notMem (ha : sep ∉ a) (hb : sep ∉ b) (h : a ++ sep :: x = b ++ sep :: y) :
    a = b ∧ x = y := by
  apply append_sep_inj _ h
  rw [List.count_eq_zero_of_not_mem ha, List.count_eq_zero_of_not_mem hb]

theorem terminated_inj {ps qs : List (List α)}
    (hcount : ps.map (List.count sep) = qs.map (List.count sep))
    (h : terminated sep ps = terminated sep qs) : ps = qs := by
  induction ps generalizing qs with
  | nil =>
    cases qs with
    | nil => rfl
    | cons q qs => simp at hcount
  | cons p ps ih =>
    cases qs with
    | nil => simp at hcount
    | cons q qs =>
      simp only [List.map_cons, List.cons.injEq] at hcount
      simp only [terminated_cons] at h
      have hhead := append_sep_inj hcount.1 h
      rw [hhead.1, ih hcount.2 hhead.2]

end Terminated

section Framed

variable {α : Type*}

/-- The parts one after another, each behind its length and `sep`. -/
def framed (digits : Nat → List α) (sep : α) (parts : List (List α)) : List α :=
  parts.flatMap fun part => digits part.length ++ sep :: part

@[simp] theorem framed_nil (digits : Nat → List α) (sep : α) : framed digits sep [] = [] := rfl

@[simp] theorem framed_cons (digits : Nat → List α) (sep : α) (part : List α)
    (parts : List (List α)) :
    framed digits sep (part :: parts) =
      digits part.length ++ sep :: (part ++ framed digits sep parts) := by
  simp [framed]

variable [DecidableEq α] {digits : Nat → List α} {sep : α}

/-- The parts are read back, whatever stands in them: a length ends at the first `sep`, and the
part where the length says. -/
theorem framed_injective (hdigits : Function.Injective digits) (hsep : ∀ n, sep ∉ digits n) :
    Function.Injective (framed digits sep) := by
  intro parts
  induction parts with
  | nil =>
    intro others h
    cases others with
    | nil => rfl
    | cons other others => simp at h
  | cons part parts ih =>
    intro others h
    cases others with
    | nil => simp at h
    | cons other others =>
      rw [framed_cons, framed_cons] at h
      have hread := append_sep_inj_of_notMem (hsep _) (hsep _) h
      have hpart := List.append_inj hread.2 (hdigits hread.1)
      rw [hpart.1, ih hpart.2]

end Framed

/-! ## Numbers -/

/-- The decimal digits of a number, with zeros in front up to a width. -/
def padded (width n : Nat) : List Char :=
  List.replicate (width - (Nat.toDigits 10 n).length) '0' ++ Nat.toDigits 10 n

variable {c : Char} {m width n : Nat}

theorem padded_injective (width : Nat) (h : padded width m = padded width n) : m = n := by
  have hvalue : ∀ k, Nat.ofDigitChars 10 (padded width k) 0 = k := by
    intro k
    rw [padded, Nat.ofDigitChars_append, Nat.ofDigitChars_replicate_zero, Nat.mul_zero,
      Nat.ofDigitChars_ten_toDigits]
  calc
    m = Nat.ofDigitChars 10 (padded width m) 0 := (hvalue m).symm
    _ = Nat.ofDigitChars 10 (padded width n) 0 := by rw [h]
    _ = n := hvalue n

theorem isDigit_of_mem_padded (h : c ∈ padded width n) : c.isDigit := by
  rcases List.mem_append.mp h with hzero | hdigit
  · rw [List.eq_of_mem_replicate hzero]
    decide
  · exact Nat.isDigit_of_mem_toDigits (by decide) (by decide) hdigit

theorem length_padded (hw : 0 < width) (hn : n < 10 ^ width) : (padded width n).length = width := by
  have hlen : (Nat.toDigits 10 n).length ≤ width :=
    (Nat.length_toDigits_le_iff (by decide) hw).mpr hn
  rw [padded, List.length_append, List.length_replicate]
  omega

/-- A number with its sign, the digits padded to a width. -/
def paddedInt (width : Nat) : Int → List Char
  | .ofNat n => padded width n
  | .negSucc n => '-' :: padded width (n + 1)

theorem paddedInt_injective (width : Nat) {m n : Int}
    (h : paddedInt width m = paddedInt width n) : m = n := by
  -- a sign is no digit
  have hsign : ∀ k l : Nat, padded width k ≠ '-' :: padded width l := by
    intro k l heq
    have hmem : '-' ∈ padded width k := by rw [heq]; exact List.mem_cons_self
    exact absurd (isDigit_of_mem_padded hmem) (by decide)
  cases m with
  | ofNat m =>
    cases n with
    | ofNat n => rw [padded_injective width h]
    | negSucc n => exact absurd h (hsign m (n + 1))
  | negSucc m =>
    cases n with
    | ofNat n => exact absurd h.symm (hsign n (m + 1))
    | negSucc n =>
      have hsucc := padded_injective width (List.cons.inj h).2
      rw [Nat.succ.inj hsucc]

theorem notMem_paddedInt {n : Int} (hsign : c ≠ '-') (hdigit : c.isDigit = false) :
    c ∉ paddedInt width n := by
  intro hc
  have hpadded : ∀ k, c ∉ padded width k := by
    intro k hmem
    rw [isDigit_of_mem_padded hmem] at hdigit
    exact absurd hdigit (by decide)
  cases n with
  | ofNat n => exact hpadded n hc
  | negSucc n =>
    rcases List.mem_cons.mp hc with heq | hmem
    · exact hsign heq
    · exact hpadded _ hmem

/-! ## Instants -/

/-- The fraction of a second in nanoseconds, without the zeros at its end; nothing when
there are only zeros. -/
def fraction (nanos : Nat) : List Char :=
  let digits := (padded 9 nanos).rdropWhile (· = '0')
  if digits = [] then [] else '.' :: digits

private theorem rdropWhile_zero_inj {a b : List Char} (hlen : a.length = b.length)
    (h : a.rdropWhile (· = '0') = b.rdropWhile (· = '0')) : a = b := by
  have hsplit : ∀ l : List Char, l = l.rdropWhile (· = '0') ++
      List.replicate (l.length - (l.rdropWhile (· = '0')).length) '0' := by
    intro l
    induction l using List.reverseRecOn with
    | nil => rfl
    | append_singleton l c ih =>
      by_cases hc : c = '0'
      · have hle : (l.rdropWhile (· = '0')).length ≤ l.length :=
          (List.rdropWhile_prefix _ l).length_le
        rw [List.rdropWhile_concat_pos _ _ _ (by simpa using hc), List.length_append,
          List.length_singleton,
          show l.length + 1 - (l.rdropWhile (· = '0')).length =
            l.length - (l.rdropWhile (· = '0')).length + 1 by omega,
          List.replicate_succ', ← List.append_assoc, ← ih, hc]
      · rw [List.rdropWhile_concat_neg _ _ _ (by simpa using hc)]
        simp
  rw [hsplit a, hsplit b, h, hlen]

theorem fraction_injective (hm : m < 10 ^ 9) (hn : n < 10 ^ 9) (h : fraction m = fraction n) :
    m = n := by
  have hdrop : (padded 9 m).rdropWhile (· = '0') = (padded 9 n).rdropWhile (· = '0') := by
    unfold fraction at h
    by_cases hm0 : (padded 9 m).rdropWhile (· = '0') = []
    · by_cases hn0 : (padded 9 n).rdropWhile (· = '0') = []
      · rw [hm0, hn0]
      · simp [hm0, hn0] at h
    · by_cases hn0 : (padded 9 n).rdropWhile (· = '0') = []
      · simp [hm0, hn0] at h
      · simpa [hm0, hn0] using h
  have hlen : (padded 9 m).length = (padded 9 n).length := by
    rw [length_padded (by decide) hm, length_padded (by decide) hn]
  exact padded_injective 9 (rdropWhile_zero_inj hlen hdrop)

/-- A time of the day, in microseconds: hours, minutes and seconds, then the fraction. -/
def clockText (micros : Nat) : List Char :=
  padded 2 (micros / 3600000000) ++ ':' :: padded 2 (micros / 60000000 % 60) ++
    ':' :: padded 2 (micros / 1000000 % 60) ++ fraction (micros % 1000000 * 1000)

theorem clockText_injective (hm : m < 86400000000) (hn : n < 86400000000)
    (h : clockText m = clockText n) : m = n := by
  have hlen : ∀ k, k < 100 → (padded 2 k).length = 2 := by
    intro k hk
    exact length_padded (by decide) (by omega)
  unfold clockText at h
  have hfrac := List.append_inj h (by
    simp only [List.length_append, List.length_cons]
    rw [hlen _ (by omega), hlen _ (by omega), hlen _ (by omega), hlen _ (by omega),
      hlen _ (by omega), hlen _ (by omega)])
  have hsec := List.append_inj hfrac.1 (by
    simp only [List.length_append, List.length_cons]
    rw [hlen _ (by omega), hlen _ (by omega), hlen _ (by omega), hlen _ (by omega)])
  have hmin := List.append_inj hsec.1 (by rw [hlen _ (by omega), hlen _ (by omega)])
  have hours := padded_injective 2 hmin.1
  have minutes := padded_injective 2 (List.cons.inj hmin.2).2
  have seconds := padded_injective 2 (List.cons.inj hsec.2).2
  have nanos := fraction_injective (by omega) (by omega) hfrac.2
  omega

/-- RFC 3339 with nanoseconds, of an instant in microseconds since 1970, in UTC. -/
def rfc3339Nano (t : Int) : List Char :=
  let date := civil (t / 86400000000)
  paddedInt 4 date.1 ++ '-' :: padded 2 date.2.1.toNat ++ '-' :: padded 2 date.2.2.toNat ++
    'T' :: clockText (t % 86400000000).toNat ++ ['Z']

example : rfc3339Nano 1783837227457834 = "2026-07-12T06:20:27.457834Z".toList := by decide

theorem rfc3339Nano_injective {s t : Int} (h : rfc3339Nano s = rfc3339Nano t) : s = t := by
  have hs := civil_bounds (s / 86400000000)
  have ht := civil_bounds (t / 86400000000)
  have hday : ofCivil (civil (s / 86400000000)).1 (civil (s / 86400000000)).2.1
      (civil (s / 86400000000)).2.2 = s / 86400000000 := ofCivil_civil _
  have hday' : ofCivil (civil (t / 86400000000)).1 (civil (t / 86400000000)).2.1
      (civil (t / 86400000000)).2.2 = t / 86400000000 := ofCivil_civil _
  have hlen : ∀ k, k < 100 → (padded 2 k).length = 2 := by
    intro k hk
    exact length_padded (by decide) (by omega)
  unfold rfc3339Nano at h
  generalize civil (s / 86400000000) = a at *
  generalize civil (t / 86400000000) = b at *
  have hbody := List.append_cancel_right h
  have hnodigit : ∀ d : Int × Int × Int, 'T' ∉ paddedInt 4 d.1 ++
      '-' :: padded 2 d.2.1.toNat ++ '-' :: padded 2 d.2.2.toNat := by
    intro d hmem
    have hpadded : ∀ k, 'T' ∉ padded 2 k := by
      intro k hk
      exact absurd (isDigit_of_mem_padded hk) (by decide)
    simp [hpadded, notMem_paddedInt (show 'T' ≠ '-' by decide) (by decide)] at hmem
  have hsplit := append_sep_inj_of_notMem (hnodigit a) (hnodigit b) hbody
  have hd := List.append_inj' hsplit.1 (by
    simp only [List.length_cons]
    rw [hlen _ (by omega), hlen _ (by omega)])
  have hm := List.append_inj' hd.1 (by
    simp only [List.length_cons]
    rw [hlen _ (by omega), hlen _ (by omega)])
  have year := paddedInt_injective 4 hm.1
  have month := padded_injective 2 (List.cons.inj hm.2).2
  have day := padded_injective 2 (List.cons.inj hd.2).2
  have clock := clockText_injective (by omega) (by omega) hsplit.2
  have hmonth : a.2.1 = b.2.1 := by omega
  have hdom : a.2.2 = b.2.2 := by omega
  have hdays : s / 86400000000 = t / 86400000000 := by
    rw [← hday, ← hday', year, hmonth, hdom]
  omega

/-! ## Hexadecimal -/

/-- The number that hexadecimal digits stand for. -/
def ofHexDigits (digits : List Char) : Nat :=
  digits.foldl (fun n c => 16 * n + "0123456789abcdef".toList.idxOf c) 0

private theorem ofHexDigits_concat (digits : List Char) {d : Nat} (hd : d < 16) :
    ofHexDigits (digits ++ [d.digitChar]) = 16 * ofHexDigits digits + d := by
  have hvalue : ∀ d < 16,
      "0123456789abcdef".toList.idxOf d.digitChar = d := by decide
  rw [ofHexDigits, List.foldl_append, List.foldl_cons, List.foldl_nil, hvalue d hd]
  rfl

theorem ofHexDigits_toDigits (n : Nat) : ofHexDigits (Nat.toDigits 16 n) = n := by
  induction n using Nat.strongRecOn with
  | ind n ih =>
    by_cases hn : n < 16
    · rw [Nat.toDigits_of_lt_base hn]
      have hlast := ofHexDigits_concat [] hn
      simpa [ofHexDigits] using hlast
    · rw [Nat.toDigits_of_base_le (by decide) (by omega),
        ofHexDigits_concat _ (Nat.mod_lt n (by decide)), ih (n / 16) (by omega)]
      omega

private theorem ofHexDigits_zeros (k : Nat) (digits : List Char) :
    ofHexDigits (List.replicate k '0' ++ digits) = ofHexDigits digits := by
  induction k with
  | zero => rfl
  | succ k ih =>
    have hzero : "0123456789abcdef".toList.idxOf '0' = 0 := by decide
    rw [List.replicate_succ, List.cons_append, ofHexDigits, List.foldl_cons, hzero]
    exact ih

/-- The 32 digits of a 128-bit identifier in groups of 8, 4, 4, 4 and 12. -/
def groupedHex (n : Nat) : List Char :=
  let digits := List.replicate (32 - (Nat.toDigits 16 n).length) '0' ++ Nat.toDigits 16 n
  digits.take 8 ++ '-' :: (digits.drop 8).take 4 ++ '-' :: (digits.drop 12).take 4 ++
    '-' :: (digits.drop 16).take 4 ++ '-' :: digits.drop 20

private theorem mem_toDigits_sixteen (n : Nat) :
    ∀ c ∈ Nat.toDigits 16 n, c ∈ "0123456789abcdef".toList := by
  have hdigit : ∀ d < 16, d.digitChar ∈ "0123456789abcdef".toList := by decide
  induction n using Nat.strongRecOn with
  | ind n ih =>
    by_cases hn : n < 16
    · rw [Nat.toDigits_of_lt_base hn]
      simpa using hdigit n hn
    have hlast : n % 16 < 16 := Nat.mod_lt n (by decide)
    rw [Nat.toDigits_of_base_le (by decide) (by omega)]
    intro c hc
    rcases List.mem_append.1 hc with hc | hc
    · exact ih (n / 16) (by omega) c hc
    · rw [List.mem_singleton.1 hc]
      exact hdigit (n % 16) hlast

theorem mem_groupedHex (h : c ∈ groupedHex n) : c ∈ "-0123456789abcdef".toList := by
  have hdigits : ∀ d ∈ List.replicate (32 - (Nat.toDigits 16 n).length) '0' ++ Nat.toDigits 16 n,
      d ∈ "-0123456789abcdef".toList := by
    intro d hd
    have hsub : "0123456789abcdef".toList ⊆ "-0123456789abcdef".toList :=
      List.subset_cons_self '-' _
    rcases List.mem_append.1 hd with hd | hd
    · rw [List.eq_of_mem_replicate hd]
      decide
    · exact hsub (mem_toDigits_sixteen n d hd)
  have hdash : '-' ∈ "-0123456789abcdef".toList := by decide
  simp only [groupedHex, List.mem_append, List.mem_cons] at h
  rcases h with (((h | rfl | h) | rfl | h) | rfl | h) | rfl | h
  · exact hdigits c (List.mem_of_mem_take h)
  · exact hdash
  · exact hdigits c (List.mem_of_mem_drop (List.mem_of_mem_take h))
  · exact hdash
  · exact hdigits c (List.mem_of_mem_drop (List.mem_of_mem_take h))
  · exact hdash
  · exact hdigits c (List.mem_of_mem_drop (List.mem_of_mem_take h))
  · exact hdash
  · exact hdigits c (List.mem_of_mem_drop h)

theorem groupedHex_injective (h : groupedHex m = groupedHex n) : m = n := by
  have hvalue : ∀ k, ofHexDigits (List.replicate (32 - (Nat.toDigits 16 k).length) '0' ++
      Nat.toDigits 16 k) = k := by
    intro k
    rw [ofHexDigits_zeros, ofHexDigits_toDigits]
  have hlen : ∀ k, 32 ≤ (List.replicate (32 - (Nat.toDigits 16 k).length) '0' ++
      Nat.toDigits 16 k).length := by
    intro k
    rw [List.length_append, List.length_replicate]
    omega
  have hm := hlen m
  have hn := hlen n
  rw [← hvalue m, ← hvalue n]
  unfold groupedHex at h
  generalize List.replicate (32 - (Nat.toDigits 16 m).length) '0' ++ Nat.toDigits 16 m = a at *
  generalize List.replicate (32 - (Nat.toDigits 16 n).length) '0' ++ Nat.toDigits 16 n = b at *
  have h4 := List.append_inj h (by simp; omega)
  have h3 := List.append_inj h4.1 (by simp; omega)
  have h2 := List.append_inj h3.1 (by simp; omega)
  have h1 := List.append_inj h2.1 (by simp; omega)
  have hgroups : ∀ l : List Char, l = l.take 8 ++ ((l.drop 8).take 4 ++ ((l.drop 12).take 4 ++
      ((l.drop 16).take 4 ++ l.drop 20))) := by
    intro l
    have hnext : ∀ k, l.drop k = (l.drop k).take 4 ++ l.drop (k + 4) := by
      intro k
      rw [← List.drop_drop, List.take_append_drop]
    rw [← hnext 16, ← hnext 12, ← hnext 8, List.take_append_drop]
  rw [hgroups a, hgroups b, h1.1, (List.cons.inj h1.2).2, (List.cons.inj h2.2).2,
    (List.cons.inj h3.2).2, (List.cons.inj h4.2).2]

/-- Two digits for each byte. -/
def hexBytes (bytes : List UInt8) : List Char :=
  bytes.flatMap fun b => [(b.toNat / 16).digitChar, (b.toNat % 16).digitChar]

theorem hexBytes_eq_nil {bytes : List UInt8} : hexBytes bytes = [] ↔ bytes = [] := by
  cases bytes <;> simp [hexBytes]

theorem le_of_mem_hexBytes {bytes : List UInt8} (h : c ∈ hexBytes bytes) : 48 ≤ c.toNat := by
  have hdigit : ∀ i < 16, 48 ≤ i.digitChar.toNat := by decide
  obtain ⟨b, -, hb⟩ := List.mem_flatMap.mp h
  have hbyte := b.toNat_lt
  rcases List.mem_pair.mp hb with rfl | rfl
  · exact hdigit _ (by omega)
  · exact hdigit _ (by omega)

theorem hexBytes_injective {a b : List UInt8} (h : hexBytes a = hexBytes b) : a = b := by
  have hdigit : ∀ i < 16, ∀ j < 16, i.digitChar = j.digitChar → i = j := by decide
  induction a generalizing b with
  | nil => exact (hexBytes_eq_nil.mp h.symm).symm
  | cons x a ih =>
    cases b with
    | nil => exact hexBytes_eq_nil.mp h
    | cons y b =>
      have hx := x.toNat_lt
      have hy := y.toNat_lt
      simp only [hexBytes, List.flatMap_cons, List.cons_append, List.nil_append,
        List.cons.injEq] at h
      have hhigh := hdigit _ (by omega) _ (by omega) h.1
      have hlow := hdigit _ (by omega) _ (by omega) h.2.1
      have hbyte : x = y := UInt8.toNat_inj.mp (by omega)
      rw [hbyte, ih h.2.2]

/-- The digit of six bits in the alphabet for URLs: letters, figures, `-` and `_`. -/
def base64Digit (n : Nat) : UInt8 :=
  if n < 26 then UInt8.ofNat (65 + n)
  else if n < 52 then UInt8.ofNat (71 + n)
  else if n < 62 then UInt8.ofNat (n - 4)
  else if n = 62 then 45
  else 95

/-- Four digits for three bytes, and no padding behind the last group. -/
def base64Url : List UInt8 → List UInt8
  | a :: b :: c :: rest =>
    base64Digit (a.toNat / 4) :: base64Digit (a.toNat % 4 * 16 + b.toNat / 16) ::
      base64Digit (b.toNat % 16 * 4 + c.toNat / 64) :: base64Digit (c.toNat % 64) ::
      base64Url rest
  | [a, b] =>
    [base64Digit (a.toNat / 4), base64Digit (a.toNat % 4 * 16 + b.toNat / 16),
      base64Digit (b.toNat % 16 * 4)]
  | [a] => [base64Digit (a.toNat / 4), base64Digit (a.toNat % 4 * 16)]
  | [] => []

theorem length_base64Url (bytes : List UInt8) :
    (base64Url bytes).length = (4 * bytes.length + 2) / 3 := by
  induction bytes using base64Url.induct with
  | case1 a b c rest ih =>
    simp only [base64Url, List.length_cons, ih]
    omega
  | case2 a b => simp [base64Url]
  | case3 a => simp [base64Url]
  | case4 => rfl

section Units

variable {α β : Type*} {encode : α → List β} {start : β → Bool}

theorem take_flatMap_of_start
    (hencode : ∀ a, ∃ b bs, encode a = b :: bs ∧ ∀ x ∈ bs, start x = false) (items : List α)
    {n : Nat} (hn : n = 0 ∨ ∃ b, (items.flatMap encode)[n]? = some b ∧ start b) :
    ∃ m, (items.flatMap encode).take n = (items.take m).flatMap encode := by
  induction items generalizing n with
  | nil => exact ⟨0, by simp⟩
  | cons a items ih =>
    obtain ⟨b, bs, hab, hbs⟩ := hencode a
    rcases Nat.eq_zero_or_pos n with rfl | hpos
    · exact ⟨0, by simp⟩
    have hstart : ∃ b', ((a :: items).flatMap encode)[n]? = some b' ∧ start b' :=
      hn.resolve_left (by omega)
    rw [List.flatMap_cons, hab] at hstart ⊢
    rcases Nat.lt_or_ge n (b :: bs).length with hin | hout
    · -- inside an item no unit starts one
      obtain ⟨b', hget, hb'⟩ := hstart
      rw [List.getElem?_append_left hin] at hget
      obtain ⟨k, rfl⟩ := Nat.exists_eq_add_of_lt hpos
      rw [Nat.zero_add, List.getElem?_cons_succ] at hget
      rw [hbs b' (List.mem_of_getElem? hget)] at hb'
      cases hb'
    · rw [List.getElem?_append_right hout] at hstart
      obtain ⟨m, hm⟩ := ih (.inr hstart)
      refine ⟨m + 1, ?_⟩
      rw [List.take_append, List.take_of_length_le hout, hm, List.take_succ_cons,
        List.flatMap_cons, hab]

end Units

end Sluicio.Lib
