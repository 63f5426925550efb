import Sluicio.Audit.Runs

/-!
# What the chain does not show

An organisation's log is made by `Record`, behind what is left of the rows from before the
chain, and pruned from its oldest end.  An alteration keeps some of its rows, in any order,
each edited in any way: its hash is kept, emptied, or replaced by one that does not fit.

`Verify` reports all of them but two kinds.  An edit that leaves the encoded content as it
was goes unseen: the parts are told apart by a byte that the texts may hold themselves.  And
emptying the hashes at the end of the log takes those rows out of the chain.
-/

namespace Sluicio.Audit

open Lib HashChain

variable {a b : Content} {prev : String}

theorem Content.parts_injective (h : a.parts = b.parts) : a = b := by
  have hactor : ∀ {x y : Option UUID}, actorText x = actorText y → x = y := by
    intro x y hxy
    have hne : ∀ id : UUID, uuidText id ≠ [] := by
      intro id hnil
      simp [uuidText, groupedHex] at hnil
    cases x with
    | none =>
      cases y with
      | none => rfl
      | some y => exact absurd hxy.symm (hne y)
    | some x =>
      cases y with
      | none => exact absurd hxy (hne x)
      | some y => rw [groupedHex_injective hxy]
  simp only [Content.parts, List.cons.injEq, String.toList_inj] at h
  obtain ⟨hprev, horg, hact, hname, hemail, haction, htype, hid, hjson, hip, hat, -⟩ := h
  cases a
  cases b
  simp only [Content.mk.injEq]
  exact ⟨hprev, groupedHex_injective horg, hactor hact, hname, hemail, haction, htype, hid,
    hjson, hip, rfc3339Nano_injective hat⟩

/-- How often the separator occurs in each part. -/
def Content.separators (c : Content) : List Nat :=
  c.parts.map (List.count unitSeparator)

/-- Of two contents with one encoding, the fields agree exactly when their separators are
spread in the same way. -/
theorem Content.eq_iff_of_encoded_eq (h : a.encoded = b.encoded) :
    a = b ↔ a.separators = b.separators := by
  constructor
  · intro hab
    rw [hab]
  · intro hsep
    exact Content.parts_injective (terminated_inj hsep h)

variable {p : Platform}

theorem encoded_eq_of_chainHash_eq (hsha : Function.Injective p.sha256)
    (h : chainHash p a = chainHash p b) : a.encoded = b.encoded := by
  have hhex : hexBytes (p.sha256 a.encoded) = hexBytes (p.sha256 b.encoded) := by
    have htext := congrArg String.toList h
    simpa [chainHash] using htext
  exact hsha (hexBytes_injective hhex)

/-- A text in which the separator does not occur, as a hash. -/
def Clean (h : String) : Prop := unitSeparator ∉ h.toList

theorem clean_chainHash (c : Content) : Clean (chainHash p c) := by
  intro hmem
  have hle : 48 ≤ unitSeparator.toNat := by
    apply le_of_mem_hexBytes
    simpa [chainHash] using hmem
  exact absurd hle (by decide)

theorem prev_eq_of_encoded_eq (ha : Clean a.prev) (hb : Clean b.prev) (h : a.encoded = b.encoded) :
    a.prev = b.prev := by
  simp only [Content.encoded, Content.parts, terminated_cons] at h
  exact String.toList_inj.mp (append_sep_inj_of_notMem ha hb h).1

/-! ## Recorded logs -/

/-- A call of `Record`, with the id of its row and the time of its stamp. -/
structure Call (p : Platform) where
  entry : Entry p
  id : Nat
  now : Int

/-- The rows that calls of `Record` insert one after another behind `prev`, each with the
content that was hashed for it. -/
def recordAll (prev : String) : List (Call p) → List (Row p × Content)
  | [] => []
  | c :: calls =>
    let row := c.entry.row p c.id prev c.now
    (row, c.entry.content p prev c.now) :: recordAll row.entryHash calls

theorem recordAll_append (org : UUID) (prev : String) (as bs : List (Call p)) :
    recordAll prev (as ++ bs) = recordAll prev as ++
      recordAll ((chain p org).tip prev ((recordAll prev as).map Prod.fst)) bs := by
  induction as generalizing prev with
  | nil => rfl
  | cons a as ih =>
    simp only [List.cons_append, recordAll, List.map_cons, tip_cons]
    rw [ih]
    rfl

variable {calls : List (Call p)} {cs : List (Row p)}

theorem recordAll_mem {w : Row p × Content} (hw : w ∈ recordAll prev calls) :
    w.1.entryHash = chainHash p w.2 ∧ w.1.prevHash = w.2.prev ∧ (Clean prev → Clean w.2.prev) := by
  induction calls generalizing prev with
  | nil => exact absurd hw List.not_mem_nil
  | cons c calls ih =>
    rcases List.mem_cons.mp hw with rfl | hw
    · exact ⟨rfl, rfl, id⟩
    · have hrest := ih hw
      exact ⟨hrest.1, hrest.2.1, fun _ => hrest.2.2 (clean_chainHash _)⟩

theorem recordAll_follows (org : UUID) (prev : String) (calls : List (Call p)) :
    (chain p org).Follows prev ((recordAll prev calls).map Prod.fst) := by
  induction calls generalizing prev with
  | nil => trivial
  | cons c calls ih => exact ⟨rfl, ih _⟩

theorem recordAll_genuine (hsha : Function.Injective p.sha256) (org : UUID)
    (calls : List (Call p)) : (chain p org).Genuine "" ((recordAll "" calls).map Prod.fst) := by
  apply genuine_of_follows (recordAll_follows org "" calls)
  · intro hmem
    obtain ⟨r, hr, hhash⟩ := List.mem_map.mp hmem
    obtain ⟨w, hw, rfl⟩ := List.mem_map.mp hr
    have hblank : w.1.entryHash = "" := hhash
    rw [(recordAll_mem hw).1] at hblank
    exact chainHash_ne_empty p _ hblank
  · intro r hr r' hr' hhash
    obtain ⟨w, hw, rfl⟩ := List.mem_map.mp hr
    obtain ⟨w', hw', rfl⟩ := List.mem_map.mp hr'
    have hrow := recordAll_mem hw
    have hrow' := recordAll_mem hw'
    have hempty : Clean "" := List.not_mem_nil
    have hhashes : chainHash p w.2 = chainHash p w'.2 := by
      rw [← hrow.1, ← hrow'.1]
      exact hhash
    show w.1.prevHash = w'.1.prevHash
    rw [hrow.2.1, hrow'.2.1]
    exact prev_eq_of_encoded_eq (hrow.2.2 hempty) (hrow'.2.2 hempty)
      (encoded_eq_of_chainHash_eq hsha hhashes)

/-- An organisation's log: rows from before the chain, then the calls that are still there;
the calls before them were pruned. -/
structure RecordedLog (p : Platform) (org : UUID) where
  legacy : List (Row p)
  past : List (Call p)
  calls : List (Call p)
  unhashed : ∀ r ∈ legacy, r.entryHash = ""
  /-- What is older went first. -/
  oldestPruned : past ≠ [] → legacy = []
  ofOrg : ∀ c ∈ past ++ calls, c.entry.orgID = org

namespace RecordedLog

variable {org : UUID} (log : RecordedLog p org)

/-- The hash that recorded and pruned calls leave. -/
def seedOf (org : UUID) (past : List (Call p)) : String :=
  (chain p org).tip "" ((recordAll "" past).map Prod.fst)

/-- The anchor's hash, blank when nothing was pruned. -/
def seed : String := seedOf org log.past

/-- The recorded rows that are there, with what was hashed for them. -/
def written : List (Row p × Content) := recordAll log.seed log.calls

def rows : List (Row p) := log.legacy ++ log.written.map Prod.fst

theorem written_genuine (hsha : Function.Injective p.sha256) :
    (chain p org).Genuine log.seed (log.written.map Prod.fst) := by
  have hall := recordAll_genuine hsha org (log.past ++ log.calls)
  rw [recordAll_append org, List.map_append] at hall
  exact hall.drop

theorem clean_seed : Clean log.seed := by
  by_cases hpast : (recordAll "" log.past).map Prod.fst = []
  · rw [seed, seedOf, hpast]
    exact List.not_mem_nil
  obtain ⟨r, hr, hhash⟩ := List.mem_map.mp (tip_mem hpast)
  obtain ⟨w, hw, rfl⟩ := List.mem_map.mp hr
  rw [seed, seedOf, ← hhash]
  show Clean w.1.entryHash
  rw [(recordAll_mem hw).1]
  exact clean_chainHash _

/-- A row that carries the hash of a recorded one and checks out names the same previous
hash. -/
theorem written_binding (hsha : Function.Injective p.sha256) :
    (chain p org).Binding log.seed (log.written.map Prod.fst) := by
  intro y r hr hhash hdigest hreached
  obtain ⟨w, hw, rfl⟩ := List.mem_map.mp hr
  have hrow := recordAll_mem hw
  have hhashes : chainHash p (y.content p org) = chainHash p w.2 := by
    rw [← hrow.1]
    exact Eq.trans hdigest hhash
  have hclean : Clean y.prevHash := by
    rcases hreached with hseed | hblank | hmem
    · have hprev : y.prevHash = log.seed := hseed
      rw [hprev]
      exact log.clean_seed
    · have hprev : y.prevHash = "" := hblank
      rw [hprev]
      exact List.not_mem_nil
    · obtain ⟨r', hr', hprev⟩ := List.mem_map.mp hmem
      obtain ⟨w', hw', rfl⟩ := List.mem_map.mp hr'
      have hprev' : y.prevHash = w'.1.entryHash := hprev.symm
      rw [hprev', (recordAll_mem hw').1]
      exact clean_chainHash _
  show y.prevHash = w.1.prevHash
  rw [hrow.2.1]
  exact prev_eq_of_encoded_eq hclean (hrow.2.2 log.clean_seed)
    (encoded_eq_of_chainHash_eq hsha hhashes)

end RecordedLog

/-! ## Alterations -/

section Altering

variable (p : Platform) (org : UUID)

/-- What may become of a row that stays: anything, but its hash is kept, emptied, or replaced
by one that does not fit the row. -/
def Altered (z y : Row p) : Prop :=
  y.entryHash = z.entryHash ∨ y.entryHash = "" ∨ chainHash p (y.content p org) ≠ y.entryHash

def Alteration (log : RecordedLog p org) (ys : List (Row p)) : Prop :=
  ∃ zs, zs.Subperm log.rows ∧ List.Forall₂ (Altered p org) zs ys

/-- The row carries the hashes of a recorded one, and its content is encoded as what was
hashed then. -/
def Unseen (w : Row p × Content) (y : Row p) : Prop :=
  y.entryHash = w.1.entryHash ∧ y.prevHash = w.1.prevHash ∧ (y.content p org).encoded = w.2.encoded

/-- The log starts with its first recorded rows, edited in no way that the encoding shows,
and every other row is without a hash.  Rows without a hash come before the recorded ones
only where the chain starts from nothing. -/
def Hidden (log : RecordedLog p org) (ys : List (Row p)) : Prop :=
  ∃ bs cs ds, ys = bs ++ cs ++ ds ∧ (∀ b ∈ bs, b.entryHash = "") ∧
    (∀ d ∈ ds, d.entryHash = "") ∧
    List.Forall₂ (Unseen p org) (log.written.take cs.length) cs ∧
    (cs = [] ∨ bs = [] ∨ log.seed = "")

end Altering

variable {org : UUID}

/-- Rows that carry the recorded hashes in turn and link are those recorded rows, as far as
the encoding shows. -/
theorem unseen_of_linked (hsha : Function.Injective p.sha256)
    (hlinked : (chain p org).Linked prev cs)
    (hhash : cs.map Row.entryHash <+: (recordAll prev calls).map fun w => w.1.entryHash) :
    List.Forall₂ (Unseen p org) ((recordAll prev calls).take cs.length) cs := by
  induction cs generalizing prev calls with
  | nil => exact List.Forall₂.nil
  | cons y cs ih =>
    cases calls with
    | nil => exact absurd (List.prefix_nil.mp hhash) (by simp)
    | cons c calls =>
      simp only [recordAll, List.map_cons, List.cons_prefix_cons] at hhash
      obtain ⟨hy, hrest⟩ := hhash
      have hne : y.entryHash ≠ "" := by
        rw [hy]
        exact chainHash_ne_empty p _
      obtain ⟨hprev, hdigest⟩ := hlinked.1.resolve_left hne
      have hhashes : chainHash p (y.content p org) =
          chainHash p (c.entry.content p prev c.now) := Eq.trans hdigest hy
      have htail : (chain p org).Linked y.entryHash cs := hlinked.2
      rw [hy] at htail
      exact List.Forall₂.cons
        ⟨hy, hprev, encoded_eq_of_chainHash_eq hsha hhashes⟩ (ih htail hrest)

theorem linked_of_unseen
    (h : List.Forall₂ (Unseen p org) ((recordAll prev calls).take cs.length) cs) :
    (chain p org).Linked prev cs := by
  induction cs generalizing prev calls with
  | nil => trivial
  | cons y cs ih =>
    cases calls with
    | nil => exact absurd h (by simp [recordAll])
    | cons c calls =>
      simp only [recordAll, List.length_cons, List.take_succ_cons, List.forall₂_cons] at h
      obtain ⟨⟨hhash, hprev, henc⟩, hrest⟩ := h
      have hcontent : chainHash p (y.content p org) = y.entryHash := by
        rw [hhash]
        show String.ofList (hexBytes (p.sha256 _)) = String.ofList (hexBytes (p.sha256 _))
        rw [henc]
      refine ⟨Or.inr ⟨hprev, hcontent⟩, ?_⟩
      show (chain p org).Linked y.entryHash cs
      rw [hhash]
      exact ih hrest

private theorem exists_of_forall₂ {α β : Type} {R : α → β → Prop} {zs : List α} {ys : List β}
    (h : List.Forall₂ R zs ys) {y : β} (hy : y ∈ ys) : ∃ z ∈ zs, R z y := by
  induction h with
  | nil => exact absurd hy List.not_mem_nil
  | cons hzy hrest ih =>
    rcases List.mem_cons.mp hy with rfl | hy
    · exact ⟨_, List.mem_cons_self, hzy⟩
    · obtain ⟨z, hz, hR⟩ := ih hy
      exact ⟨z, List.mem_cons_of_mem _ hz, hR⟩

private def Apart (x y : Row p) : Prop := x.entryHash ≠ "" → x.entryHash ≠ y.entryHash

private theorem Apart.symm {x y : Row p} (h : Apart x y) : Apart y x := by
  intro hy heq
  have hx : x.entryHash ≠ "" := by rwa [← heq]
  exact h hx heq.symm

private theorem pairwise_apart {zs ys : List (Row p)} (hzs : zs.Pairwise Apart)
    (h : List.Forall₂ (fun z y : Row p => y.entryHash = z.entryHash ∨ y.entryHash = "") zs ys) :
    ys.Pairwise Apart := by
  induction h with
  | nil => exact List.Pairwise.nil
  | @cons z y zs ys hzy hrest ih =>
    have hhead := List.pairwise_cons.mp hzs
    refine List.pairwise_cons.mpr ⟨?_, ih hhead.2⟩
    intro y' hy' hne heq
    obtain ⟨z', hz', hkept'⟩ := exists_of_forall₂ hrest hy'
    have hkept := hzy.resolve_right hne
    have hne' : y'.entryHash ≠ "" := by rwa [← heq]
    apply hhead.1 z' hz' (by rwa [← hkept])
    rw [← hkept, heq, hkept'.resolve_right hne']

namespace RecordedLog

variable (log : RecordedLog p org)

private theorem rows_apart (hsha : Function.Injective p.sha256) : log.rows.Pairwise Apart := by
  have hnodup := (log.written_genuine hsha).nodup
  rw [rows, List.pairwise_append]
  refine ⟨?_, ?_, ?_⟩
  · apply List.Pairwise.imp_of_mem _ (List.pairwise_of_forall fun _ _ => trivial)
    intro a b ha _ _ hne
    exact absurd (log.unhashed a ha) hne
  · have hpairs := List.pairwise_map.mp hnodup
    apply hpairs.imp
    intro a b hab _
    exact hab
  · intro a ha b _ hne
    exact absurd (log.unhashed a ha) hne

/-- The walk of `Verify` over an altered log finds no break exactly when nothing shows. -/
theorem verify_ok_iff (hsha : Function.Injective p.sha256) {ys : List (Row p)}
    (halt : Alteration p org log ys) :
    (verifyRows p org log.seed .intact ys).ok ↔ Hidden p org log ys := by
  rw [verifyRows_ok]
  constructor
  · intro h
    have hlinked := h.2
    obtain ⟨zs, hzs, hforall⟩ := halt
    obtain ⟨l, hperm, hsub⟩ := hzs
    -- a hash that checks out was kept
    have hkept : List.Forall₂
        (fun z y : Row p => y.entryHash = z.entryHash ∨ y.entryHash = "") zs ys := by
      rw [List.forall₂_iff_get] at hforall ⊢
      refine ⟨hforall.1, ?_⟩
      intro i hz hy
      rcases hforall.2 i hz hy with hsame | hblank | hbad
      · exact Or.inl hsame
      · exact Or.inr hblank
      · by_cases hne : (ys.get ⟨i, hy⟩).entryHash = ""
        · exact Or.inr hne
        · exact absurd (hlinked.checked (List.get_mem ys ⟨i, hy⟩) hne) hbad
    have hmem : ∀ y ∈ ys, y.entryHash ≠ "" →
        y.entryHash ∈ (log.written.map Prod.fst).map (chain p org).hash := by
      intro y hy hne
      obtain ⟨z, hz, hsame⟩ := exists_of_forall₂ hkept hy
      have hyz := hsame.resolve_right hne
      have hin : z ∈ log.rows := hsub.subset (hperm.mem_iff.mpr hz)
      rcases List.mem_append.mp hin with hleg | hrec
      · exact absurd (hyz.trans (log.unhashed z hleg)) hne
      · rw [hyz]
        exact List.mem_map_of_mem hrec
    have hapart : ys.Pairwise Apart := by
      have hl : l.Pairwise Apart := (log.rows_apart hsha).sublist hsub
      exact pairwise_apart ((hperm.pairwise_iff fun hab => hab.symm).mp hl) hkept
    obtain ⟨bs, cs, ds, hys, hbs, hds, hcs, hstart⟩ :=
      (log.written_genuine hsha).linked_split (log.written_binding hsha) (Or.inl rfl) hlinked
        hmem hapart
    refine ⟨bs, cs, ds, hys, hbs, hds, ?_, ?_⟩
    · rcases hstart with hnil | hseed
      · rw [hnil]
        exact List.Forall₂.nil
      · rw [hys, linked_append, linked_append, hseed] at hlinked
        apply unseen_of_linked hsha hlinked.1.2
        rw [List.map_map] at hcs
        exact hcs
    · rcases hstart with hnil | hseed
      · exact Or.inl hnil
      · right
        by_cases hb : bs = []
        · exact Or.inl hb
        · rw [tip_of_blank _ hbs hb] at hseed
          exact Or.inr hseed.symm
  · rintro ⟨bs, cs, ds, hys, hbs, hds, hcs, hstart⟩
    refine ⟨rfl, ?_⟩
    rw [hys, linked_append, linked_append]
    refine ⟨⟨linked_of_blank _ hbs, ?_⟩, linked_of_blank _ hds⟩
    rcases hstart with hnil | hb | hseed
    · rw [hnil]
      trivial
    · rw [hb]
      exact linked_of_unseen hcs
    · by_cases hb : bs = []
      · rw [hb]
        exact linked_of_unseen hcs
      · rw [tip_of_blank _ hbs hb]
        have hcs' := linked_of_unseen hcs
        rwa [hseed] at hcs'

end RecordedLog

/-- `Verify` reports a break of an altered log unless the alteration is hidden; and two
entries with one hash are the same in all their fields exactly when the separators in their
texts are spread in the same way. -/
theorem tampering_reported_iff (p : Platform) (hsha : Function.Injective p.sha256)
    (org : UUID) (log : RecordedLog p org) :
    (∀ ys, Alteration p org log ys →
      ((verifyRows p org log.seed .intact ys).ok = false ↔ ¬ Hidden p org log ys)) ∧
    ∀ a b : Content, chainHash p a = chainHash p b → (a = b ↔ a.separators = b.separators) := by
  constructor
  · intro ys halt
    rw [← log.verify_ok_iff hsha halt, Bool.not_eq_true]
  · intro a b h
    exact Content.eq_iff_of_encoded_eq (encoded_eq_of_chainHash_eq hsha h)

/-! ## An edit that does not show -/

private def bytesOf (text : List Char) : List UInt8 :=
  text.flatMap fun c => [UInt8.ofNat (c.toNat / 65536), UInt8.ofNat (c.toNat / 256 % 256),
    UInt8.ofNat (c.toNat % 256)]

private theorem bytesOf_injective : Function.Injective bytesOf := by
  intro a b h
  induction a generalizing b with
  | nil =>
    cases b with
    | nil => rfl
    | cons d b => simp [bytesOf] at h
  | cons c a ih =>
    cases b with
    | nil => simp [bytesOf] at h
    | cons d b =>
      have hbound : ∀ x : Char, x.toNat < 1114112 := by
        intro x
        rcases x.valid with hx | hx
        · exact Nat.lt_trans hx (by decide)
        · exact hx.2
      have hc := hbound c
      have hd := hbound d
      simp only [bytesOf, List.flatMap_cons, List.cons_append, List.nil_append,
        List.cons.injEq] at h
      obtain ⟨hhigh, hmid, hlow, hrest⟩ := h
      have hnat : ∀ m n : Nat, m < 256 → n < 256 → UInt8.ofNat m = UInt8.ofNat n → m = n := by
        intro m n hm hn heq
        have hmod := congrArg UInt8.toNat heq
        simp only [UInt8.toNat_ofNat'] at hmod
        omega
      have hhigh' := hnat _ _ (by omega) (by omega) hhigh
      have hmid' := hnat _ _ (by omega) (by omega) hmid
      have hlow' := hnat _ _ (by omega) (by omega) hlow
      have hcd : c = d := Char.toNat_inj.mp (by omega)
      rw [hcd, ih hrest]

private def bytesPlatform : Platform where
  Float := Int
  Numeric := Int
  formatFloat n := (toString n).toList
  numeric := id
  parseFloat := some
  sha256 text := 0 :: bytesOf text
  sha256_ne_nil _ := List.cons_ne_nil _ _

private theorem bytesPlatform_injective : Function.Injective bytesPlatform.sha256 := by
  intro a b h
  exact bytesOf_injective (List.cons.inj h).2

private def renamed : Entry bytesPlatform :=
  { orgID := 7, actorUserID := some 3, actorName := "Ada\x1fada", actorEmail := "x@example.org",
    action := "auth.login", targetType := "user", targetID := "3", metadata := [],
    ip := "10.0.0.1" }

private def renamedLog : RecordedLog bytesPlatform 7 where
  legacy := []
  past := []
  calls := [⟨renamed, 1, 5⟩]
  unhashed _ h := absurd h List.not_mem_nil
  oldestPruned _ := rfl
  ofOrg c hc := by
    rw [List.mem_singleton.mp hc]
    rfl

private def twoEntries : RecordedLog bytesPlatform 7 :=
  { renamedLog with
    calls := [⟨renamed, 1, 5⟩, ⟨{ renamed with action := "auth.logout" }, 2, 6⟩]
    ofOrg := by simp [renamed, renamedLog] }

/-- The older of two rows is deleted. -/
theorem tampering_reported_twoEntries :
    ¬ Hidden bytesPlatform 7 twoEntries (twoEntries.rows.drop 1) := by
  have halt : Alteration bytesPlatform 7 twoEntries (twoEntries.rows.drop 1) :=
    ⟨_, ⟨_, .refl _, List.drop_sublist 1 _⟩, List.forall₂_same.2 fun _ _ => Or.inl rfl⟩
  have hreported := tampering_reported_iff bytesPlatform bytesPlatform_injective 7 twoEntries
  refine (hreported.1 _ halt).1 ?_
  simp only [RecordedLog.rows, RecordedLog.written, twoEntries, renamedLog, recordAll,
    List.map_cons, List.map_nil, List.nil_append, List.drop_succ_cons, List.drop_zero, verifyRows,
    Entry.row]
  rw [if_neg (chainHash_ne_empty _ _)]
  exact congrArg VerifyResult.ok (if_pos (chainHash_ne_empty _ _))

/-- The recorded row with the end of the name moved into the e-mail address. -/
private def shifted : Row bytesPlatform :=
  { renamed.row bytesPlatform 1 "" 5 with
    actorName := "Ada", actorEmail := "ada\x1fx@example.org" }

/-- The digest is injective, the hashes are kept and the name is another, and `Verify` finds
the chain intact. -/
theorem shifted_name_unreported :
    Function.Injective bytesPlatform.sha256 ∧
    Alteration bytesPlatform 7 renamedLog [shifted] ∧
    renamedLog.rows.map Row.actorName = ["Ada\x1fada"] ∧ shifted.actorName = "Ada" ∧
    (verifyRows bytesPlatform 7 renamedLog.seed .intact [shifted]).ok := by
  have halt : Alteration bytesPlatform 7 renamedLog [shifted] :=
    ⟨renamedLog.rows, ⟨_, List.Perm.refl _, List.Sublist.refl _⟩,
      List.Forall₂.cons (Or.inl rfl) List.Forall₂.nil⟩
  have henc : (shifted.content bytesPlatform 7).encoded =
      (renamed.content bytesPlatform "" 5).encoded := by decide +kernel
  have hunseen : List.Forall₂ (Unseen bytesPlatform 7) (renamedLog.written.take 1) [shifted] :=
    List.Forall₂.cons ⟨rfl, rfl, henc⟩ List.Forall₂.nil
  refine ⟨bytesPlatform_injective, halt, rfl, rfl, ?_⟩
  apply (renamedLog.verify_ok_iff bytesPlatform_injective halt).mpr
  exact ⟨[], [shifted], [], rfl, by simp, by simp, hunseen, Or.inr (Or.inl rfl)⟩

end Sluicio.Audit
