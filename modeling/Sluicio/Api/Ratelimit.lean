import Mathlib.Data.Rat.Floor
import Sluicio.Lib.Encoding
import Sluicio.Lib.Rows
import Sluicio.Lib.Run
import Sluicio.Lib.TokenBucket

/-!
# The rate limit of scripted callers

One bucket for each caller, made at its first call and dropped by a sweep when it has not been
seen for half an hour.  A sweep runs only at a new caller's call, and only over a large map.

Times are in seconds since the zero time of the clock, rates and tokens exact.
-/

namespace Sluicio.Api

open Lib

def defaultTokenRatePerMin : Int := 600

def defaultTokenBurst : Int := 120

/-- Thirty minutes. -/
def idleBucketTTL : ℚ := 1800

structure TokenBucket where
  tokens : ℚ
  last : ℚ
  lastSeen : ℚ := 0

structure RateLimiter where
  buckets : List (String × TokenBucket)
  perSecond : ℚ
  burst : ℚ
  perSecond_pos : 0 < perSecond
  one_le_burst : 1 ≤ burst

def newRateLimiter (perMinute burst : Int) : RateLimiter where
  buckets := []
  perSecond := ((if perMinute ≤ 0 then defaultTokenRatePerMin else perMinute : Int) : ℚ) / 60
  burst := ((if burst ≤ 0 then defaultTokenBurst else burst : Int) : ℚ)
  perSecond_pos := by
    apply div_pos _ (by norm_num)
    exact_mod_cast (by split <;> simp_all [defaultTokenRatePerMin])
  one_le_burst := by
    have hone : (1 : Int) ≤ if burst ≤ 0 then defaultTokenBurst else burst := by
      split
      · decide
      · omega
    exact_mod_cast hone

namespace RateLimiter

variable (l : RateLimiter)

/-- `sweepLocked`, over the buckets with the new one. -/
def sweepLocked (now : ℚ) (buckets : List (String × TokenBucket)) : List (String × TokenBucket) :=
  if buckets.length < 1000 then buckets
  else buckets.filter fun e => ¬idleBucketTTL < now - e.2.lastSeen

/-- The bucket of a call, and the map with it. -/
def enter (key : String) (now : ℚ) : TokenBucket × List (String × TokenBucket) :=
  match l.buckets.lookup key with
  | some b => (b, l.buckets)
  | none =>
    let b : TokenBucket := { tokens := l.burst, last := now }
    (b, sweepLocked now (l.buckets ++ [(key, b)]))

/-- The refill for the elapsed time. -/
def refill (b : TokenBucket) (now : ℚ) : TokenBucket :=
  let elapsed := now - b.last
  if 0 < elapsed then
    let tokens := b.tokens + elapsed * l.perSecond
    { b with tokens := if l.burst < tokens then l.burst else tokens, last := now }
  else b

/-- A write through the pointer to a bucket, lost when the map does not hold it. -/
def setBucket (key : String) (b : TokenBucket) (buckets : List (String × TokenBucket)) :
    List (String × TokenBucket) :=
  buckets.map fun e => if e.1 = key then (e.1, b) else e

/-- `allow`: whether the caller may proceed, and if not, for how many nanoseconds to wait. -/
def allow (key : String) (now : ℚ) : (Bool × Int) × RateLimiter :=
  let entered := l.enter key now
  let b : TokenBucket := { l.refill entered.1 now with lastSeen := now }
  if 1 ≤ b.tokens then
    ((true, 0), { l with buckets := setBucket key { b with tokens := b.tokens - 1 } entered.2 })
  else
    let wait := ⌊(1 - b.tokens) / l.perSecond * 1000000000⌋ + 1000000000
    ((false, wait), { l with buckets := setBucket key b entered.2 })

end RateLimiter

/-- A call of `allow`. -/
structure Call where
  key : String
  now : ℚ

namespace RateLimiter

def step (l : RateLimiter) (c : Call) : RateLimiter := (l.allow c.key c.now).2

/-- The calls of a run, each with whether it was let through. -/
def outcomes : RateLimiter → List Call → List (Call × Bool)
  | _, [] => []
  | l, c :: cs => (c, (l.allow c.key c.now).1.1) :: outcomes (l.step c) cs

variable {l : RateLimiter} {k key : String} {now t u : ℚ} {c : Call}

/-- The tokens of a caller at an instant; a caller without a bucket has them all. -/
def available (l : RateLimiter) (k : String) (u : ℚ) : ℚ :=
  match l.buckets.lookup k with
  | none => l.burst
  | some b => min l.burst (b.tokens + l.perSecond * (u - b.last))

/-- The limiter after its last call at `t`. -/
structure Sound (l : RateLimiter) (t : ℚ) : Prop where
  nodup : (l.buckets.map Prod.fst).Nodup
  bucket : ∀ e ∈ l.buckets, 0 ≤ e.2.tokens ∧ e.2.tokens ≤ l.burst ∧ e.2.last ≤ t

/-- A new caller's call over a large map. -/
def Sweeps (l : RateLimiter) (c : Call) : Prop :=
  l.buckets.lookup c.key = none ∧ 1000 ≤ l.buckets.length + 1

instance (l : RateLimiter) (c : Call) : Decidable (l.Sweeps c) := by
  unfold Sweeps
  infer_instance

def charged (l : RateLimiter) (key : String) (now : ℚ) : TokenBucket where
  tokens := l.available key now - if 1 ≤ l.available key now then 1 else 0
  last := now
  lastSeen := now

@[simp] theorem step_perSecond : (l.step c).perSecond = l.perSecond := by
  unfold step allow
  dsimp only
  split <;> rfl

@[simp] theorem step_burst : (l.step c).burst = l.burst := by
  unfold step allow
  dsimp only
  split <;> rfl

/-! ## The map after a call -/

theorem lookup_setBucket (b : TokenBucket) (m : List (String × TokenBucket)) :
    (setBucket key b m).lookup k = if k = key then (m.lookup k).map fun _ => b else m.lookup k := by
  induction m with
  | nil => simp [setBucket]
  | cons e m ih =>
    unfold setBucket at ih ⊢
    rw [List.map_cons, List.lookup_cons, List.lookup_cons]
    have hfst : (if e.1 = key then (e.1, b) else e).1 = e.1 := by split <;> rfl
    rw [hfst]
    by_cases hk : k = e.1
    · subst hk
      by_cases he : e.1 = key <;> simp [he]
    · have hbeq : (k == e.1) = false := by simpa using hk
      simp only [hbeq, ih]

theorem map_fst_setBucket (b : TokenBucket) (m : List (String × TokenBucket)) :
    (setBucket key b m).map Prod.fst = m.map Prod.fst := by
  rw [setBucket, List.map_map]
  apply List.map_congr_left
  intro e _
  simp only [Function.comp_apply]
  split <;> rfl

variable {e : String × TokenBucket} {m : List (String × TokenBucket)}

theorem lookup_filter (hm : (m.map Prod.fst).Nodup) (p : String × TokenBucket → Bool) :
    (m.filter p).lookup k = (m.lookup k).filter fun b => p (k, b) := by
  have hsub : ((m.filter p).map Prod.fst).Nodup := hm.sublist (List.filter_sublist.map _)
  apply Option.ext
  intro b
  rw [lookup_eq_some_of_nodup hsub, List.mem_filter, Option.filter_eq_some_iff,
    lookup_eq_some_of_nodup hm]

theorem nodup_insert (hm : (m.map Prod.fst).Nodup) (hnone : m.lookup key = none) (b : TokenBucket) :
    ((m ++ [(key, b)]).map Prod.fst).Nodup := by
  have hkey : ∀ e ∈ m, e.1 ≠ key := by
    intro e he heq
    have hne := List.lookup_eq_none_iff.mp hnone e he
    simp [heq] at hne
  rw [List.map_append, List.nodup_append]
  refine ⟨hm, by simp, ?_⟩
  intro a ha b' hb
  obtain ⟨e, he, rfl⟩ := List.mem_map.mp ha
  have hb' : b' = key := by simpa using hb
  rw [hb']
  exact hkey e he

theorem lookup_enter_quiet (hquiet : ¬l.Sweeps c) :
    (l.enter c.key c.now).2.lookup k =
      if k = c.key then some (l.enter c.key c.now).1 else l.buckets.lookup k := by
  unfold enter
  cases hb : l.buckets.lookup c.key with
  | some b =>
    by_cases hk : k = c.key
    · simp [hk, hb]
    · simp [hk]
  | none =>
    have hsmall : (l.buckets ++ [(c.key, ({ tokens := l.burst, last := c.now } :
        TokenBucket))]).length < 1000 := by
      have := not_and.mp hquiet hb
      simp only [List.length_append, List.length_singleton]
      omega
    show (sweepLocked c.now (l.buckets ++ [(c.key, _)])).lookup k = _
    rw [sweepLocked, if_pos hsmall, List.lookup_append]
    by_cases hk : k = c.key
    · simp [hk, hb]
    · have hbeq : (k == c.key) = false := by simpa using hk
      simp [hk, List.lookup_cons, hbeq]

theorem lookup_enter_sweep (h : l.Sound t) (hsweep : l.Sweeps c) :
    (l.enter c.key c.now).2.lookup k =
      (if k = c.key then some (l.enter c.key c.now).1 else l.buckets.lookup k).filter
        fun b => ¬idleBucketTTL < c.now - b.lastSeen := by
  obtain ⟨hnone, hlarge⟩ := hsweep
  unfold enter
  rw [hnone]
  have hfull : ¬(l.buckets ++ [(c.key, ({ tokens := l.burst, last := c.now } :
      TokenBucket))]).length < 1000 := by
    simp only [List.length_append, List.length_singleton]
    omega
  show (sweepLocked c.now (l.buckets ++ [(c.key, _)])).lookup k = _
  rw [sweepLocked, if_neg hfull, lookup_filter (nodup_insert h.nodup hnone _), List.lookup_append]
  by_cases hk : k = c.key
  · simp [hk, hnone]
  · have hbeq : (k == c.key) = false := by simpa using hk
    simp [hk, List.lookup_cons, hbeq]

theorem mem_enter (he : e ∈ (l.enter key now).2) : e ∈ l.buckets ∨ e.1 = key := by
  unfold enter at he
  split at he
  · exact .inl he
  have hmem : e ∈ l.buckets ++ [(key, { tokens := l.burst, last := now })] := by
    simp only [sweepLocked] at he
    split at he
    · exact he
    · exact List.mem_of_mem_filter he
  rcases List.mem_append.mp hmem with hmem | hmem
  · exact .inl hmem
  · exact .inr (by rw [List.mem_singleton.mp hmem])

theorem nodup_enter (h : l.Sound t) : ((l.enter key now).2.map Prod.fst).Nodup := by
  unfold enter
  split
  · exact h.nodup
  rename_i hnone
  have hall := nodup_insert h.nodup hnone { tokens := l.burst, last := now }
  show ((sweepLocked now (l.buckets ++ [(key, _)])).map Prod.fst).Nodup
  unfold sweepLocked
  split
  · exact hall
  · exact hall.sublist (List.filter_sublist.map _)

/-! ## One call -/

theorem tokens_refill (h : l.Sound t) (htn : t ≤ now) :
    (l.refill (l.enter key now).1 now).tokens = l.available key now ∧
      (l.refill (l.enter key now).1 now).last = now := by
  have hcap : ∀ x : ℚ, (if l.burst < x then l.burst else x) = min l.burst x := by
    intro x
    rcases lt_or_ge l.burst x with hx | hx
    · rw [if_pos hx, min_eq_left hx.le]
    · rw [if_neg (not_lt.mpr hx), min_eq_right hx]
  unfold enter available
  cases hb : l.buckets.lookup key with
  | none => simp [refill]
  | some b =>
    obtain ⟨-, hle, hlast⟩ := h.bucket _ ((lookup_eq_some_of_nodup h.nodup).mp hb)
    show (l.refill b now).tokens = _ ∧ (l.refill b now).last = now
    unfold refill
    by_cases hpos : 0 < now - b.last
    · simp only [if_pos hpos, hcap, mul_comm l.perSecond, and_self]
    have hnow : b.last = now := by
      have hle' : b.last ≤ now := hlast.trans htn
      linarith
    dsimp only
    rw [if_neg hpos, hnow, sub_self, mul_zero, add_zero, min_eq_right hle]
    exact ⟨rfl, rfl⟩

theorem allow_spec (h : l.Sound t) (htn : t ≤ now) :
    (l.allow key now).1.1 = decide (1 ≤ l.available key now) ∧
      (l.allow key now).2.buckets = setBucket key (l.charged key now) (l.enter key now).2 := by
  obtain ⟨htokens, hlast⟩ : (l.refill (l.enter key now).1 now).tokens = l.available key now ∧
      (l.refill (l.enter key now).1 now).last = now := tokens_refill h htn
  unfold allow charged
  dsimp only
  rw [htokens, hlast]
  by_cases hone : 1 ≤ l.available key now
  · simp [hone]
  · simp [hone]

theorem lookup_step (h : l.Sound t) (htn : t ≤ c.now) :
    (l.step c).buckets.lookup k =
      if k = c.key then ((l.enter c.key c.now).2.lookup k).map fun _ => l.charged c.key c.now
      else (l.enter c.key c.now).2.lookup k := by
  show (l.allow c.key c.now).2.buckets.lookup k = _
  rw [(allow_spec h htn).2, lookup_setBucket]

theorem available_bounds (h : l.Sound t) (htn : t ≤ u) :
    0 ≤ l.available k u ∧ l.available k u ≤ l.burst := by
  have hburst : 0 ≤ l.burst := zero_le_one.trans l.one_le_burst
  unfold available
  cases hb : l.buckets.lookup k with
  | none => exact ⟨hburst, le_rfl⟩
  | some b =>
    obtain ⟨hnonneg, -, hlast⟩ := h.bucket _ ((lookup_eq_some_of_nodup h.nodup).mp hb)
    have hflow : 0 ≤ l.perSecond * (u - b.last) :=
      mul_nonneg l.perSecond_pos.le (sub_nonneg.mpr (hlast.trans htn))
    refine ⟨le_min hburst ?_, min_le_left _ _⟩
    exact add_nonneg hnonneg hflow

theorem charged_bounds (h : l.Sound t) (htn : t ≤ now) :
    0 ≤ (l.charged key now).tokens ∧ (l.charged key now).tokens ≤ l.burst := by
  obtain ⟨hnonneg, hle⟩ := available_bounds (k := key) h htn
  unfold charged
  dsimp only
  split
  · rename_i hone
    exact ⟨sub_nonneg.mpr hone, (sub_le_self _ zero_le_one).trans hle⟩
  · rw [sub_zero]
    exact ⟨hnonneg, hle⟩

theorem mem_step (h : l.Sound t) (htn : t ≤ c.now) (he : e ∈ (l.step c).buckets) :
    e = (c.key, l.charged c.key c.now) ∨ e ∈ l.buckets := by
  have hstep : e ∈ setBucket c.key (l.charged c.key c.now) (l.enter c.key c.now).2 := by
    rw [← (allow_spec h htn).2]
    exact he
  obtain ⟨e₀, he₀, rfl⟩ := List.mem_map.mp hstep
  by_cases hkey : e₀.1 = c.key
  · rw [if_pos hkey, hkey]
    exact .inl rfl
  rw [if_neg hkey]
  rcases mem_enter he₀ with hmem | hmem
  · exact .inr hmem
  · exact absurd hmem hkey

theorem Sound.step (h : l.Sound t) (htn : t ≤ c.now) : (l.step c).Sound c.now := by
  constructor
  · show ((l.allow c.key c.now).2.buckets.map Prod.fst).Nodup
    rw [(allow_spec h htn).2, map_fst_setBucket]
    exact nodup_enter h
  · intro e he
    rw [step_burst]
    rcases mem_step h htn he with rfl | hmem
    · obtain ⟨hnonneg, hle⟩ : 0 ≤ (l.charged c.key c.now).tokens ∧
          (l.charged c.key c.now).tokens ≤ l.burst := charged_bounds h htn
      exact ⟨hnonneg, hle, le_rfl⟩
    · obtain ⟨hnonneg, hle, hlast⟩ := h.bucket e hmem
      exact ⟨hnonneg, hle, hlast.trans htn⟩

theorem sound_new (perMinute burst : Int) (t : ℚ) : (newRateLimiter perMinute burst).Sound t :=
  ⟨List.nodup_nil, fun _ he => absurd he List.not_mem_nil⟩

/-! ## Buckets that are kept -/

/-- The call leaves the caller `k` what it has: its own first call runs no sweep that drops
the bucket it has just made, and no other sweep drops a bucket that is not full again. -/
structure Kept (k : String) (l : RateLimiter) (c : Call) : Prop where
  own : c.key = k → l.Sweeps c → c.now ≤ idleBucketTTL
  idle : c.key ≠ k → l.Sweeps c → ∀ b ∈ l.buckets.lookup k,
    idleBucketTTL < c.now - b.lastSeen → l.burst ≤ b.tokens + l.perSecond * (c.now - b.last)

theorem available_step_self (h : l.Sound t) (htn : t ≤ c.now) (hkept : Kept c.key l c) :
    (l.step c).available c.key u =
      min l.burst ((l.charged c.key c.now).tokens + l.perSecond * (u - c.now)) := by
  have hheld : ((l.enter c.key c.now).2.lookup c.key).isSome := by
    by_cases hsweep : l.Sweeps c
    · have hearly := hkept.own rfl hsweep
      rw [lookup_enter_sweep h hsweep, if_pos rfl]
      have hnew : (l.enter c.key c.now).1.lastSeen = 0 := by
        unfold enter
        rw [hsweep.1]
      simp [Option.filter, hnew, hearly]
    · rw [lookup_enter_quiet hsweep, if_pos rfl]
      rfl
  obtain ⟨b, hb⟩ := Option.isSome_iff_exists.mp hheld
  unfold available
  rw [lookup_step h htn, if_pos rfl, hb, Option.map_some, step_burst, step_perSecond]
  rfl

theorem available_step_other (h : l.Sound t) (htn : t ≤ c.now) (hne : c.key ≠ k)
    (hkept : Kept k l c) (hu : c.now ≤ u) : (l.step c).available k u = l.available k u := by
  have hk : k ≠ c.key := fun heq => hne heq.symm
  unfold available
  rw [lookup_step h htn, if_neg hk, step_burst, step_perSecond]
  by_cases hsweep : l.Sweeps c
  · rw [lookup_enter_sweep h hsweep, if_neg hk]
    cases hb : l.buckets.lookup k with
    | none => rfl
    | some b =>
      by_cases hidle : idleBucketTTL < c.now - b.lastSeen
      · have hfull := hkept.idle hne hsweep b hb hidle
        have hflow : l.perSecond * (c.now - b.last) ≤ l.perSecond * (u - b.last) :=
          mul_le_mul_of_nonneg_left (by linarith) l.perSecond_pos.le
        simp only [Option.filter, hidle, not_true, decide_false, Bool.false_eq_true, if_false]
        rw [min_eq_left (by linarith)]
      · simp only [Option.filter, hidle, not_false_iff, decide_true, if_true]
  · rw [lookup_enter_quiet hsweep, if_neg hk]

/-- The bucket has what the limiter would let the caller have, from `t` on. -/
def Shadows (l : RateLimiter) (k : String) (t : ℚ) (b : Bucket ℚ) : Prop :=
  ∀ u, t ≤ u → b.available l.perSecond l.burst u = l.available k u

variable {b : Bucket ℚ} {past : List Call}

theorem Shadows.step_self (hb : Shadows l c.key t b) (h : l.Sound t) (htn : t ≤ c.now)
    (hkept : Kept c.key l c) :
    Shadows (l.step c) c.key c.now (b.take l.perSecond l.burst c.now).2 := by
  intro u hu
  rw [step_perSecond, step_burst, available_step_self h htn hkept]
  have hnow := hb c.now htn
  unfold charged
  dsimp only
  by_cases hone : 1 ≤ l.available c.key c.now
  · rw [Bucket.take_of_le (by rw [hnow]; exact hone), if_pos hone, ← hnow]
    rfl
  · rw [Bucket.take_of_lt (by rw [hnow]; exact not_le.mp hone), if_neg hone, ← hnow, sub_zero]
    rfl

theorem Shadows.step_other (hb : Shadows l k t b) (h : l.Sound t) (htn : t ≤ c.now)
    (hne : c.key ≠ k) (hkept : Kept k l c) : Shadows (l.step c) k c.now b := by
  intro u hu
  rw [step_perSecond, step_burst, available_step_other h htn hne hkept hu]
  exact hb u (htn.trans hu)

theorem outcomes_eq_decisions {calls : List Call} (hb : Shadows l k t b) (h : l.Sound t)
    (hlater : ∀ c ∈ calls, t ≤ c.now) (hclock : calls.Pairwise fun c d => c.now ≤ d.now)
    (hkept : StepsMeet step (Kept k) l calls) :
    ((l.outcomes calls).filter fun o => o.1.key = k).map (fun o => (o.1.now, o.2)) =
      b.decisions l.perSecond l.burst ((calls.filter fun c => c.key = k).map Call.now) := by
  induction calls generalizing l t b with
  | nil => rfl
  | cons c calls ih =>
    have htn : t ≤ c.now := hlater c (by simp)
    have hnext := List.pairwise_cons.mp hclock
    have hsound := h.step htn
    by_cases hkey : c.key = k
    · subst hkey
      have hrest := ih (hb.step_self h htn hkept.1) hsound hnext.1 hnext.2 hkept.2
      have hgrant : (b.take l.perSecond l.burst c.now).1 = (l.allow c.key c.now).1.1 := by
        have hnow := hb c.now htn
        rw [(allow_spec h htn).1]
        by_cases hone : 1 ≤ l.available c.key c.now
        · rw [Bucket.take_of_le (by rw [hnow]; exact hone)]
          simp [hone]
        · rw [Bucket.take_of_lt (by rw [hnow]; exact not_le.mp hone)]
          simp [hone]
      rw [step_perSecond, step_burst] at hrest
      simp [outcomes, Bucket.decisions, hgrant, hrest]
    · have hrest := ih (hb.step_other h htn hkey hkept.1) hsound hnext.1 hnext.2 hkept.2
      rw [step_perSecond, step_burst] at hrest
      simp [outcomes, hkey, hrest]

/-- The calls of `k` that are let through from `lo` to `hi`. -/
def grants (k : String) (lo hi : ℚ) (os : List (Call × Bool)) : Nat :=
  os.countP fun o => o.1.key = k && (lo ≤ o.1.now && o.1.now ≤ hi && o.2)

theorem grants_eq (k : String) (lo hi : ℚ) (os : List (Call × Bool)) :
    grants k lo hi os =
      Bucket.granted lo hi ((os.filter fun o => o.1.key = k).map fun o => (o.1.now, o.2)) := by
  rw [Bucket.granted, List.countP_map, List.countP_filter, grants]
  apply List.countP_congr
  intro o _
  simp only [Function.comp_apply, Bool.and_eq_true, decide_eq_true_eq]
  tauto

/-- Every bucket was last charged by one of the calls so far. -/
def Charged (past : List Call) (l : RateLimiter) : Prop :=
  ∀ e ∈ l.buckets, ∃ d ∈ past, d.key = e.1 ∧ d.now = e.2.last ∧ d.now = e.2.lastSeen

theorem Charged.step (hpast : Charged past l) (h : l.Sound t) (htn : t ≤ c.now) :
    Charged (past ++ [c]) (l.step c) := by
  intro e he
  rcases mem_step h htn he with rfl | hmem
  · exact ⟨c, by simp, rfl, rfl, rfl⟩
  · obtain ⟨d, hd, hkey, hlast⟩ := hpast e hmem
    exact ⟨d, List.mem_append_left _ hd, hkey, hlast⟩

theorem sound_run (h : l.Sound t) (hempty : l.buckets = []) (hlater : ∀ c ∈ past, t ≤ c.now)
    (hclock : past.Pairwise fun c d => c.now ≤ d.now) :
    Charged past (run step l past) ∧
      ∀ u, t ≤ u → (∀ c ∈ past, c.now ≤ u) → (run step l past).Sound u := by
  induction past using List.reverseRecOn with
  | nil =>
    refine ⟨?_, fun u htu _ => ⟨h.nodup, fun e he => ?_⟩⟩
    · intro e he
      rw [run_nil, hempty] at he
      cases he
    · rw [run_nil, hempty] at he
      cases he
  | append_singleton past c ih =>
    rw [List.pairwise_append] at hclock
    obtain ⟨hpast, -, hlast⟩ := hclock
    obtain ⟨hcharged, hsound⟩ := ih (fun d hd => hlater d (by simp [hd])) hpast
    have hnow := hsound c.now (hlater c (by simp)) fun d hd => hlast d hd c (by simp)
    rw [run_append, run_cons, run_nil]
    refine ⟨hcharged.step hnow le_rfl, ?_⟩
    intro u _ hu
    have hstep := hnow.step le_rfl
    have hcu : c.now ≤ u := hu c (by simp)
    exact ⟨hstep.nodup, fun e he =>
      ⟨(hstep.bucket e he).1, (hstep.bucket e he).2.1, (hstep.bucket e he).2.2.trans hcu⟩⟩

structure Limited (l : RateLimiter) (calls : List Call) (k : String) : Prop where
  bounded : ∀ lo T, 0 ≤ T →
    (grants k lo (lo + T) (l.outcomes calls) : ℚ) ≤ l.burst + l.perSecond * T
  /-- a caller whose calls are all as long ago as a token takes to flow in -/
  refilled : ∀ before c after, calls = before ++ c :: after → c.key = k →
    (∀ d ∈ before, d.key = k → 1 ≤ l.perSecond * (c.now - d.now)) →
      ((run step l before).allow c.key c.now).1.1

theorem allow_of_idle (hpast : Charged past l) (h : l.Sound now)
    (hidle : ∀ d ∈ past, d.key = k → 1 ≤ l.perSecond * (now - d.now)) : (l.allow k now).1.1 := by
  rw [(allow_spec h le_rfl).1, decide_eq_true_eq]
  unfold available
  cases hb : l.buckets.lookup k with
  | none => exact l.one_le_burst
  | some b =>
    have hmem := (lookup_eq_some_of_nodup h.nodup).mp hb
    have hnonneg : 0 ≤ b.tokens := (h.bucket _ hmem).1
    obtain ⟨d, hd, hkey, hlast, -⟩ := hpast _ hmem
    have hflow : 1 ≤ l.perSecond * (now - b.last) := by
      have hcall := hidle d hd hkey
      rw [hlast] at hcall
      exact hcall
    exact le_min l.one_le_burst (by linarith)

theorem run_perSecond (l : RateLimiter) (calls : List Call) :
    (run step l calls).perSecond = l.perSecond := by
  induction calls generalizing l with
  | nil => rfl
  | cons c calls ih => rw [run_cons, ih, step_perSecond]

/-- **A caller whose bucket is kept is limited as a bucket of its own limits it.** -/
theorem limited (perMinute burst : Int) {calls : List Call}
    (hclock : calls.Pairwise fun c d => c.now ≤ d.now) {k : String}
    (hkept : StepsMeet step (Kept k) (newRateLimiter perMinute burst) calls) :
    Limited (newRateLimiter perMinute burst) calls k := by
  have hfirst : ∃ t, ∀ c ∈ calls, t ≤ c.now := by
    cases calls with
    | nil => exact ⟨0, fun c hc => absurd hc List.not_mem_nil⟩
    | cons c calls =>
      refine ⟨c.now, fun d hd => ?_⟩
      rcases List.mem_cons.mp hd with rfl | hd
      · exact le_rfl
      · exact (List.pairwise_cons.mp hclock).1 d hd
  obtain ⟨t, ht⟩ := hfirst
  have hsound := sound_new perMinute burst t
  generalize hl : newRateLimiter perMinute burst = l at *
  have hempty : l.buckets = [] := by rw [← hl]; rfl
  have hburst : 0 ≤ l.burst := zero_le_one.trans l.one_le_burst
  constructor
  · intro lo T hT
    -- a full bucket, from the first call on
    have hshadow : Shadows l k t ⟨l.burst, t⟩ := by
      intro u hu
      have hflow : 0 ≤ l.perSecond * (u - t) :=
        mul_nonneg l.perSecond_pos.le (sub_nonneg.mpr hu)
      have hnone : l.buckets.lookup k = none := by rw [hempty]; rfl
      rw [available, hnone, Bucket.available]
      exact min_eq_left (by linarith)
    have hlater : ∀ u ∈ (calls.filter fun c => c.key = k).map Call.now, t ≤ u := by
      intro u hu
      obtain ⟨c, hc, rfl⟩ := List.mem_map.mp hu
      exact ht c (List.mem_of_mem_filter hc)
    have hfull : Bucket.Sound l.burst t ⟨l.burst, t⟩ := ⟨hburst, le_rfl, le_rfl⟩
    have hbound := Bucket.granted_le l.perSecond_pos.le hburst
      (le_add_of_nonneg_right hT : lo ≤ lo + T) hfull hlater
      (List.pairwise_map.mpr (hclock.filter _))
    rw [add_sub_cancel_left] at hbound
    rw [grants_eq, outcomes_eq_decisions hshadow hsound ht hclock hkept]
    exact hbound
  · rintro before c after rfl rfl hidle
    rw [List.pairwise_append, List.pairwise_cons] at hclock
    obtain ⟨hbefore, -, horder⟩ := hclock
    obtain ⟨hcharged, hrun⟩ := sound_run hsound hempty (fun d hd => ht d (by simp [hd])) hbefore
    apply allow_of_idle hcharged
    · exact hrun c.now (ht c (by simp)) fun d hd => horder d hd c (by simp)
    · rw [run_perSecond]
      exact hidle

/-! ## A new caller over a large map -/

theorem allow_crowded (hfull : 999 ≤ l.buckets.length) (hnone : l.buckets.lookup k = none)
    (hseen : ∀ e ∈ l.buckets, now - e.2.lastSeen ≤ idleBucketTTL) (hlate : idleBucketTTL < now) :
    (l.allow k now).1.1 ∧ (l.allow k now).2.buckets = l.buckets := by
  have hentered : l.enter k now = ({ tokens := l.burst, last := now }, l.buckets) := by
    have hlarge : ¬(l.buckets ++ [(k, ({ tokens := l.burst, last := now } :
        TokenBucket))]).length < 1000 := by
      simp only [List.length_append, List.length_singleton]
      omega
    have hall : (l.buckets.filter fun e => ¬idleBucketTTL < now - e.2.lastSeen) = l.buckets := by
      rw [List.filter_eq_self]
      intro e he
      simpa using hseen e he
    rw [enter, hnone]
    show (_, sweepLocked now (l.buckets ++ [(k, _)])) = _
    rw [sweepLocked, if_neg hlarge, List.filter_append, hall]
    simp [hlate]
  have hkeep : ∀ b, setBucket k b l.buckets = l.buckets := by
    intro b
    conv_rhs => rw [← List.map_id l.buckets]
    apply List.map_congr_left
    intro e he
    have hne : e.1 ≠ k := by
      intro heq
      have hlookup := List.lookup_eq_none_iff.mp hnone e he
      simp [heq] at hlookup
    rw [if_neg hne]
    rfl
  have hone : 1 ≤ (l.refill { tokens := l.burst, last := now } now).tokens := by
    simp [refill, l.one_le_burst]
  unfold allow
  rw [hentered]
  dsimp only
  rw [if_pos hone]
  exact ⟨rfl, hkeep _⟩

theorem grants_crowded (hfull : 999 ≤ l.buckets.length) (hnone : l.buckets.lookup k = none)
    (hseen : ∀ e ∈ l.buckets, now - e.2.lastSeen ≤ idleBucketTTL) (hlate : idleBucketTTL < now)
    (n : Nat) : grants k now now (l.outcomes (List.replicate n ⟨k, now⟩)) = n := by
  have hcall := allow_crowded hfull hnone hseen hlate
  induction n generalizing l with
  | zero => rfl
  | succ n ih =>
    have hsame : (l.step ⟨k, now⟩).buckets = l.buckets := hcall.2
    rw [← hsame] at hfull hnone hseen
    have hrest := ih hfull hnone hseen (allow_crowded hfull hnone hseen hlate)
    rw [grants] at hrest ⊢
    simp [List.replicate_succ, outcomes, hcall.1, hrest]

theorem outcomes_append (l : RateLimiter) (cs ds : List Call) :
    l.outcomes (cs ++ ds) = l.outcomes cs ++ (run step l cs).outcomes ds := by
  induction cs generalizing l with
  | nil => rfl
  | cons c cs ih => simp [outcomes, ih]

theorem run_newcomers {keys : List String} (hkeys : keys.Nodup) (hfew : keys.length < 1000)
    (h : l.Sound now) (hempty : l.buckets = []) :
    (run step l (keys.map fun key => ⟨key, now⟩)).Sound now ∧
      (run step l (keys.map fun key => ⟨key, now⟩)).buckets.map Prod.fst = keys ∧
      ∀ e ∈ (run step l (keys.map fun key => ⟨key, now⟩)).buckets, e.2.lastSeen = now := by
  induction keys using List.reverseRecOn with
  | nil =>
    refine ⟨h, by simp [hempty], ?_⟩
    intro e he
    rw [List.map_nil, run_nil, hempty] at he
    cases he
  | append_singleton keys key ih =>
    rw [List.length_append, List.length_singleton] at hfew
    rw [List.nodup_append] at hkeys
    obtain ⟨hsound, hfst, hseen⟩ := ih hkeys.1 (by omega)
    rw [List.map_append, List.map_singleton, run_append, run_cons, run_nil]
    generalize run step l (keys.map fun key => ⟨key, now⟩) = m at *
    have hnew : key ∉ keys := fun hmem => hkeys.2.2 key hmem key (by simp) rfl
    have hnone : m.buckets.lookup key = none := by
      rw [List.lookup_eq_none_iff]
      intro e he
      have hmem : e.1 ∈ keys := by
        rw [← hfst]
        exact List.mem_map_of_mem he
      rw [bne_iff_ne]
      rintro rfl
      exact hnew hmem
    have hsmall : ¬1000 ≤ m.buckets.length + 1 := by
      have hlength : m.buckets.length = keys.length := by rw [← hfst, List.length_map]
      omega
    refine ⟨hsound.step le_rfl, ?_, ?_⟩
    · show (m.allow key now).2.buckets.map Prod.fst = _
      have hentered : (m.enter key now).2 =
          m.buckets ++ [(key, ({ tokens := m.burst, last := now } : TokenBucket))] := by
        rw [enter, hnone]
        show sweepLocked now (m.buckets ++ [(key, _)]) = _
        rw [sweepLocked, if_pos]
        simp only [List.length_append, List.length_singleton]
        omega
      rw [(allow_spec hsound le_rfl).2, hentered, map_fst_setBucket, List.map_append, hfst,
        List.map_singleton]
    · intro e he
      rcases mem_step hsound le_rfl he with rfl | hmem
      · rfl
      · exact hseen e hmem

end RateLimiter

private def someInstant : ℚ := 63900000000

private def serviceAccount (n : Nat) : String :=
  String.ofList ("sa:".toList ++ groupedHex n)

private theorem serviceAccount_injective : Function.Injective serviceAccount := by
  intro m n h
  have hlist : "sa:".toList ++ groupedHex m = "sa:".toList ++ groupedHex n := by
    simpa [serviceAccount] using congrArg String.toList h
  exact groupedHex_injective (List.append_cancel_left hlist)

/-- 999 service accounts call, and then another one calls 121 times, all at one instant. -/
private def crowdedCalls : List Call :=
  (((List.range 999).map serviceAccount).map fun key => ⟨key, someInstant⟩) ++
    List.replicate 121 ⟨serviceAccount 999, someInstant⟩

/-- Two callers, one of whom calls three times at an instant and again when there is one
token more. -/
private def hurriedCalls : List Call :=
  [⟨"sa:1", someInstant⟩, ⟨"sa:1", someInstant⟩, ⟨"sa:2", someInstant⟩, ⟨"sa:1", someInstant⟩,
    ⟨"sa:1", someInstant + 1⟩]

open RateLimiter in
theorem limited_hurried_calls :
    ((newRateLimiter 60 2).outcomes hurriedCalls).map Prod.snd = [true, true, true, false, true] ∧
      Limited (newRateLimiter 60 2) hurriedCalls "sa:1" := by
  refine ⟨by decide +kernel, limited 60 2 (by simp [hurriedCalls]) ?_⟩
  refine ⟨?_, ?_, ?_, ?_, ?_, trivial⟩
  all_goals exact ⟨fun _ h => absurd h.2 (by decide +kernel), fun _ => by decide +kernel⟩

open RateLimiter in
/-- With the default limits, a burst of 120 and ten a second, the thousandth caller is let
through 121 times at one instant. -/
theorem thousandth_caller_unlimited :
    (crowdedCalls.Pairwise fun c d => c.now ≤ d.now) ∧
      ¬Limited (newRateLimiter 600 120) crowdedCalls (serviceAccount 999) := by
  have hkeys : ((List.range 999).map serviceAccount).Nodup :=
    List.nodup_range.map serviceAccount_injective
  obtain ⟨hsound, hfst, hseen⟩ := run_newcomers hkeys (by simp) (sound_new 600 120 someInstant) rfl
  have hnow : ∀ c ∈ crowdedCalls, c.now = someInstant := by
    intro c hc
    rcases List.mem_append.mp hc with hc | hc
    · obtain ⟨key, -, rfl⟩ := List.mem_map.mp hc
      rfl
    · rw [List.eq_of_mem_replicate hc]
  constructor
  · apply List.pairwise_of_forall_mem_list
    intro c hc d hd
    rw [hnow c hc, hnow d hd]
  · intro h
    have hbound := h.bounded someInstant 0 le_rfl
    have hcrowd : grants (serviceAccount 999) someInstant someInstant
        ((newRateLimiter 600 120).outcomes crowdedCalls) ≥ 121 := by
      rw [crowdedCalls, outcomes_append, grants, List.countP_append]
      apply Nat.le_add_left_of_le
      apply le_of_eq
      symm
      have hlength := congrArg List.length hfst
      rw [List.length_map, List.length_map, List.length_range] at hlength
      apply grants_crowded hlength.ge
      · rw [List.lookup_eq_none_iff]
        intro e he
        rw [bne_iff_ne]
        intro heq
        have hmem : e.1 ∈ (List.range 999).map serviceAccount := by
          rw [← hfst]
          exact List.mem_map_of_mem he
        obtain ⟨i, hi, hkey⟩ := List.mem_map.mp hmem
        have hlast : i = 999 := serviceAccount_injective (hkey.trans heq.symm)
        rw [hlast] at hi
        simp at hi
      · intro e he
        rw [hseen e he, sub_self]
        decide +kernel
      · decide +kernel
    have hlimit : (newRateLimiter 600 120).burst = 120 := by decide +kernel
    rw [add_zero, mul_zero, add_zero, hlimit] at hbound
    have hcount : (121 : ℚ) ≤ 120 := by
      refine le_trans ?_ hbound
      exact_mod_cast hcrowd
    exact absurd hcount (by norm_num)

end Sluicio.Api
