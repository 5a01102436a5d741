import ExchangeLab.Lib.Rank
import Mathlib.Data.Nat.Size
import Mathlib.Data.UInt

/-!
# ExchangeLab.PerformanceMetrics

The latencies of the matching engine, counted in buckets of powers of two, and the percentiles that a
snapshot reads off them.

* `Counted`: the histogram holds the samples that were recorded; one lemma for a recording.
* `percentile_eq`: the walk over the buckets ends at the bucket of the sample with the target rank.
* `percentiles_bracket`: what that says of a percentile and the sample itself.
-/

namespace ExchangeLab

open Rank

/-- The latency part of the class. The mean of a snapshot is a floating-point number and left out. -/
structure PerformanceMetrics where
  latencyHistogram : Vector UInt64 64 := Vector.replicate 64 0
  latencySamples : UInt64 := 0
  latencySumNs : UInt64 := 0
  latencyMaxNs : UInt64 := 0

structure MatchingLatencySnapshot where
  samples : UInt64
  p50Ns : UInt64
  p95Ns : UInt64
  p99Ns : UInt64
  maxNs : UInt64
  deriving DecidableEq, Repr

namespace PerformanceMetrics

/-! ## The class -/

/-- `std::bit_width` is `Nat.size`. -/
def latencyBucket (nanoseconds : UInt64) : Nat :=
  if nanoseconds = 0 then 0 else min (nanoseconds.toNat.size - 1) (64 - 1)

theorem latencyBucket_lt (nanoseconds : UInt64) : latencyBucket nanoseconds < 64 := by
  rw [latencyBucket]
  split <;> omega

def bucketUpperBound (bucket : Nat) : UInt64 :=
  if bucket ≥ 63 then 0xFFFFFFFFFFFFFFFF else (1 <<< UInt64.ofNat (bucket + 1)) - 1

/-- With one thread at a time, the exchange of the maximum succeeds in the end. -/
def recordMatchingLatency (metrics : PerformanceMetrics) (nanoseconds : UInt64) :
    PerformanceMetrics where
  latencyHistogram :=
    metrics.latencyHistogram.set (latencyBucket nanoseconds)
      ((metrics.latencyHistogram.get ⟨_, latencyBucket_lt nanoseconds⟩) + 1)
      (latencyBucket_lt nanoseconds)
  latencySamples := metrics.latencySamples + 1
  latencySumNs := metrics.latencySumNs + nanoseconds
  latencyMaxNs := if metrics.latencyMaxNs < nanoseconds then nanoseconds else metrics.latencyMaxNs

/-- The loop of `percentile`, from a bucket on. -/
def walk (target observedMax : UInt64) : List UInt64 → Nat → UInt64 → UInt64
  | [], _, _ => observedMax
  | count :: counts, bucket, cumulative =>
    if cumulative + count ≥ target then min (bucketUpperBound bucket) observedMax
    else walk target observedMax counts (bucket + 1) (cumulative + count)

def percentile (histogram : Vector UInt64 64) (total numerator denominator observedMax : UInt64) :
    UInt64 :=
  if total = 0 ∨ denominator = 0 then 0
  else
    let target := max 1 ((total * numerator + denominator - 1) / denominator)
    walk target observedMax histogram.toList 0 0

def snapshot (metrics : PerformanceMetrics) : MatchingLatencySnapshot where
  samples := metrics.latencySamples
  p50Ns := percentile metrics.latencyHistogram metrics.latencySamples 50 100 metrics.latencyMaxNs
  p95Ns := percentile metrics.latencyHistogram metrics.latencySamples 95 100 metrics.latencyMaxNs
  p99Ns := percentile metrics.latencyHistogram metrics.latencySamples 99 100 metrics.latencyMaxNs
  maxNs := metrics.latencyMaxNs

/-! ## Buckets -/

/-- The bucket of an integer. -/
def bucketOf (x : Nat) : Nat := min (x.size - 1) 63

theorem latencyBucket_eq (nanoseconds : UInt64) :
    latencyBucket nanoseconds = bucketOf nanoseconds.toNat := by
  rw [latencyBucket]
  split
  · rename_i hzero
    rw [hzero]
    decide
  · rfl

theorem bucketOf_mono {x y : Nat} (h : x ≤ y) : bucketOf x ≤ bucketOf y := by
  have := Nat.size_le_size h
  rw [bucketOf, bucketOf]
  omega

theorem bucketUpperBound_toNat {bucket : Nat} (h : bucket ≤ 63) :
    (bucketUpperBound bucket).toNat = 2 ^ (bucket + 1) - 1 := by
  rw [bucketUpperBound]
  split
  · obtain rfl : bucket = 63 := by omega
    rfl
  · have hshift : (UInt64.ofNat (bucket + 1)).toNat % 64 = bucket + 1 := by
      rw [UInt64.toNat_ofNat_of_lt' (by rw [UInt64.size]; omega)]
      omega
    have hpow : 2 ^ (bucket + 1) < 2 ^ 64 := Nat.pow_lt_pow_right (by decide) (by omega)
    have hone : ((1 : UInt64) <<< UInt64.ofNat (bucket + 1)).toNat = 2 ^ (bucket + 1) := by
      rw [UInt64.toNat_shiftLeft, hshift, show (1 : UInt64).toNat = 1 from rfl,
        Nat.one_shiftLeft, Nat.mod_eq_of_lt hpow]
    rw [UInt64.toNat_sub_of_le, hone]
    · rfl
    · rw [UInt64.le_iff_toNat_le, hone]
      exact Nat.one_le_two_pow

/-- A bucket reaches from its samples to less than twice as much. -/
theorem bucketUpperBound_bracket {x : Nat} (h : x < 2 ^ 64) :
    x ≤ (bucketUpperBound (bucketOf x)).toNat ∧
      (bucketUpperBound (bucketOf x)).toNat ≤ max 1 (2 * x - 1) := by
  have hsize : x.size ≤ 64 := Nat.size_le.mpr h
  have hbucket : bucketOf x = x.size - 1 := by
    rw [bucketOf]
    omega
  rw [bucketUpperBound_toNat (by omega), hbucket]
  rcases Nat.eq_zero_or_pos x with rfl | hpos
  · decide
  · have hpos' : 0 < x.size := Nat.size_pos.mpr hpos
    have hlt := Nat.lt_size_self x
    have hle : 2 ^ (x.size - 1) ≤ x := Nat.lt_size.mp (by omega)
    have hpow : 2 ^ (x.size - 1 + 1) = 2 * 2 ^ (x.size - 1) := Nat.pow_succ'
    rw [Nat.sub_add_cancel hpos'] at hpow ⊢
    omega

/-! ## What is recorded -/

structure Counted (samples : List UInt64) (metrics : PerformanceMetrics) : Prop where
  histogram : ∀ bucket (h : bucket < 64), metrics.latencyHistogram[bucket] =
    UInt64.ofNat (samples.countP (latencyBucket · = bucket))
  total : metrics.latencySamples = UInt64.ofNat samples.length
  bounded : ∀ sample ∈ samples, sample ≤ metrics.latencyMaxNs
  reached : metrics.latencyMaxNs ∈ 0 :: samples

theorem counted_nil : Counted [] {} where
  histogram _ h := Vector.getElem_replicate h
  total := rfl
  bounded := nofun
  reached := .head _

theorem Counted.record {samples : List UInt64} {metrics : PerformanceMetrics}
    (h : Counted samples metrics) (nanoseconds : UInt64) :
    Counted (samples ++ [nanoseconds]) (metrics.recordMatchingLatency nanoseconds) where
  histogram bucket hbucket := by
    rw [recordMatchingLatency, List.countP_append, UInt64.ofNat_add, ← h.histogram bucket hbucket,
      List.countP_singleton]
    dsimp only
    rw [Vector.getElem_set]
    split
    · rename_i heq
      subst heq
      rw [if_pos (decide_eq_true rfl)]
      rfl
    · rename_i hne
      rw [if_neg (by simpa using hne)]
      exact (UInt64.add_zero _).symm
  total := by
    rw [recordMatchingLatency, List.length_append, UInt64.ofNat_add, ← h.total]
    rfl
  bounded sample hsample := by
    rw [recordMatchingLatency]
    dsimp only
    rcases List.mem_append.mp hsample with hold | hnew
    · have := h.bounded sample hold
      split <;> grind
    · obtain rfl := List.mem_singleton.mp hnew
      split <;> grind
  reached := by
    have hreached := h.reached
    rw [recordMatchingLatency]
    dsimp only
    split
    · exact List.mem_cons_of_mem _ (List.mem_append_right _ (.head _))
    · rw [← List.cons_append]
      exact List.mem_append_left _ hreached

/-- The maximum is that of the samples. -/
theorem Counted.maximum {samples : List UInt64} {metrics : PerformanceMetrics}
    (h : Counted samples metrics) (hne : samples ≠ []) : metrics.latencyMaxNs ∈ samples := by
  obtain ⟨sample, hsample⟩ := List.exists_mem_of_ne_nil samples hne
  rcases List.mem_cons.mp h.reached with hzero | hmem
  · have hle := h.bounded sample hsample
    rw [hzero] at hle ⊢
    rwa [UInt64.le_zero_iff.mp hle] at hsample
  · exact hmem

theorem counted_recorded (samples : List UInt64) :
    Counted samples (samples.foldl recordMatchingLatency {}) := by
  induction samples using List.reverseRecOn with
  | nil => exact counted_nil
  | append_singleton samples nanoseconds ih =>
    rw [List.foldl_append]
    exact ih.record nanoseconds

/-! ## Percentiles -/

theorem countP_lt_succ {α : Type} (f : α → Nat) (xs : List α) (n : Nat) :
    xs.countP (f · < n + 1) = xs.countP (f · < n) + xs.countP (f · = n) := by
  induction xs with
  | nil => rfl
  | cons x xs ih =>
    rw [List.countP_cons, List.countP_cons, List.countP_cons, ih]
    simp only [decide_eq_true_eq]
    grind

/-- The rank of a percentile: `samples.length * k / 100`, rounded up. -/
def rank (samples : List UInt64) (k : Nat) : Nat := (samples.length * k + 99) / 100

/-- It is the least number whose hundredfold is enough. -/
theorem rank_le_iff {samples : List UInt64} {k n : Nat} :
    rank samples k ≤ n ↔ samples.length * k ≤ 100 * n := by
  rw [rank]
  omega

section Percentile

variable {samples : List UInt64} {metrics : PerformanceMetrics} {target k : Nat} {sample : UInt64}

/-- A bucket reaches the target exactly if it is not below that of the sample of that rank. -/
theorem le_countP_bucket
    (hsample : kthSmallest (samples.map UInt64.toNat) target = some sample.toNat) (bucket : Nat) :
    target ≤ samples.countP (latencyBucket · < bucket + 1) ↔ latencyBucket sample ≤ bucket := by
  have hcount : samples.countP (latencyBucket · < bucket + 1) =
      (samples.map UInt64.toNat).countP (bucketOf · ≤ bucket) := by
    rw [List.countP_map]
    refine List.countP_congr fun s _ => ?_
    rw [latencyBucket_eq]
    simp only [Function.comp_apply, decide_eq_true_eq, Nat.lt_succ_iff]
  rw [hcount, latencyBucket_eq]
  exact le_countP_iff (p := (bucketOf · ≤ bucket))
    (fun _ _ hle hbucket => (bucketOf_mono hle).trans hbucket) hsample

/-- The walk ends at the bucket of the sample with the target rank. -/
theorem walk_eq (h : Counted samples metrics) (hsmall : samples.length < 2 ^ 64)
    (htarget : target < 2 ^ 64)
    (hsample : kthSmallest (samples.map UInt64.toNat) target = some sample.toNat)
    (observedMax : UInt64) {bucket : Nat} (hle : bucket ≤ latencyBucket sample) :
    walk (UInt64.ofNat target) observedMax (metrics.latencyHistogram.toList.drop bucket) bucket
      (UInt64.ofNat (samples.countP (latencyBucket · < bucket))) =
        min (bucketUpperBound (latencyBucket sample)) observedMax := by
  have hlast := latencyBucket_lt sample
  have hbucket : bucket < metrics.latencyHistogram.toList.length := by
    rw [Vector.length_toList]
    omega
  have hcount : samples.countP (latencyBucket · < bucket + 1) < 2 ^ 64 :=
    Nat.lt_of_le_of_lt List.countP_le_length hsmall
  have hreaches : UInt64.ofNat (samples.countP (latencyBucket · < bucket + 1)) ≥ UInt64.ofNat target ↔
      latencyBucket sample ≤ bucket := by
    rw [ge_iff_le, UInt64.le_iff_toNat_le, UInt64.toNat_ofNat_of_lt' htarget,
      UInt64.toNat_ofNat_of_lt' hcount, le_countP_bucket hsample]
  rw [List.drop_eq_getElem_cons hbucket, walk, Vector.getElem_toList, h.histogram bucket (by omega),
    ← UInt64.ofNat_add, ← countP_lt_succ]
  rcases Nat.eq_or_lt_of_le hle with heq | hlt
  · rw [if_pos (hreaches.mpr (Nat.le_of_eq heq.symm)), heq]
  · rw [if_neg (mt hreaches.mp (Nat.not_le.mpr hlt))]
    exact walk_eq h hsmall htarget hsample observedMax hlt
termination_by latencyBucket sample - bucket

/-- The target is the rank, rounded up; no product or sum on the way leaves 64 bits. -/
theorem target_eq (hpos : 0 < samples.length) (hk : 0 < k)
    (hsmall : samples.length * k + 99 < 2 ^ 64) :
    max 1 ((UInt64.ofNat samples.length * UInt64.ofNat k + 100 - 1) / 100) =
      UInt64.ofNat (rank samples k) := by
  have hproduct : 0 < samples.length * k := Nat.mul_pos hpos hk
  have hsum : UInt64.ofNat samples.length * UInt64.ofNat k + 100 - 1 =
      UInt64.ofNat (samples.length * k + 99) := by
    rw [UInt64.ofNat_add, UInt64.ofNat_mul]
    grind
  have hquotient : (UInt64.ofNat (samples.length * k + 99) / 100).toNat =
      rank samples k := by
    rw [UInt64.toNat_div, UInt64.toNat_ofNat_of_lt' hsmall]
    rfl
  have hone : 1 ≤ rank samples k := by
    rw [rank]
    omega
  rw [hsum, show ∀ t : UInt64, max 1 t = if 1 ≤ t then t else 1 from fun _ => rfl, if_pos]
  · rw [← hquotient, UInt64.ofNat_toNat]
  · rw [UInt64.le_iff_toNat_le, hquotient]
    exact hone

theorem percentile_eq (h : Counted samples metrics) (hpos : 0 < samples.length) (hk : 0 < k)
    (hsmall : samples.length * k + 99 < 2 ^ 64)
    (hsample : kthSmallest (samples.map UInt64.toNat) (rank samples k) =
      some sample.toNat) :
    percentile metrics.latencyHistogram metrics.latencySamples (UInt64.ofNat k) 100
      metrics.latencyMaxNs = min (bucketUpperBound (latencyBucket sample)) metrics.latencyMaxNs := by
  have hlength : samples.length < 2 ^ 64 := by
    have := Nat.le_mul_of_pos_right samples.length hk
    omega
  have hnonzero : ¬(UInt64.ofNat samples.length = 0 ∨ (100 : UInt64) = 0) := by
    rintro (hzero | hzero)
    · have := congrArg UInt64.toNat hzero
      rw [UInt64.toNat_ofNat_of_lt' hlength] at this
      exact absurd this (Nat.ne_of_gt hpos)
    · exact absurd hzero (by decide)
  have htarget : rank samples k < 2 ^ 64 := by
    rw [rank]
    omega
  have hwalk := walk_eq h hlength htarget hsample metrics.latencyMaxNs (Nat.zero_le _)
  rw [percentile, h.total, if_neg hnonzero, target_eq hpos hk hsmall, ← hwalk]
  simp

theorem exists_ranked (hpos : 0 < samples.length) (hk : 0 < k) (hle : k ≤ 100) :
    ∃ sample ∈ samples, kthSmallest (samples.map UInt64.toNat) (rank samples k) =
      some sample.toNat := by
  have hproduct : 0 < samples.length * k := Nat.mul_pos hpos hk
  have hbound : samples.length * k ≤ samples.length * 100 := Nat.mul_le_mul_left _ hle
  have hrank : rank samples k ≤ (samples.map UInt64.toNat).length := by
    rw [List.length_map, rank_le_iff]
    omega
  have hpositive : 0 < rank samples k := by
    rw [rank]
    omega
  obtain ⟨x, hx⟩ := exists_kthSmallest hpositive hrank
  obtain ⟨sample, hsample, rfl⟩ := List.mem_map.mp (kthSmallest_mem hx)
  exact ⟨sample, hsample, hx⟩

theorem toNat_min (a b : UInt64) : (min a b).toNat = min a.toNat b.toNat := by
  rw [show min a b = if a ≤ b then a else b from rfl, Nat.min_def]
  split <;> simp_all [UInt64.le_iff_toNat_le]

/-- A reported percentile and the sample of its rank: not below it, and not above twice as much. -/
def Brackets (samples : List UInt64) (k : Nat) (p : UInt64) : Prop :=
  ∃ x maximum, kthSmallest (samples.map UInt64.toNat) (rank samples k) = some x ∧
    (samples.map UInt64.toNat).max? = some maximum ∧
    x ≤ p.toNat ∧ p.toNat ≤ min maximum (max 1 (2 * x - 1))

theorem percentile_brackets (h : Counted samples metrics) (hpos : 0 < samples.length) (hk : 0 < k)
    (hle : k ≤ 100) (hsmall : samples.length * k + 99 < 2 ^ 64) :
    Brackets samples k (percentile metrics.latencyHistogram metrics.latencySamples (UInt64.ofNat k)
      100 metrics.latencyMaxNs) := by
  obtain ⟨sample, hmem, hsample⟩ := exists_ranked hpos hk hle
  have hmaximum : (samples.map UInt64.toNat).max? = some metrics.latencyMaxNs.toNat := by
    rw [List.max?_eq_some_iff]
    refine ⟨List.mem_map_of_mem (h.maximum (List.ne_nil_of_length_pos hpos)), fun x hx => ?_⟩
    obtain ⟨other, hother, rfl⟩ := List.mem_map.mp hx
    exact UInt64.le_iff_toNat_le.mp (h.bounded other hother)
  have hbounded := UInt64.le_iff_toNat_le.mp (h.bounded sample hmem)
  obtain ⟨hlow, hhigh⟩ := bucketUpperBound_bracket sample.toNat_lt
  refine ⟨sample.toNat, _, hsample, hmaximum, ?_⟩
  rw [percentile_eq h hpos hk hsmall hsample, toNat_min, latencyBucket_eq]
  omega

theorem percentile_mono (h : Counted samples metrics) (hpos : 0 < samples.length) {l : Nat}
    (hk : 0 < k) (hkl : k ≤ l) (hle : l ≤ 100) (hsmall : samples.length * l + 99 < 2 ^ 64) :
    percentile metrics.latencyHistogram metrics.latencySamples (UInt64.ofNat k) 100
        metrics.latencyMaxNs ≤
      percentile metrics.latencyHistogram metrics.latencySamples (UInt64.ofNat l) 100
        metrics.latencyMaxNs := by
  obtain ⟨sample, -, hsample⟩ := exists_ranked hpos hk (hkl.trans hle)
  obtain ⟨sample', -, hsample'⟩ := exists_ranked hpos (Nat.lt_of_lt_of_le hk hkl) hle
  have hproduct : samples.length * k ≤ samples.length * l := Nat.mul_le_mul_left _ hkl
  have hrank : rank samples k ≤ rank samples l :=
    rank_le_iff.mpr (hproduct.trans (rank_le_iff.mp (Nat.le_refl _)))
  have hbucket := bucketOf_mono (kthSmallest_le hrank hsample hsample')
  have hlast : ∀ x, bucketOf x ≤ 63 := fun x => Nat.min_le_right _ _
  have hpow : 2 ^ (bucketOf sample.toNat + 1) ≤ 2 ^ (bucketOf sample'.toNat + 1) :=
    Nat.pow_le_pow_right (by decide) (Nat.succ_le_succ hbucket)
  rw [percentile_eq h hpos hk (by omega) hsample,
    percentile_eq h hpos (Nat.lt_of_lt_of_le hk hkl) hsmall hsample', UInt64.le_iff_toNat_le,
    toNat_min, toNat_min, latencyBucket_eq, latencyBucket_eq, bucketUpperBound_toNat (hlast _),
    bucketUpperBound_toNat (hlast _)]
  omega

end Percentile

/-- The snapshot after latencies have been recorded one after the other. -/
def snapshotAfter (samples : List UInt64) : MatchingLatencySnapshot :=
  (samples.foldl recordMatchingLatency {}).snapshot

theorem percentiles_bracket (samples : List UInt64) (hne : samples ≠ [])
    (hsmall : 99 * samples.length + 99 < 2 ^ 64) :
    Brackets samples 50 (snapshotAfter samples).p50Ns ∧
    Brackets samples 95 (snapshotAfter samples).p95Ns ∧
    Brackets samples 99 (snapshotAfter samples).p99Ns ∧
    (snapshotAfter samples).p50Ns ≤ (snapshotAfter samples).p95Ns ∧
    (snapshotAfter samples).p95Ns ≤ (snapshotAfter samples).p99Ns ∧
    (snapshotAfter samples).p99Ns ≤ (snapshotAfter samples).maxNs := by
  have hcounted := counted_recorded samples
  have hpos := List.length_pos_iff.mpr hne
  have hfits : ∀ k ≤ 99, samples.length * k + 99 < 2 ^ 64 := by
    intro k hk
    have := Nat.mul_le_mul_left samples.length hk
    omega
  have hbrackets : ∀ k, 0 < k → k ≤ 99 → Brackets samples k _ := fun k hk hle =>
    percentile_brackets hcounted hpos hk (hle.trans (by decide)) (hfits k hle)
  have hlast : (snapshotAfter samples).p99Ns ≤ (snapshotAfter samples).maxNs := by
    obtain ⟨sample, -, hsample⟩ := exists_ranked hpos (k := 99) (by decide) (by decide)
    have heq : (snapshotAfter samples).p99Ns = _ :=
      percentile_eq hcounted hpos (by decide) (hfits _ (by decide)) hsample
    rw [heq, UInt64.le_iff_toNat_le, toNat_min]
    exact Nat.min_le_right _ _
  exact ⟨hbrackets 50 (by decide) (by decide), hbrackets 95 (by decide) (by decide),
    hbrackets 99 (by decide) (by decide),
    percentile_mono hcounted hpos (by decide) (by decide) (by decide) (hfits _ (by decide)),
    percentile_mono hcounted hpos (by decide) (by decide) (by decide) (hfits _ (by decide)), hlast⟩

/-- Three latencies at the edges of the buckets. -/
theorem percentiles_bracket_edges :
    Brackets [0, 4, 0xFFFFFFFFFFFFFFFF] 50 (snapshotAfter [0, 4, 0xFFFFFFFFFFFFFFFF]).p50Ns ∧
    Brackets [0, 4, 0xFFFFFFFFFFFFFFFF] 95 (snapshotAfter [0, 4, 0xFFFFFFFFFFFFFFFF]).p95Ns ∧
    Brackets [0, 4, 0xFFFFFFFFFFFFFFFF] 99 (snapshotAfter [0, 4, 0xFFFFFFFFFFFFFFFF]).p99Ns ∧
    (snapshotAfter [0, 4, 0xFFFFFFFFFFFFFFFF]).p50Ns ≤
      (snapshotAfter [0, 4, 0xFFFFFFFFFFFFFFFF]).p95Ns ∧
    (snapshotAfter [0, 4, 0xFFFFFFFFFFFFFFFF]).p95Ns ≤
      (snapshotAfter [0, 4, 0xFFFFFFFFFFFFFFFF]).p99Ns ∧
    (snapshotAfter [0, 4, 0xFFFFFFFFFFFFFFFF]).p99Ns ≤
      (snapshotAfter [0, 4, 0xFFFFFFFFFFFFFFFF]).maxNs :=
  percentiles_bracket [0, 4, 0xFFFFFFFFFFFFFFFF] (by decide) (by decide)

end PerformanceMetrics

end ExchangeLab
