import DnsFilter.Api.Auth
import DnsFilter.Lib.Rounding

/-!
# Retention of the log

`main` turns the configured days into a `time.Duration`, a 64-bit count of nanoseconds, and
`cleanup` of `internal/logging/retention.go` turns it back into days, for the interval of
`drop_chunks`.

* `cleanupDays_of_hours`: whole days up to what a duration holds come back;
* `cleanupDays_le`, `cleanupDays_nonpos`: what comes back of the other durations is small;
* `retains_iff`: the log is kept as configured exactly up to 106751 days.
-/

namespace DnsFilter

/-- A conversion to `int64`. -/
def int64 (x : ℤ) : ℤ := x.bmod (2 ^ 64)

/-- The result of an operation on `float64` values. -/
def float64 (x : ℚ) : ℚ := Rounding.nearest 52 x

/-- A conversion of a `float64` to an integer. -/
def truncate (x : ℚ) : ℤ := if 0 ≤ x then ⌊x⌋ else ⌈x⌉

/-- `Duration.Hours` of the package `time`. -/
def Duration.hours (d : ℤ) : ℚ :=
  float64 (float64 (d.tdiv hour) + float64 (float64 (d.tmod hour) / 3600000000000))

/-- `time.Duration(cfg.DB.RetentionDays)*24*time.Hour`. -/
def retentionAge (retentionDays : ℤ) : ℤ := int64 (int64 (retentionDays * 24) * hour)

/-- A chunk of `dns_query_logs`, with the times of its rows. -/
structure Chunk where
  rangeEnd : ℤ
  rows : List ℤ
  rows_lt : ∀ t ∈ rows, t < rangeEnd

structure Retention where
  maxAge : ℤ
  interval : ℤ

namespace Retention

/-- `NewRetention`. -/
def new (maxAge : ℤ) : Retention := ⟨maxAge, 24 * hour⟩

/-- The days in the interval of `cleanup`. -/
def cleanupDays (r : Retention) : ℤ := truncate (float64 (Duration.hours r.maxAge / 24))

/-- The chunks that `cleanup` drops; `ago now n` is the time `n` days before `now`, which depends
on the time zone of the database. -/
def cleanup (r : Retention) (ago : ℤ → ℤ → ℤ) (now : ℤ) (chunks : List Chunk) : List Chunk :=
  chunks.filter fun c => c.rangeEnd ≤ ago now r.cleanupDays

end Retention

/-- The interval has the configured number of days, and only older rows are dropped. -/
structure Retains (days : ℤ) : Prop where
  interval : (Retention.new (retentionAge days)).cleanupDays = days
  older : ∀ ago now chunks, ∀ c ∈ (Retention.new (retentionAge days)).cleanup ago now chunks,
    ∀ t ∈ c.rows, t < ago now days

/-! ### Durations in hours -/

theorem float64_natCast {n : ℕ} (hn : n < 2 ^ 53) : float64 n = n := Rounding.nearest_natCast hn

theorem float64_le {x : ℚ} {n : ℕ} (hn : n < 2 ^ 53) (hx : x ≤ n) : float64 x ≤ n :=
  (Rounding.nearest_mono 52 hx).trans_eq (float64_natCast hn)

theorem float64_nonpos {x : ℚ} (hx : x ≤ 0) : float64 x ≤ 0 := by
  simpa using float64_le (n := 0) (by norm_num) (by simpa using hx)

theorem truncate_le {x : ℚ} {n : ℕ} (hx : x ≤ n) : truncate x ≤ n := by
  unfold truncate
  split_ifs with hpos
  · exact_mod_cast (Int.floor_le x).trans hx
  · exact Int.ceil_le.2 (by exact_mod_cast hx)

/-- Whole days come back. -/
theorem cleanupDays_of_hours {n : ℕ} (hn : n * 24 < 2 ^ 53) :
    (Retention.new ((n * 24 : ℕ) * hour)).cleanupDays = n := by
  have hzero : float64 0 = 0 := by simpa using float64_natCast (n := 0) (by norm_num)
  have hhour : hour ≠ 0 := by norm_num [hour, second]
  have hhours : Duration.hours ((n * 24 : ℕ) * hour) = (n * 24 : ℕ) := by
    have hquot : float64 (((n * 24 : ℕ) : ℤ) : ℚ) = (n * 24 : ℕ) := by
      rw [Int.cast_natCast, float64_natCast hn]
    rw [Duration.hours, Int.mul_tdiv_cancel _ hhour, Int.mul_tmod_left, Int.cast_zero, hzero,
      zero_div, hzero, add_zero, hquot, float64_natCast hn]
  have hday : ((n * 24 : ℕ) : ℚ) / 24 = n := by
    push_cast
    rw [mul_div_cancel_right₀ _ (by norm_num)]
  rw [Retention.cleanupDays, Retention.new, hhours, hday, float64_natCast (by omega), truncate,
    if_pos (Nat.cast_nonneg n), Int.floor_natCast]

/-- Rounding does not add a day. -/
theorem cleanupDays_le_of_hours {d : ℤ} {n : ℕ} (hn : n < 2 ^ 53)
    (hd : Duration.hours d ≤ (n * 24 : ℕ)) : (Retention.new d).cleanupDays ≤ n := by
  refine truncate_le (float64_le hn ?_)
  rw [div_le_iff₀ (by norm_num)]
  exact_mod_cast hd

/-- A duration of less than `n` days. -/
theorem cleanupDays_le {d : ℤ} {n : ℕ} (hd : 0 ≤ d) (hlt : d < (n * 24 : ℕ) * hour)
    (hn : n * 24 < 2 ^ 53) : (Retention.new d).cleanupDays ≤ n := by
  have hhour : hour = 3600000000000 := by norm_num [hour, second]
  have hquot : d.tdiv hour + 1 ≤ (n * 24 : ℕ) := by
    rw [Int.tdiv_eq_ediv_of_nonneg hd]
    exact Int.ediv_lt_of_lt_mul (by omega) hlt
  have hrem : d.tmod hour ≤ (3600000000000 : ℕ) :=
    (Int.tmod_lt_of_pos d (by omega)).le.trans_eq hhour
  have hwhole : float64 (d.tdiv hour : ℤ) + 1 ≤ (n * 24 : ℕ) := by
    obtain ⟨m, hm⟩ := Int.eq_ofNat_of_zero_le (Int.tdiv_nonneg hd (show 0 ≤ hour by omega))
    rw [hm] at hquot ⊢
    rw [Int.cast_natCast, float64_natCast (by omega)]
    exact_mod_cast hquot
  have hpart : float64 (float64 (d.tmod hour : ℤ) / 3600000000000) ≤ 1 := by
    have hnsec : float64 (d.tmod hour : ℤ) ≤ (3600000000000 : ℕ) :=
      float64_le (by norm_num) (by exact_mod_cast hrem)
    have hfraction : float64 (d.tmod hour : ℤ) / 3600000000000 ≤ (1 : ℕ) := by
      rw [div_le_iff₀ (by norm_num)]
      simpa using hnsec
    simpa using float64_le (by norm_num) hfraction
  refine cleanupDays_le_of_hours (by omega) (float64_le hn ?_)
  linarith

theorem cleanupDays_nonpos {d : ℤ} (hd : d ≤ 0) : (Retention.new d).cleanupDays ≤ 0 := by
  have hhour : 0 < hour := by norm_num [hour, second]
  have hquot : ((d.tdiv hour : ℤ) : ℚ) ≤ 0 := by
    have hmono := Int.tdiv_le_tdiv hhour hd
    rw [Int.zero_tdiv] at hmono
    exact_mod_cast hmono
  have hrem : ((d.tmod hour : ℤ) : ℚ) ≤ 0 := by
    have hneg := Int.tmod_nonneg hour (neg_nonneg.2 hd)
    rw [Int.neg_tmod, neg_nonneg] at hneg
    exact_mod_cast hneg
  have hpart : float64 (float64 (d.tmod hour : ℤ) / 3600000000000) ≤ 0 :=
    float64_nonpos (div_nonpos_of_nonpos_of_nonneg (float64_nonpos hrem) (by norm_num))
  have hhours : Duration.hours d ≤ 0 :=
    float64_nonpos (add_nonpos (float64_nonpos hquot) hpart)
  exact cleanupDays_le_of_hours (n := 0) (by norm_num) (by simpa using hhours)

/-! ### Wrap-around -/

/-- The duration, with one wrap for the two of the code. -/
theorem retentionAge_eq (days : ℤ) : retentionAge days = int64 (days * 24 * hour) :=
  Int.bmod_mul_bmod

theorem int64_of_lt {x : ℤ} (hx : 0 ≤ x) (hlt : x < 2 ^ 63) : int64 x = x :=
  Int.bmod_eq_of_le (by omega) (by omega)

theorem int64_lt (x : ℤ) : int64 x < 2 ^ 63 :=
  Int.bmod_lt (by norm_num)

/-- Up to 106751 days the duration is exact. -/
theorem cleanupDays_retentionAge {days : ℤ} (h : 1 ≤ days) (hle : days ≤ 106751) :
    (Retention.new (retentionAge days)).cleanupDays = days := by
  obtain ⟨n, rfl⟩ := Int.eq_ofNat_of_zero_le (show 0 ≤ days by omega)
  have hexact : retentionAge n = (n * 24 : ℕ) * hour := by
    have hhour : hour = 3600000000000 := by norm_num [hour, second]
    rw [retentionAge_eq, hhour, int64_of_lt (by omega) (by omega)]
    push_cast
    rfl
  rw [hexact]
  exact cleanupDays_of_hours (by omega)

/-- From 106752 days on it wraps around. -/
theorem cleanupDays_retentionAge_lt {days : ℤ} (h : 106752 ≤ days) :
    (Retention.new (retentionAge days)).cleanupDays < days := by
  have hhour : hour = 3600000000000 := by norm_num [hour, second]
  rcases le_or_gt (retentionAge days) 0 with hneg | hpos
  · have hdays := cleanupDays_nonpos hneg
    omega
  · have hlt : retentionAge days < (106752 * 24 : ℕ) * hour := by
      have hbound := int64_lt (days * 24 * hour)
      rw [← retentionAge_eq] at hbound
      rw [hhour]
      omega
    have hdays := cleanupDays_le hpos.le hlt (by norm_num)
    rcases h.eq_or_lt with rfl | hlt'
    · -- the first one that wraps becomes negative
      have hwrap : retentionAge 106752 ≤ 0 := by
        rw [retentionAge_eq, hhour]
        decide
      omega
    · push_cast at hdays
      omega

/-! ### The retention -/

/-- If the interval is right, then only older rows are dropped. -/
theorem retains_of_interval {days : ℤ}
    (h : (Retention.new (retentionAge days)).cleanupDays = days) : Retains days := by
  refine ⟨h, fun ago now chunks c hc t ht => ?_⟩
  rw [Retention.cleanup, h, List.mem_filter, decide_eq_true_eq] at hc
  exact (c.rows_lt t ht).trans_le hc.2

/-- **The log is kept as configured exactly up to 106751 days.** -/
theorem retains_iff {days : ℤ} (h : 1 ≤ days) (hint : days < 2 ^ 63) :
    Retains days ↔ days ≤ 106751 := by
  constructor
  · intro hretains
    by_contra hlarge
    exact (cleanupDays_retentionAge_lt (by omega)).ne hretains.interval
  · exact fun hle => retains_of_interval (cleanupDays_retentionAge h hle)

/-- A chunk with a row of the last nanosecond. -/
def lastChunk : Chunk := ⟨0, [-1], by simp⟩

/-- With 106752 days the interval is of -106751 days, and all the log is dropped. -/
theorem retention_wraps :
    (Retention.new (retentionAge 106752)).cleanupDays = -106751 ∧
      lastChunk ∈ (Retention.new (retentionAge 106752)).cleanup (fun now n => now - n * (24 * hour))
        0 [lastChunk] ∧
      ¬ Retains 106752 := by
  have hdays : (Retention.new (retentionAge 106752)).cleanupDays = -106751 := by decide +kernel
  refine ⟨hdays, ?_, fun h => ?_⟩
  · simp [Retention.cleanup, hdays, lastChunk, hour, second]
  · exact absurd (hdays.symm.trans h.interval) (by norm_num)

/-- The default of 120 days. -/
theorem retains_default : Retains 120 := (retains_iff (by norm_num) (by norm_num)).2 (by norm_num)

end DnsFilter
