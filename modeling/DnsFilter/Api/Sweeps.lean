import DnsFilter.Api.RateLimit

/-!
# Idle visitors

Every minute `cleanup` forgets the visitors that were not seen for three minutes.  A limiter
that never forgot a bucket would give the same answers, as long as three minutes fill a
bucket.

* `Buckets`: the limiter that keeps one bucket for every key, forever;
* `Refines.apply`: a cleanup, a request and the passing of time keep the refinement;
* `verdicts_eq`: the answers of a run are those of the buckets to its timed requests;
* `verdicts_eq_of_requests_eq`: the cleanups make no difference.
-/

namespace DnsFilter

/-- A limiter that forgets no bucket. -/
abbrev Buckets := GoString → TokenBucket ℚ

namespace Buckets

section

variable [RealIP]

/-- A request, and whether it passes. -/
def request (rate : ℚ) (burst : ℕ) (b : Buckets) (now : ℤ) (r : ApiRequest) : Bool × Buckets :=
  let allowed := (b (RateLimiter.ip r)).allow rate burst (seconds now)
  (allowed.1, Function.update b (RateLimiter.ip r) allowed.2)

/-- The answers to a sequence of timed requests. -/
def verdicts (rate : ℚ) (burst : ℕ) : Buckets → List (ApiRequest × ℤ) → List Bool
  | _, [] => []
  | b, (r, now) :: rs =>
      (b.request rate burst now r).1 :: verdicts rate burst (b.request rate burst now r).2 rs

end

/-- All buckets are full. -/
def full (burst : ℕ) (now : ℤ) : Buckets := fun _ => TokenBucket.full (burst : ℚ) (seconds now)

end Buckets

/-- The bucket of a key; a key without a visitor would get a new one. -/
def RateLimiter.bucket (rl : RateLimiter) (now : ℤ) (k : GoString) : TokenBucket ℚ :=
  match rl.visitors.lookup k with
  | some v => v.limiter
  | none => TokenBucket.full (rl.burst : ℚ) (seconds now)

theorem RateLimiter.getVisitor_fst (rl : RateLimiter) (now : ℤ) (k : GoString) :
    (rl.getVisitor now k).1 = rl.bucket now k := by
  unfold getVisitor bucket
  cases rl.visitors.lookup k <;> rfl

/-- A limiter whose buckets cannot be told apart from those that were never forgotten. -/
structure Refines (rate : ℚ) (burst : ℕ) (s : LimiterState) (b : Buckets) : Prop where
  rate_eq : s.limiter.rate = rate
  burst_eq : s.limiter.burst = burst
  sound : s.limiter.Sound s.now
  agree : ∀ k, TokenBucket.AgreeFrom rate (burst : ℚ) (seconds s.now)
    (s.limiter.bucket s.now k) (b k)

variable {rate : ℚ} {burst : ℕ} {s : LimiterState} {b : Buckets}

theorem refines_start (rate : ℚ) (burst : ℕ) (t : ℤ) :
    Refines rate burst (.start rate burst t) (.full burst t) :=
  ⟨rfl, rfl, by simp [LimiterState.start, RateLimiter.new, RateLimiter.Sound],
    fun _ => TokenBucket.agreeFrom_refl _⟩

/-- Time passes. -/
theorem Refines.tick (hrate : 0 ≤ rate) (h : Refines rate burst s b) (d : ℕ) :
    Refines rate burst { s with now := s.now + d } b := by
  have hnow : s.now ≤ s.now + (d : ℤ) := by omega
  obtain ⟨rfl, rfl, hsound, hagree⟩ := h
  refine ⟨rfl, rfl, fun k v hv => ?_, fun k => ?_⟩
  · obtain ⟨htokens, hlast, hseen⟩ := hsound k v hv
    exact ⟨htokens, hlast, hseen.trans hnow⟩
  · have hk := (hagree k).mono (seconds_mono hnow)
    unfold RateLimiter.bucket at hk ⊢
    cases hv : s.limiter.visitors.lookup k with
    | some v => simpa only [hv] using hk
    | none =>
      simp only [hv] at hk ⊢
      exact (TokenBucket.agreeFrom_full_full hrate (seconds_mono hnow)).symm.trans hk

/-- Whoever is forgotten had a full bucket. -/
theorem Refines.cleanup (hrate : 0 ≤ rate) (hidle : burst ≤ rate * 180)
    (h : Refines rate burst s b) :
    Refines rate burst { s with limiter := s.limiter.cleanup s.now } b := by
  obtain ⟨rfl, rfl, hsound, hagree⟩ := h
  refine ⟨rfl, rfl, RateLimiter.sound_cleanup hsound, fun k => ?_⟩
  have hk := hagree k
  unfold RateLimiter.bucket at hk ⊢
  rcases s.limiter.lookup_cleanup s.now k with heq | ⟨hnone, v, hv, hold⟩
  · simp only [heq]
    exact hk
  · obtain ⟨htokens, hlast, -⟩ := hsound k v hv
    have hfull := TokenBucket.agreeFrom_full hrate htokens
      (RateLimiter.idle_of_old hrate hidle hlast hold)
    simp only [hv] at hk
    simp only [hnone]
    exact hfull.symm.trans hk

section

variable [RealIP]

/-- A request gets the answer of the bucket of its key. -/
theorem Refines.request (h : Refines rate burst s b) (r : ApiRequest) :
    (s.limiter.middleware s.now r).1 = (b.request rate burst s.now r).1 ∧
      Refines rate burst (LimiterEvent.apply s (.request r)) (b.request rate burst s.now r).2 := by
  obtain ⟨rfl, rfl, hsound, hagree⟩ := h
  obtain ⟨hallowed, hafter⟩ := (hagree (RateLimiter.ip r)).allow
  have hsound' := RateLimiter.sound_middleware hsound r
  obtain ⟨-, hrate', hburst', -⟩ := s.limiter.middleware_spec s.now r
  have hmiddleware := s.limiter.middleware_eq s.now r
  rw [RateLimiter.getVisitor_fst] at hmiddleware
  refine ⟨by rw [hmiddleware]; exact hallowed, hrate', hburst', hsound', fun k => ?_⟩
  simp only [LimiterEvent.apply, hmiddleware, Buckets.request]
  by_cases hk : k = RateLimiter.ip r
  · subst hk
    rw [Function.update_self]
    simpa only [RateLimiter.bucket, Finmap.lookup_insert] using hafter
  · rw [Function.update_of_ne hk]
    simpa only [RateLimiter.bucket, Finmap.lookup_insert_of_ne _ hk] using hagree k

end

/-! ### Runs -/

/-- The requests of a run that starts at `t`, with their times. -/
def requests : ℤ → List LimiterEvent → List (ApiRequest × ℤ)
  | _, [] => []
  | t, .tick d :: es => requests (t + d) es
  | t, .cleanup :: es => requests t es
  | t, .request r :: es => (r, t) :: requests t es

section

variable [RealIP]

/-- Whether the requests of a run pass, one answer for each. -/
def verdicts : LimiterState → List LimiterEvent → List Bool
  | _, [] => []
  | s, .tick d :: es => verdicts (LimiterEvent.apply s (.tick d)) es
  | s, .cleanup :: es => verdicts (LimiterEvent.apply s .cleanup) es
  | s, .request r :: es =>
      (s.limiter.middleware s.now r).1 :: verdicts (LimiterEvent.apply s (.request r)) es

/-- The answers are those of buckets that are never forgotten. -/
theorem verdicts_eq (hrate : 0 ≤ rate) (hidle : burst ≤ rate * 180) (es : List LimiterEvent)
    {s : LimiterState} {b : Buckets} (h : Refines rate burst s b) :
    verdicts s es = b.verdicts rate burst (requests s.now es) := by
  induction es generalizing s b with
  | nil => rfl
  | cons e es ih =>
    cases e with
    | tick d => exact ih (h.tick hrate d)
    | cleanup => exact ih (h.cleanup hrate hidle)
    | request r =>
      obtain ⟨hverdict, hafter⟩ := h.request r
      simp only [verdicts, requests, Buckets.verdicts]
      rw [hverdict, ih hafter]
      rfl

/-- **Forgetting idle visitors grants nothing.**  Runs with the same timed requests have the same
answers, whenever they clean up. -/
theorem verdicts_eq_of_requests_eq {rate : ℚ} {burst : ℕ} (hrate : 0 < rate)
    (hidle : (burst : ℚ) ≤ 180 * rate) (t : ℤ) {es es' : List LimiterEvent}
    (h : requests t es = requests t es') :
    verdicts (.start rate burst t) es = verdicts (.start rate burst t) es' := by
  rw [mul_comm] at hidle
  have hstart := refines_start rate burst t
  calc verdicts (.start rate burst t) es
      = (Buckets.full burst t).verdicts rate burst (requests t es) :=
        verdicts_eq hrate.le hidle es hstart
    _ = (Buckets.full burst t).verdicts rate burst (requests t es') := by rw [h]
    _ = verdicts (.start rate burst t) es' := (verdicts_eq hrate.le hidle es' hstart).symm

end

/-- A visitor returns after 200 seconds, to the limiters of `NewRouter`. -/
theorem verdicts_eq_after_sweep :
    letI := chiRealIP
    verdicts (.start 5 10 0) [.request (loginFrom 1000), .tick 200000000000, .cleanup,
          .request (loginFrom 1000)] =
        verdicts (.start 5 10 0) [.request (loginFrom 1000), .tick 200000000000,
          .request (loginFrom 1000)] ∧
      verdicts (.start 30 60 0) [.request (loginFrom 1000), .tick 200000000000, .cleanup,
          .request (loginFrom 1000)] =
        verdicts (.start 30 60 0) [.request (loginFrom 1000), .tick 200000000000,
          .request (loginFrom 1000)] := by
  let := chiRealIP
  exact ⟨verdicts_eq_of_requests_eq (by norm_num) (by norm_num) 0 rfl,
    verdicts_eq_of_requests_eq (by norm_num) (by norm_num) 0 rfl⟩

end DnsFilter
