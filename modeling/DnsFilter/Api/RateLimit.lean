import DnsFilter.Cache.Cache
import DnsFilter.Identity.NetAddr
import DnsFilter.Lib.TokenBucket

/-!
# Rate limits

`RateLimiter` of `internal/api/ratelimit.go`.  Its middleware keeps a bucket for every value of
the header `X-Real-IP`, or of the `RemoteAddr` that `middleware.RealIP` leaves behind if the
header is absent; neither is a function of the address of the client.

* `RateLimiter.middleware_spec`, `RateLimiter.level_cleanup`: what a request and a cleanup do to
  the buckets;
* `keyWithin_run`: every key is bounded;
* `not_rateBounded`, `rate_bounded_iff`: a client is bounded only if all its requests have one key;
* `ip_eq_ip_iff_of_plain`: without headers, that is one source port;
* `RateLimiter.restrict`: the buckets of some keys, on which other keys have no influence.
-/

namespace DnsFilter

open EventRun

/-- What the middleware reads of a request: the peer of the connection, and the first values of
three headers, empty if they are absent. -/
structure ApiRequest where
  peer : NetAddr
  trueClientIP : GoString
  xRealIP : GoString
  xForwardedFor : GoString

/-- The address of the client. -/
def ApiRequest.client (r : ApiRequest) : IP := r.peer.ip.canonical

/-- A request without the headers. -/
def ApiRequest.Plain (r : ApiRequest) : Prop :=
  r.trueClientIP = [] ∧ r.xRealIP = [] ∧ r.xForwardedFor = []

/-- The package `middleware` of `chi`. -/
class RealIP where
  /-- `r.RemoteAddr` behind `middleware.RealIP`. -/
  remoteAddr : ApiRequest → GoString
  remoteAddr_of_absent : ∀ r : ApiRequest, r.trueClientIP = [] → r.xRealIP = [] →
    r.xForwardedFor = [] → remoteAddr r = r.peer.string

/-- The package, with its order of the headers: the first one present counts if it is an
address. -/
@[reducible] def chiRealIP : RealIP where
  remoteAddr r :=
    let ip :=
      if r.trueClientIP ≠ [] then r.trueClientIP
      else if r.xRealIP ≠ [] then r.xRealIP
      else GoString.before r.xForwardedFor ','
    if ip = [] ∨ parseIP ip = .nil then r.peer.string else ip
  remoteAddr_of_absent r h h' h'' := by simp [h, h', h'', GoString.before]

/-- A visitor, with its `rate.Limiter`. -/
structure Visitor where
  limiter : TokenBucket ℚ
  lastSeen : ℤ

structure RateLimiter where
  visitors : Finmap fun _ : GoString => Visitor
  rate : ℚ
  burst : ℕ

/-- A time in seconds. -/
def seconds (t : ℤ) : ℚ := t / second

theorem seconds_sub (t t' : ℤ) : seconds t' - seconds t = seconds (t' - t) := by
  rw [seconds, seconds, seconds, ← sub_div, Int.cast_sub]

theorem seconds_mono {t t' : ℤ} (h : t ≤ t') : seconds t ≤ seconds t' :=
  div_le_div_of_nonneg_right (Int.cast_le.2 h) (by norm_num [second])

namespace RateLimiter

/-- `NewRateLimiter`. -/
def new (r : ℚ) (burst : ℕ) : RateLimiter := ⟨∅, r, burst⟩

def getVisitor (rl : RateLimiter) (now : ℤ) (ip : GoString) : TokenBucket ℚ × RateLimiter :=
  match rl.visitors.lookup ip with
  | none =>
      let limiter := TokenBucket.full (rl.burst : ℚ) (seconds now)
      (limiter, { rl with visitors := rl.visitors.insert ip ⟨limiter, now⟩ })
  | some v =>
      (v.limiter, { rl with visitors := rl.visitors.insert ip { v with lastSeen := now } })

/-- Drop the visitors that were not seen for three minutes. -/
def cleanup (rl : RateLimiter) (now : ℤ) : RateLimiter :=
  { rl with visitors := rl.visitors.retain fun _ v => !decide (3 * 60 * second < now - v.lastSeen) }

section Middleware

variable [RealIP]

/-- The key of a request. -/
def ip (r : ApiRequest) : GoString := if r.xRealIP ≠ [] then r.xRealIP else RealIP.remoteAddr r

/-- Whether the middleware lets a request through. -/
def middleware (rl : RateLimiter) (now : ℤ) (r : ApiRequest) : Bool × RateLimiter :=
  let (limiter, rl) := rl.getVisitor now (ip r)
  let (allowed, limiter) := limiter.allow rl.rate rl.burst (seconds now)
  -- the visitor points to the limiter
  (allowed, { rl with visitors := rl.visitors.insert (ip r) ⟨limiter, now⟩ })

theorem ip_of_xRealIP {r : ApiRequest} (h : r.xRealIP ≠ []) : ip r = r.xRealIP := if_pos h

theorem ip_of_plain {r : ApiRequest} (h : r.Plain) : ip r = r.peer.string := by
  obtain ⟨htrue, hreal, hfor⟩ := h
  rw [ip, if_neg (not_not.2 hreal), RealIP.remoteAddr_of_absent r htrue hreal hfor]

end Middleware

/-! ### Buckets -/

/-- The tokens that a key has; a key without a visitor has a full bucket. -/
def level (rl : RateLimiter) (now : ℤ) (k : GoString) : ℚ :=
  match rl.visitors.lookup k with
  | some v => v.limiter.level rl.rate rl.burst (seconds now)
  | none => rl.burst

theorem level_le_burst (rl : RateLimiter) (now : ℤ) (k : GoString) : rl.level now k ≤ rl.burst := by
  unfold level
  split
  · exact TokenBucket.level_le_burst
  · exact le_rfl

/-- No limiter was used after its visitor was last seen. -/
def Sound (rl : RateLimiter) (now : ℤ) : Prop :=
  ∀ k v, rl.visitors.lookup k = some v →
    0 ≤ v.limiter.tokens ∧ v.limiter.last ≤ seconds v.lastSeen ∧ v.lastSeen ≤ now

/-- A visitor that was not seen for three minutes was idle for long enough to have a full
bucket. -/
theorem idle_of_old {rl : RateLimiter} {now : ℤ} {v : Visitor} (hrate : 0 ≤ rl.rate)
    (hidle : rl.burst ≤ rl.rate * 180) (hlast : v.limiter.last ≤ seconds v.lastSeen)
    (hold : 3 * 60 * second < now - v.lastSeen) :
    rl.burst ≤ rl.rate * (seconds now - v.limiter.last) := by
  have hidle' : 180 ≤ seconds now - seconds v.lastSeen := by
    rw [seconds_sub, seconds, le_div_iff₀ (by norm_num [second])]
    have hcast : ((3 * 60 * second : ℤ) : ℚ) ≤ ((now - v.lastSeen : ℤ) : ℚ) :=
      Int.cast_le.2 hold.le
    push_cast at hcast ⊢
    linarith
  exact hidle.trans (mul_le_mul_of_nonneg_left (hidle'.trans (sub_le_sub_left hlast _)) hrate)

/-- The visitors that a cleanup leaves, and those that it drops. -/
theorem lookup_cleanup (rl : RateLimiter) (now : ℤ) (k : GoString) :
    (rl.cleanup now).visitors.lookup k = rl.visitors.lookup k ∨
      (rl.cleanup now).visitors.lookup k = none ∧
        ∃ v, rl.visitors.lookup k = some v ∧ 3 * 60 * second < now - v.lastSeen := by
  rw [cleanup, Finmap.lookup_retain]
  cases rl.visitors.lookup k with
  | none => exact .inl rfl
  | some v =>
    rw [Option.filter_some]
    split_ifs with hkeep
    · exact .inl rfl
    · refine .inr ⟨rfl, v, rfl, ?_⟩
      simpa only [Bool.not_eq_true', decide_eq_false_iff_not, not_not] using hkeep

/-- A visitor that is dropped had a full bucket. -/
theorem level_cleanup {rl : RateLimiter} {now : ℤ} (h : rl.Sound now) (hrate : 0 ≤ rl.rate)
    (hidle : rl.burst ≤ rl.rate * 180) (k : GoString) :
    (rl.cleanup now).level now k = rl.level now k := by
  unfold level
  rcases rl.lookup_cleanup now k with heq | ⟨hnone, v, hv, hold⟩
  · rw [heq]
    rfl
  · rw [hnone, hv]
    obtain ⟨htokens, hlast, -⟩ := h k v hv
    exact (TokenBucket.level_eq_burst htokens (idle_of_old hrate hidle hlast hold)).symm

theorem sound_cleanup {rl : RateLimiter} {now : ℤ} (h : rl.Sound now) :
    (rl.cleanup now).Sound now := by
  intro k v hv
  simp only [cleanup, Finmap.lookup_retain, Option.filter_eq_some_iff] at hv
  exact h k v hv.1

/-- A visitor, old or new, has the tokens of its key. -/
theorem getVisitor_spec (rl : RateLimiter) (now : ℤ) (k : GoString) :
    (rl.getVisitor now k).1.level rl.rate rl.burst (seconds now) = rl.level now k ∧
      ∃ v, (rl.getVisitor now k).2 = { rl with visitors := rl.visitors.insert k v } := by
  unfold getVisitor level
  cases rl.visitors.lookup k with
  | none => exact ⟨TokenBucket.level_full .., _, rfl⟩
  | some v => exact ⟨rfl, _, rfl⟩

theorem middleware_eq [RealIP] (rl : RateLimiter) (now : ℤ) (r : ApiRequest) :
    rl.middleware now r =
      let allowed := (rl.getVisitor now (ip r)).1.allow rl.rate rl.burst (seconds now)
      (allowed.1, { rl with visitors := rl.visitors.insert (ip r) ⟨allowed.2, now⟩ }) := by
  obtain ⟨-, v, hrl⟩ := rl.getVisitor_spec now (ip r)
  have hpair : rl.getVisitor now (ip r) = ((rl.getVisitor now (ip r)).1,
      { rl with visitors := rl.visitors.insert (ip r) v }) := Prod.ext rfl hrl
  rw [middleware, hpair]
  dsimp only
  rw [Finmap.insert_insert]

/-- What a request does: it passes if its key has a token, and only then takes one. -/
theorem middleware_spec [RealIP] (rl : RateLimiter) (now : ℤ) (r : ApiRequest) :
    (rl.middleware now r).1 = decide (1 ≤ rl.level now (ip r)) ∧
      (rl.middleware now r).2.rate = rl.rate ∧ (rl.middleware now r).2.burst = rl.burst ∧
      ∀ k, (rl.middleware now r).2.level now k =
        if k = ip r then rl.level now k - if 1 ≤ rl.level now k then 1 else 0
        else rl.level now k := by
  obtain ⟨hlevel, -⟩ := rl.getVisitor_spec now (ip r)
  have hallow := TokenBucket.level_allow rl.rate (rl.burst : ℚ) (rl.getVisitor now (ip r)).1
    (seconds now)
  rw [hlevel] at hallow
  rw [middleware_eq]
  refine ⟨?_, rfl, rfl, fun k => ?_⟩
  · dsimp only
    rw [TokenBucket.allow, hlevel]
    split_ifs with h
    · exact (decide_eq_true h).symm
    · exact (decide_eq_false h).symm
  · by_cases hk : k = ip r
    · subst hk
      rw [if_pos rfl, ← hallow]
      simp only [level, Finmap.lookup_insert]
    · rw [if_neg hk]
      simp only [level, Finmap.lookup_insert_of_ne _ hk]

theorem sound_middleware [RealIP] {rl : RateLimiter} {now : ℤ} (h : rl.Sound now)
    (r : ApiRequest) : (rl.middleware now r).2.Sound now := by
  have hused : 0 ≤ (rl.getVisitor now (ip r)).1.tokens ∧
      (rl.getVisitor now (ip r)).1.last ≤ seconds now := by
    unfold getVisitor
    cases hv : rl.visitors.lookup (ip r) with
    | none => exact ⟨Nat.cast_nonneg _, le_rfl⟩
    | some v =>
      obtain ⟨htokens, hlast, hseen⟩ := h _ v hv
      exact ⟨htokens, hlast.trans (seconds_mono hseen)⟩
  rw [middleware_eq]
  intro k v hv
  dsimp only at hv
  by_cases hk : k = ip r
  · subst hk
    rw [Finmap.lookup_insert] at hv
    obtain rfl := Option.some.inj hv
    exact ⟨TokenBucket.tokens_allow_nonneg hused.1, TokenBucket.last_allow_le hused.2, le_rfl⟩
  · rw [Finmap.lookup_insert_of_ne _ hk] at hv
    exact h k v hv

/-- Waiting brings no more than `rate` tokens per second. -/
theorem level_wait {rl : RateLimiter} {now now' : ℤ} (hrate : 0 ≤ rl.rate) (h : now ≤ now')
    (k : GoString) :
    rl.level now' k ≤ rl.level now k + rl.rate * (seconds now' - seconds now) := by
  have hgain : 0 ≤ rl.rate * (seconds now' - seconds now) :=
    mul_nonneg hrate (sub_nonneg.2 (seconds_mono h))
  unfold level
  cases rl.visitors.lookup k with
  | none => exact le_add_of_nonneg_right hgain
  | some v => exact TokenBucket.level_wait hgain

/-! ### Some of the keys -/

/-- The buckets of some keys. -/
def restrict (K : GoString → Bool) (rl : RateLimiter) : RateLimiter :=
  { rl with visitors := rl.visitors.retain fun k _ => K k }

section Restrict

variable {K : GoString → Bool} {rl rl' : RateLimiter} {now : ℤ}

theorem lookup_restrict {k : GoString} (hk : K k = true) :
    (rl.restrict K).visitors.lookup k = rl.visitors.lookup k := by
  rw [restrict, Finmap.lookup_retain]
  cases rl.visitors.lookup k <;> simp [hk]

theorem restrict_cleanup (K : GoString → Bool) (rl : RateLimiter) (now : ℤ) :
    (rl.cleanup now).restrict K = (rl.restrict K).cleanup now := by
  simp only [restrict, cleanup, mk.injEq, and_true]
  refine Finmap.ext_lookup fun k => ?_
  simp only [Finmap.lookup_retain, Option.filter_filter, Bool.and_comm]

theorem restrict_insert_of_mem {k : GoString} (hk : K k = true) (v : Visitor) :
    RateLimiter.restrict K { rl with visitors := rl.visitors.insert k v } =
      { rl.restrict K with visitors := (rl.restrict K).visitors.insert k v } := by
  simp only [restrict, mk.injEq, and_true]
  refine Finmap.ext_lookup fun k' => ?_
  by_cases hk' : k' = k
  · subst hk'
    simp [Finmap.lookup_retain, hk]
  · simp [Finmap.lookup_retain, Finmap.lookup_insert_of_ne _ hk']

theorem restrict_insert_of_not_mem {k : GoString} (hk : K k = false) (v : Visitor) :
    RateLimiter.restrict K { rl with visitors := rl.visitors.insert k v } = rl.restrict K := by
  simp only [restrict, mk.injEq, and_true]
  refine Finmap.ext_lookup fun k' => ?_
  by_cases hk' : k' = k
  · subst hk'
    cases hv : rl.visitors.lookup k' <;> simp [Finmap.lookup_retain, hk, hv]
  · simp [Finmap.lookup_retain, Finmap.lookup_insert_of_ne _ hk']

variable [RealIP]

/-- A request is let through by the bucket of its own key. -/
theorem middleware_congr (h : rl.restrict K = rl'.restrict K) {r : ApiRequest}
    (hr : K (ip r) = true) :
    (rl.middleware now r).1 = (rl'.middleware now r).1 ∧
      (rl.middleware now r).2.restrict K = (rl'.middleware now r).2.restrict K := by
  have hlookup : rl.visitors.lookup (ip r) = rl'.visitors.lookup (ip r) := by
    rw [← lookup_restrict hr, h, lookup_restrict hr]
  obtain ⟨-, hrate, hburst⟩ := RateLimiter.mk.inj h
  have hvisitor : (rl.getVisitor now (ip r)).1 = (rl'.getVisitor now (ip r)).1 := by
    unfold getVisitor
    rw [hlookup, hburst]
    cases rl'.visitors.lookup (ip r) <;> rfl
  have hstate : ∀ rl : RateLimiter, (rl.middleware now r).2.restrict K =
      { rl.restrict K with
        visitors := (rl.restrict K).visitors.insert (ip r)
          ⟨((rl.getVisitor now (ip r)).1.allow rl.rate rl.burst (seconds now)).2, now⟩ } := by
    intro rl
    rw [middleware_eq]
    exact restrict_insert_of_mem hr _
  refine ⟨?_, ?_⟩
  · rw [middleware_eq, middleware_eq, hvisitor, hrate, hburst]
  · rw [hstate, hstate, h, hvisitor, hrate, hburst]

/-- A request leaves the buckets of other keys as they are. -/
theorem restrict_middleware {r : ApiRequest} (hr : K (ip r) = false) :
    (rl.middleware now r).2.restrict K = rl.restrict K := by
  rw [middleware_eq]
  exact restrict_insert_of_not_mem hr _

end Restrict

end RateLimiter

/-! ### Runs -/

/-- A limiter, with the requests that it let through and their times. -/
structure LimiterState where
  now : ℤ
  limiter : RateLimiter
  passed : List (ApiRequest × ℤ)

inductive LimiterEvent
  | tick (d : ℕ)
  | cleanup
  | request (r : ApiRequest)

namespace LimiterState

/-- A new limiter. -/
def start (rate : ℚ) (burst : ℕ) (t : ℤ) : LimiterState := ⟨t, RateLimiter.new rate burst, []⟩

/-- In every interval of `d` seconds, at most `burst + rate * d` requests of any client pass. -/
def RateBounded (s : LimiterState) : Prop :=
  ∀ (client : IP) (a d : ℚ), 0 ≤ d →
    ((s.passed.countP fun p =>
      p.1.client = client ∧ a ≤ seconds p.2 ∧ seconds p.2 ≤ a + d : ℕ) : ℚ) ≤
        s.limiter.burst + s.limiter.rate * d

variable [RealIP]

/-- The times, in seconds, at which requests with a key passed. -/
def grants (s : LimiterState) (k : GoString) : List ℚ :=
  (s.passed.filter fun p => RateLimiter.ip p.1 = k).map fun p => seconds p.2

/-- Every key is bounded, in all windows. -/
structure KeyWithin (rate : ℚ) (burst : ℕ) (s : LimiterState) : Prop where
  rate_eq : s.limiter.rate = rate
  burst_eq : s.limiter.burst = burst
  sound : s.limiter.Sound s.now
  within : ∀ k, TokenBucket.Within rate burst (s.grants k) (s.limiter.level s.now k) (seconds s.now)

end LimiterState

section Runs

variable [RealIP] {rate : ℚ} {burst : ℕ}

def LimiterEvent.apply (s : LimiterState) : LimiterEvent → LimiterState
  | .tick d => { s with now := s.now + d }
  | .cleanup => { s with limiter := s.limiter.cleanup s.now }
  | .request r =>
      let (allowed, limiter) := s.limiter.middleware s.now r
      { s with
        limiter := limiter
        passed := if allowed then s.passed ++ [(r, s.now)] else s.passed }

theorem LimiterState.grants_concat (s : LimiterState) (limiter : RateLimiter) (r : ApiRequest)
    (k : GoString) :
    LimiterState.grants ⟨s.now, limiter, s.passed ++ [(r, s.now)]⟩ k =
      s.grants k ++ if k = RateLimiter.ip r then [seconds s.now] else [] := by
  by_cases hk : RateLimiter.ip r = k
  · simp [LimiterState.grants, hk]
  · simp [LimiterState.grants, hk, Ne.symm hk]

theorem LimiterState.KeyWithin.apply {s : LimiterState} (hrate : 0 ≤ rate)
    (hidle : burst ≤ rate * 180) (h : s.KeyWithin rate burst) (e : LimiterEvent) :
    (e.apply s).KeyWithin rate burst := by
  obtain ⟨rfl, rfl, hsound, hwithin⟩ := h
  cases e with
  | tick d =>
    have hnow : s.now ≤ s.now + (d : ℤ) := by omega
    refine ⟨rfl, rfl, fun k v hv => ?_, fun k => ?_⟩
    · obtain ⟨htokens, hlast, hseen⟩ := hsound k v hv
      exact ⟨htokens, hlast, hseen.trans hnow⟩
    · exact (hwithin k).wait hrate (seconds_mono hnow) (RateLimiter.level_wait hrate hnow k)
        (s.limiter.level_le_burst _ k)
  | cleanup =>
    refine ⟨rfl, rfl, RateLimiter.sound_cleanup hsound, fun k => ?_⟩
    have hlevel := RateLimiter.level_cleanup hsound hrate hidle k
    simp only [LimiterEvent.apply, hlevel]
    exact hwithin k
  | request r =>
    obtain ⟨hallowed, hrate', hburst', hlevel⟩ := s.limiter.middleware_spec s.now r
    refine ⟨hrate', hburst', RateLimiter.sound_middleware hsound r, fun k => ?_⟩
    have hk := hwithin k
    simp only [LimiterEvent.apply, hallowed, hlevel, decide_eq_true_eq]
    by_cases hip : k = RateLimiter.ip r
    · subst hip
      rw [if_pos rfl]
      split_ifs with hone
      · rw [LimiterState.grants_concat, if_pos rfl]
        exact hk.grant hrate hone
      · rw [sub_zero]
        exact hk
    · rw [if_neg hip]
      split_ifs with hone
      · rw [LimiterState.grants_concat, if_neg hip, List.append_nil]
        exact hk
      · exact hk

theorem LimiterState.keyWithin_start (hrate : 0 ≤ rate) (t : ℤ) :
    (LimiterState.start rate burst t).KeyWithin rate burst :=
  ⟨rfl, rfl, by simp [start, RateLimiter.new, RateLimiter.Sound],
    fun _ => TokenBucket.within_nil hrate (Nat.cast_nonneg _) _⟩

/-- Every key is bounded, whatever happens. -/
theorem keyWithin_run (hrate : 0 ≤ rate) (hidle : burst ≤ rate * 180) (t : ℤ)
    (es : List LimiterEvent) :
    (run LimiterEvent.apply (.start rate burst t) es).KeyWithin rate burst :=
  run_invariant (LimiterState.KeyWithin rate burst) (fun _ e h => h.apply hrate hidle e)
    (LimiterState.keyWithin_start hrate t) es

/-- Only the requests of a run pass. -/
theorem passed_of_run {R : Set ApiRequest} {s : LimiterState} (h : ∀ p ∈ s.passed, p.1 ∈ R)
    {es : List LimiterEvent} (hes : ∀ r, .request r ∈ es → r ∈ R) :
    ∀ p ∈ (run LimiterEvent.apply s es).passed, p.1 ∈ R := by
  induction es generalizing s with
  | nil => exact h
  | cons e es ih =>
    refine ih (fun p hp => ?_) fun r hr => hes r (List.mem_cons_of_mem _ hr)
    cases e with
    | tick d => exact h p hp
    | cleanup => exact h p hp
    | request r =>
      simp only [LimiterEvent.apply] at hp
      split_ifs at hp
      · rcases List.mem_append.1 hp with hp | hp
        · exact h p hp
        · rw [List.mem_singleton.1 hp]
          exact hes r List.mem_cons_self
      · exact h p hp

/-- Every client whose requests have one key is bounded. -/
theorem LimiterState.KeyWithin.rateBounded {s : LimiterState} (h : s.KeyWithin rate burst)
    (hrate : 0 ≤ rate)
    (hkey : ∀ p ∈ s.passed, ∀ q ∈ s.passed, p.1.client = q.1.client →
      RateLimiter.ip p.1 = RateLimiter.ip q.1) : s.RateBounded := by
  obtain ⟨rfl, rfl, -, hwithin⟩ := h
  intro client a d hd
  by_cases hnone : ∃ p ∈ s.passed, p.1.client = client
  · obtain ⟨p, hp, hclient⟩ := hnone
    have hle : (s.passed.countP fun q =>
        q.1.client = client ∧ a ≤ seconds q.2 ∧ seconds q.2 ≤ a + d) ≤
          TokenBucket.granted (s.grants (RateLimiter.ip p.1)) a (a + d) := by
      rw [TokenBucket.granted, grants, List.countP_map, List.countP_filter]
      refine List.countP_mono_left fun q hq hin => ?_
      obtain ⟨hq', hin⟩ := of_decide_eq_true hin
      simpa [hin] using hkey q hq p hp (hq'.trans hclient.symm)
    have hwindow := (hwithin (RateLimiter.ip p.1)).window a (a + d) (le_add_of_nonneg_right hd)
    rw [add_sub_cancel_left] at hwindow
    exact (Nat.cast_le.2 hle).trans hwindow
  · have hzero : (s.passed.countP fun q =>
        q.1.client = client ∧ a ≤ seconds q.2 ∧ seconds q.2 ≤ a + d) = 0 := by
      refine List.countP_eq_zero.2 fun q hq hin => hnone ⟨q, hq, (of_decide_eq_true hin).1⟩
    rw [hzero, Nat.cast_zero]
    exact add_nonneg (Nat.cast_nonneg _) (mul_nonneg hrate hd)

/-! ### Bursts -/

/-- Requests of one key pass while it has tokens. -/
theorem run_replicate (r : ApiRequest) {n : ℕ} {s : LimiterState}
    (h : n ≤ s.limiter.level s.now (RateLimiter.ip r)) :
    ∃ rl : RateLimiter, run LimiterEvent.apply s (.replicate n (.request r)) =
        ⟨s.now, rl, s.passed ++ .replicate n (r, s.now)⟩ ∧
      rl.rate = s.limiter.rate ∧ rl.burst = s.limiter.burst ∧
      ∀ k ≠ RateLimiter.ip r, rl.level s.now k = s.limiter.level s.now k := by
  induction n generalizing s with
  | zero => exact ⟨s.limiter, by simp⟩
  | succ n ih =>
    obtain ⟨hallowed, hrate, hburst, hlevel⟩ := s.limiter.middleware_spec s.now r
    push_cast at h
    have hone : 1 ≤ s.limiter.level s.now (RateLimiter.ip r) :=
      (le_add_of_nonneg_left (Nat.cast_nonneg n)).trans h
    have hstep : LimiterEvent.apply s (.request r) =
        ⟨s.now, (s.limiter.middleware s.now r).2, s.passed ++ [(r, s.now)]⟩ := by
      simp only [LimiterEvent.apply, hallowed, decide_eq_true hone, if_true]
    have hrest : n ≤ (s.limiter.middleware s.now r).2.level s.now (RateLimiter.ip r) := by
      rw [hlevel, if_pos rfl, if_pos hone]
      exact le_sub_right_of_add_le h
    obtain ⟨rl, hrun, hrate', hburst', hother⟩ :=
      ih (s := ⟨s.now, (s.limiter.middleware s.now r).2, s.passed ++ [(r, s.now)]⟩) hrest
    refine ⟨rl, ?_, hrate'.trans hrate, hburst'.trans hburst, fun k hk => ?_⟩
    · rw [List.replicate_succ, run_cons, hstep, hrun, List.append_assoc, List.replicate_succ,
        List.singleton_append]
    · rw [hother k hk, hlevel, if_neg hk]

/-- A client with two keys passes a request too many. -/
theorem not_rateBounded {r r' : ApiRequest} (hclient : r.client = r'.client)
    (hkey : RateLimiter.ip r ≠ RateLimiter.ip r') (hburst : 1 ≤ burst) (t : ℤ) :
    ¬ (run LimiterEvent.apply (.start rate burst t)
      (.replicate burst (.request r) ++ [.request r'])).RateBounded := by
  intro h
  obtain ⟨rl, hrun, -, hburst', hother⟩ :=
    run_replicate r (n := burst) (s := .start rate burst t) le_rfl
  obtain ⟨hallowed, -, hburst'', -⟩ := rl.middleware_spec t r'
  have hone : 1 ≤ rl.level t (RateLimiter.ip r') :=
    (Nat.one_le_cast.2 hburst).trans_eq (hother _ hkey.symm).symm
  have hpassed : LimiterEvent.apply ⟨t, rl, .replicate burst (r, t)⟩ (.request r') =
      ⟨t, (rl.middleware t r').2, .replicate burst (r, t) ++ [(r', t)]⟩ := by
    simp only [LimiterEvent.apply, hallowed, decide_eq_true hone, if_true]
  rw [run_append, hrun, run_cons, run_nil] at h
  have hcount := h r.client (seconds t) 0 le_rfl
  norm_num [LimiterState.start, hpassed, hburst'', hburst', hclient, RateLimiter.new,
    List.countP_replicate] at hcount

/-- Any client escapes with two values of the header. -/
theorem not_rateBounded_of_xRealIP (r : ApiRequest) {x y : GoString} (hx : x ≠ []) (hy : y ≠ [])
    (hne : x ≠ y) (hburst : 1 ≤ burst) (t : ℤ) :
    ¬ (run LimiterEvent.apply (.start rate burst t)
      (.replicate burst (.request { r with xRealIP := x }) ++
        [.request { r with xRealIP := y }])).RateBounded := by
  have hkey : RateLimiter.ip { r with xRealIP := x } ≠ RateLimiter.ip { r with xRealIP := y } := by
    rw [RateLimiter.ip_of_xRealIP hx, RateLimiter.ip_of_xRealIP hy]
    exact hne
  have hclient : ApiRequest.client { r with xRealIP := x } =
      ApiRequest.client { r with xRealIP := y } := rfl
  exact not_rateBounded hclient hkey hburst t

/-- Whether every client is bounded, however the requests in `R` are timed. -/
theorem rateBounded_run_iff (hrate : 0 ≤ rate) (hidle : burst ≤ rate * 180) (hburst : 1 ≤ burst)
    (R : Set ApiRequest) :
    (∀ t es, (∀ r, .request r ∈ es → r ∈ R) →
        (run LimiterEvent.apply (.start rate burst t) es).RateBounded) ↔
      ∀ r ∈ R, ∀ r' ∈ R, r.client = r'.client → RateLimiter.ip r = RateLimiter.ip r' := by
  constructor
  · intro h r hr r' hr' hclient
    by_contra hkey
    refine not_rateBounded hclient hkey hburst 0 (h 0 _ fun r'' hin => ?_)
    rcases List.mem_append.1 hin with hin | hin
    · rw [LimiterEvent.request.inj (List.eq_of_mem_replicate hin)]
      exact hr
    · rw [LimiterEvent.request.inj (List.mem_singleton.1 hin)]
      exact hr'
  · intro h t es hes
    have hin := passed_of_run (s := .start rate burst t) (by simp [LimiterState.start]) hes
    exact (keyWithin_run hrate hidle t es).rateBounded hrate fun p hp q hq =>
      h _ (hin p hp) _ (hin q hq)

/-- `NewRouter` has a limiter for the logins and one for the API.  They bound every client exactly
if the requests of each client have one key. -/
theorem rate_bounded_iff (R : Set ApiRequest) :
    (∀ t es, (∀ r, .request r ∈ es → r ∈ R) →
        (run LimiterEvent.apply (.start 5 10 t) es).RateBounded ∧
          (run LimiterEvent.apply (.start 30 60 t) es).RateBounded) ↔
      ∀ r ∈ R, ∀ r' ∈ R, r.client = r'.client → RateLimiter.ip r = RateLimiter.ip r' := by
  have hlogin := rateBounded_run_iff (show (0 : ℚ) ≤ 5 by norm_num)
    (show ((10 : ℕ) : ℚ) ≤ 5 * 180 by norm_num) (by norm_num) R
  have hapi := rateBounded_run_iff (show (0 : ℚ) ≤ 30 by norm_num)
    (show ((60 : ℕ) : ℚ) ≤ 30 * 180 by norm_num) (by norm_num) R
  constructor
  · exact fun h => hlogin.1 fun t es hes => (h t es hes).1
  · exact fun h t es hes => ⟨hlogin.2 h t es hes, hapi.2 h t es hes⟩

/-- Without headers the port is part of the key. -/
theorem ip_eq_ip_iff_of_plain {r r' : ApiRequest} (h : r.Plain) (h' : r'.Plain)
    (hclient : r.client = r'.client) (hzone : r.peer.zone = []) (hzone' : r'.peer.zone = []) :
    RateLimiter.ip r = RateLimiter.ip r' ↔ r.peer.port = r'.peer.port := by
  rw [RateLimiter.ip_of_plain h, RateLimiter.ip_of_plain h']
  have hhost : r.peer.host = r'.peer.host := by
    simp only [NetAddr.host, hzone, hzone', ne_eq, not_true_eq_false, if_false]
    exact string_eq_string_iff.2 hclient
  constructor
  · intro hstring
    have hsplit := congrArg splitHostPort hstring
    rw [NetAddr.splitHostPort_string (by simp [NetAddr.Bracketed, hzone]),
      NetAddr.splitHostPort_string (by simp [NetAddr.Bracketed, hzone']), Option.some.injEq,
      Prod.mk.injEq] at hsplit
    have hnumber := congrArg (number 10) hsplit.2
    rw [number_toDigits (by norm_num) (by norm_num),
      number_toDigits (by norm_num) (by norm_num)] at hnumber
    exact UInt16.toNat_inj.1 hnumber
  · intro hport
    rw [NetAddr.string, NetAddr.string, hhost, hport]

end Runs

/-! ### A client with two ports -/

/-- A login from a port of `192.0.2.1`. -/
def loginFrom (port : UInt16) : ApiRequest where
  peer := { ip := .v4 0xc0000201#32, port, zone := [], ip_ne := by decide, zoned := by simp }
  trueClientIP := []
  xRealIP := []
  xForwardedFor := []

/-- Eleven logins from two ports pass at once. -/
theorem ports_escape_limit :
    letI := chiRealIP
    ¬ (run LimiterEvent.apply (.start 5 10 0)
      (.replicate 10 (.request (loginFrom 1000)) ++ [.request (loginFrom 1001)])).RateBounded := by
  let := chiRealIP
  have hclient : (loginFrom 1000).client = (loginFrom 1001).client := rfl
  have hkey : RateLimiter.ip (loginFrom 1000) ≠ RateLimiter.ip (loginFrom 1001) := by
    rw [ne_eq, ip_eq_ip_iff_of_plain ⟨rfl, rfl, rfl⟩ ⟨rfl, rfl, rfl⟩ hclient rfl rfl]
    decide
  exact not_rateBounded hclient hkey (by norm_num) 0

end DnsFilter
