import DnsFilter.Cache.Cache

/-!
# The cache as a TTL map

What a cache without an L2 returns, in terms of the calls made so far.

* `CacheState`, `CacheEvent.apply`: a cache under any sequence of calls, sweeps and time;
* `StoredLast`: a response was stored under a key and nothing has replaced or removed it;
* `cache_refines_ttlMap`: a `Get` returns what was stored last, until its lifetime is over;
  the counters count the results, and sweeps change none of them.
-/

namespace DnsFilter

open EventRun GoString

section History

variable [Unicode] [Miekg]

/-- A cache with the Redis server behind it, and what `Get` has returned so far. -/
structure CacheState where
  now : ℤ
  cache : Cache
  redis : Redis
  returned : List (Option Msg)

inductive CacheEvent
  | set (name : GoString) (qtype : UInt16) (msg : Option Msg)
  | get (name : GoString) (qtype : UInt16)
  | invalidate (name : GoString)
  /-- A sweep that has read the clock some time before it gets the lock. -/
  | evict (late : ℕ)
  | tick (d : ℕ)

/-- The prefix of the keys that `Invalidate` removes. -/
def removedPrefix (name : GoString) : GoString := toLower (Miekg.fqdn name) ++ "|".toList

namespace CacheEvent

def apply (s : CacheState) : CacheEvent → CacheState
  | set name qtype msg =>
      let (c, redis) := s.cache.set s.redis s.now name qtype msg
      { s with cache := c, redis := redis }
  | get name qtype =>
      let (msg, c, redis) := s.cache.get s.redis s.now name qtype
      { s with cache := c, redis := redis, returned := s.returned ++ [msg] }
  | invalidate name => { s with cache := (s.cache.invalidate name).1 }
  | evict late => { s with cache := s.cache.evict (s.now - late) }
  | tick d => { s with now := s.now + d }

def isEvict : CacheEvent → Bool
  | evict _ => true
  | _ => false

/-- The event stores something under the key, or removes the key. -/
def Touches (k : GoString) : CacheEvent → Prop
  | set name qtype (some msg) => key name qtype = k ∧ msg.answer ≠ []
  | invalidate name => hasPrefix k (removedPrefix name)
  | _ => False

/-- What an event writes under a key: a new entry, or none. -/
def write (k : GoString) (s : CacheState) : CacheEvent → Option (Option CacheEntry)
  | set name qtype (some msg) =>
      if key name qtype = k ∧ msg.answer ≠ [] then some (some ⟨msg, s.now + s.cache.extractTTL msg⟩)
      else none
  | invalidate name => if hasPrefix k (removedPrefix name) then some none else none
  | _ => none

theorem write_eq_none_iff {k : GoString} {s : CacheState} {e : CacheEvent} :
    e.write k s = none ↔ ¬ e.Touches k := by
  cases e with
  | set name qtype msg => cases msg <;> simp [write, Touches]
  | invalidate name => simp [write, Touches]
  | _ => simp [write, Touches]

end CacheEvent

/-- A fresh cache without an L2. -/
def CacheState.start (floor ceil t : ℤ) : CacheState := ⟨t, Cache.new floor ceil, ∅, []⟩

/-- The settings of a cache without an L2. -/
structure CacheState.Plain (floor ceil : ℤ) (s : CacheState) : Prop where
  ttlFloor : s.cache.ttlFloor = floor
  ttlCeil : s.cache.ttlCeil = ceil
  l2 : s.cache.l2 = none

variable {floor ceil : ℤ} {s s' : CacheState}

theorem Cache.get_of_l2_eq_none {c : Cache} (h : c.l2 = none) (redis : Redis) (now : ℤ)
    (name : GoString) (qtype : UInt16) :
    c.get redis now name qtype =
      match Expiring.live CacheEntry.expiresAt c.entries now (key name qtype) with
      | some e => (some e.msg, { c with hits := c.hits + 1 }, redis)
      | none => (none, { c with misses := c.misses + 1 }, redis) := by
  rw [Cache.get, h]
  cases Expiring.live CacheEntry.expiresAt c.entries now (key name qtype) with
  | some e => rfl
  | none => rfl

theorem CacheState.Plain.apply (h : s.Plain floor ceil) (e : CacheEvent) :
    (e.apply s).Plain floor ceil := by
  obtain ⟨hfloor, hceil, hl2⟩ := h
  cases e with
  | set name qtype msg =>
    cases msg with
    | none => exact ⟨hfloor, hceil, hl2⟩
    | some msg =>
      simp only [CacheEvent.apply, Cache.set_spec]
      split_ifs <;> exact ⟨hfloor, hceil, hl2⟩
  | get name qtype =>
    simp only [CacheEvent.apply, Cache.get_of_l2_eq_none hl2]
    split <;> exact ⟨hfloor, hceil, hl2⟩
  | _ => exact ⟨hfloor, hceil, hl2⟩

theorem CacheEvent.now_le (s : CacheState) (e : CacheEvent) : s.now ≤ (e.apply s).now := by
  cases e with
  | tick d => simp [apply]
  | _ => exact le_rfl

/-- What is seen under a key after an event, from then on. -/
theorem CacheEvent.live_apply (h : s.Plain floor ceil) (e : CacheEvent) (k : GoString) {t : ℤ}
    (ht : (e.apply s).now ≤ t) :
    Expiring.live CacheEntry.expiresAt (e.apply s).cache.entries t k =
      ((e.write k s).map (Option.filter fun b => t < b.expiresAt)).getD
        (Expiring.live CacheEntry.expiresAt s.cache.entries t k) := by
  cases e with
  | set name qtype msg =>
    cases msg with
    | none => rfl
    | some msg =>
      simp only [apply, write, Cache.set_spec]
      by_cases hans : msg.answer = []
      · simp [hans]
      · by_cases hk : key name qtype = k
        · simp [hans, hk, Option.filter]
        · simp [hans, hk, Expiring.live_insert_of_ne _ _ _ (Ne.symm hk)]
  | get name qtype =>
    simp only [apply, write, Cache.get_of_l2_eq_none h.l2]
    split <;> rfl
  | invalidate name =>
    have hlive : Expiring.live CacheEntry.expiresAt ((invalidate name).apply s).cache.entries t k =
        (Expiring.live CacheEntry.expiresAt s.cache.entries t k).filter
          fun _ => !hasPrefix k (removedPrefix name) := Expiring.live_retain ..
    rw [hlive, write]
    by_cases hp : hasPrefix k (removedPrefix name)
    · rw [if_pos hp]
      simp [hp]
    · rw [if_neg hp]
      cases Expiring.live CacheEntry.expiresAt s.cache.entries t k <;> simp [hp]
  | evict late =>
    have hlate : s.now - late ≤ t := by
      simp only [apply] at ht
      omega
    simp [apply, write, Cache.evict, Expiring.live_sweep _ hlate]
  | tick d => rfl

/-- The last event of the run that concerns the key `k` stored `msg` at the time `t₀`. -/
def StoredLast (s : CacheState) (es : List CacheEvent) (k : GoString) (msg : Msg) (t₀ : ℤ) : Prop :=
  ∃ pre name qtype post, es = pre ++ .set name qtype (some msg) :: post ∧ key name qtype = k ∧
    msg.answer ≠ [] ∧ (run CacheEvent.apply s pre).now = t₀ ∧ ∀ e ∈ post, ¬ e.Touches k

theorem lastWrite_iff_storedLast (h : s.Plain floor ceil) {es : List CacheEvent} {k : GoString}
    {e : CacheEntry} :
    LastWrite CacheEvent.apply (CacheEvent.write k) s es (some e) ↔
      ∃ t₀, StoredLast s es k e.msg t₀ ∧ e.expiresAt = t₀ + extractTTL floor ceil e.msg := by
  have hplain : ∀ es, (run CacheEvent.apply s es).Plain floor ceil := fun es =>
    run_invariant _ (fun _ e hs => hs.apply e) h es
  have hpost : ∀ s' post, Along CacheEvent.apply (fun s e => e.write k s = none) s' post ↔
      ∀ e ∈ post, ¬ e.Touches k := by
    intro s' post
    simp only [CacheEvent.write_eq_none_iff]
    exact along_const s' post
  have httl : ∀ es msg, (run CacheEvent.apply s es).cache.extractTTL msg =
      extractTTL floor ceil msg := fun es msg => by
    rw [Cache.extractTTL, (hplain es).ttlFloor, (hplain es).ttlCeil]
  constructor
  · rintro ⟨pre, ev, post, rfl, hwrite, halong⟩
    cases ev with
    | set name qtype msg =>
      cases msg with
      | none => cases hwrite
      | some msg =>
        simp only [CacheEvent.write] at hwrite
        split_ifs at hwrite with hk
        obtain rfl := Option.some.inj (Option.some.inj hwrite)
        exact ⟨_, ⟨pre, name, qtype, post, rfl, hk.1, hk.2, rfl, (hpost _ _).1 halong⟩,
          by rw [← httl pre]⟩
    | invalidate name =>
      simp only [CacheEvent.write] at hwrite
      split_ifs at hwrite
      cases hwrite
    | _ => cases hwrite
  · rintro ⟨t₀, ⟨pre, name, qtype, post, rfl, hk, hans, rfl, htouch⟩, hexp⟩
    refine ⟨pre, _, post, rfl, ?_, (hpost _ _).2 htouch⟩
    obtain ⟨msg, expiresAt⟩ := e
    dsimp only at hans hexp
    simp only [CacheEvent.write, hk, hans, ne_eq, not_false_eq_true, and_self, if_true, httl, hexp]

omit [Unicode] in
theorem plain_start (floor ceil t : ℤ) : (CacheState.start floor ceil t).Plain floor ceil :=
  ⟨rfl, rfl, rfl⟩

/-- What is seen in the cache at the end of a run is what was stored last. -/
theorem live_run_cache (floor ceil t : ℤ) (es : List CacheEvent) (k : GoString) (e : CacheEntry) :
    let s := run CacheEvent.apply (.start floor ceil t) es
    Expiring.live CacheEntry.expiresAt s.cache.entries s.now k = some e ↔
      (∃ t₀, StoredLast (.start floor ceil t) es k e.msg t₀ ∧
        e.expiresAt = t₀ + extractTTL floor ceil e.msg) ∧ s.now < e.expiresAt := by
  intro s
  have hlive := Expiring.live_run_iff (CacheState.Plain floor ceil) (fun s => s.cache.entries)
    CacheEvent.write (fun _ e hs => hs.apply e) CacheEvent.now_le
    (fun _ e k _ hs ht => CacheEvent.live_apply hs e k ht) (plain_start floor ceil t) rfl es k e
    le_rfl
  rw [hlive, lastWrite_iff_storedLast (plain_start floor ceil t)]

/-! ### Sweeps -/

/-- Two caches that no `Get` will tell apart. -/
structure SameCache (s s' : CacheState) : Prop where
  now : s.now = s'.now
  entries : Expiring.SameFrom CacheEntry.expiresAt s.now s.cache.entries s'.cache.entries
  returned : s.returned = s'.returned

theorem SameCache.apply (h : s.Plain floor ceil) (h' : s'.Plain floor ceil) (hs : SameCache s s')
    {e : CacheEvent} (he : ¬ e.isEvict) : SameCache (e.apply s) (e.apply s') := by
  obtain ⟨hnow, hentries, hreturned⟩ := hs
  cases e with
  | set name qtype msg =>
    cases msg with
    | none => exact ⟨hnow, hentries, hreturned⟩
    | some msg =>
      have httl : s.cache.extractTTL msg = s'.cache.extractTTL msg := by
        rw [Cache.extractTTL, Cache.extractTTL, h.ttlFloor, h.ttlCeil, h'.ttlFloor, h'.ttlCeil]
      simp only [CacheEvent.apply, Cache.set_spec]
      split_ifs
      · exact ⟨hnow, hentries, hreturned⟩
      · refine ⟨hnow, ?_, hreturned⟩
        rw [← hnow, ← httl]
        exact hentries.insert _ _
  | get name qtype =>
    have hlive := hentries s.now le_rfl (key name qtype)
    simp only [CacheEvent.apply, Cache.get_of_l2_eq_none h.l2, Cache.get_of_l2_eq_none h'.l2,
      ← hnow, ← hlive, ← hreturned]
    split <;> exact ⟨rfl, hentries, rfl⟩
  | invalidate name => exact ⟨hnow, hentries.retain _, hreturned⟩
  | evict late => exact absurd rfl he
  | tick d =>
    exact ⟨by simp [CacheEvent.apply, hnow], hentries.mono (by simp [CacheEvent.apply]), hreturned⟩

/-- A `Get` of either cache returns the same. -/
theorem SameCache.evict_left (hs : SameCache s s') (late : ℕ) :
    SameCache ((CacheEvent.evict late).apply s) s' :=
  ⟨hs.now, hs.entries.sweep_left (by omega), hs.returned⟩

/-- The run without its sweeps. -/
theorem sameCache_filter (floor ceil t : ℤ) (es : List CacheEvent) :
    SameCache (run CacheEvent.apply (.start floor ceil t) es)
      (run CacheEvent.apply (.start floor ceil t) (es.filter fun e => !e.isEvict)) := by
  have h := run_filter
    (fun s s' : CacheState => s.Plain floor ceil ∧ s'.Plain floor ceil ∧ SameCache s s')
    (fun e : CacheEvent => !e.isEvict)
    (fun s s' e he hs =>
      ⟨hs.1.apply e, hs.2.1.apply e, hs.2.2.apply hs.1 hs.2.1 (by simpa using he)⟩)
    (fun s s' e he hs => ?_) ⟨plain_start floor ceil t, plain_start floor ceil t, rfl,
      Expiring.SameFrom.refl _ _, rfl⟩ es
  · simpa using h.2.2
  · cases e with
    | evict late => exact ⟨hs.1.apply _, hs.2.1, hs.2.2.evict_left late⟩
    | _ => exact absurd rfl he

/-! ### Counters -/

/-- The counters count the results of the `Get`s. -/
structure CacheState.Counted (s : CacheState) : Prop where
  hits : s.cache.hits = s.returned.countP Option.isSome
  misses : s.cache.misses = s.returned.countP Option.isNone

theorem CacheState.Counted.apply (hp : s.Plain floor ceil) (h : s.Counted) (e : CacheEvent) :
    (e.apply s).Counted := by
  obtain ⟨hhits, hmisses⟩ := h
  cases e with
  | set name qtype msg =>
    cases msg with
    | none => exact ⟨hhits, hmisses⟩
    | some msg =>
      simp only [CacheEvent.apply, Cache.set_spec]
      split_ifs <;> exact ⟨hhits, hmisses⟩
  | get name qtype =>
    simp only [CacheEvent.apply, Cache.get_of_l2_eq_none hp.l2]
    split <;> constructor <;> simp [hhits, hmisses]
  | _ => exact ⟨hhits, hmisses⟩

theorem counted_run (floor ceil t : ℤ) (es : List CacheEvent) :
    (run CacheEvent.apply (.start floor ceil t) es).Counted :=
  (run_invariant (fun s : CacheState => s.Plain floor ceil ∧ s.Counted)
    (fun _ e hs => ⟨hs.1.apply e, hs.2.apply hs.1 e⟩) ⟨plain_start floor ceil t, rfl, rfl⟩ es).2

/-- A `Get` at the end of a run returns what was stored last, until its lifetime is over. -/
theorem get_run_iff (floor ceil t : ℤ) (es : List CacheEvent) (name : GoString) (qtype : UInt16)
    (msg : Msg) :
    let s := run CacheEvent.apply (.start floor ceil t) es
    (s.cache.get s.redis s.now name qtype).1 = some msg ↔
      ∃ t₀, StoredLast (.start floor ceil t) es (key name qtype) msg t₀ ∧
        s.now < t₀ + extractTTL floor ceil msg := by
  intro s
  have hplain : s.Plain floor ceil :=
    run_invariant _ (fun _ e hs => hs.apply e) (plain_start floor ceil t) es
  have hlive := live_run_cache floor ceil t es (key name qtype)
  rw [Cache.get_of_l2_eq_none hplain.l2]
  constructor
  · intro hget
    cases hl : Expiring.live CacheEntry.expiresAt s.cache.entries s.now (key name qtype) with
    | none => simp [hl] at hget
    | some e =>
      obtain rfl : e.msg = msg := by simpa [hl] using hget
      obtain ⟨⟨t₀, hlast, hexp⟩, hnow⟩ := (hlive e).1 hl
      exact ⟨t₀, hlast, hexp ▸ hnow⟩
  · rintro ⟨t₀, hlast, hnow⟩
    rw [(hlive ⟨msg, t₀ + extractTTL floor ceil msg⟩).2 ⟨⟨t₀, hlast, rfl⟩, hnow⟩]

/-- **The cache is a TTL map.**  At the end of any run a `Get` returns the message that was last
stored under its key and neither replaced nor removed since, as long as its lifetime is not
over; the counters count the results; and runs that differ in their sweeps only return the
same. -/
theorem cache_refines_ttlMap (floor ceil t : ℤ) (es : List CacheEvent) :
    let s := run CacheEvent.apply (.start floor ceil t) es
    (∀ name qtype msg, (s.cache.get s.redis s.now name qtype).1 = some msg ↔
        ∃ t₀, StoredLast (.start floor ceil t) es (key name qtype) msg t₀ ∧
          s.now < t₀ + extractTTL floor ceil msg) ∧
      s.cache.hits = s.returned.countP Option.isSome ∧
      s.cache.misses = s.returned.countP Option.isNone ∧
      ∀ es', es'.filter (fun e => !e.isEvict) = es.filter (fun e => !e.isEvict) →
        (run CacheEvent.apply (.start floor ceil t) es').returned = s.returned := by
  intro s
  refine ⟨get_run_iff floor ceil t es, (counted_run floor ceil t es).hits,
    (counted_run floor ceil t es).misses, fun es' hes' => ?_⟩
  have h := (sameCache_filter floor ceil t es').returned
  rw [hes', ← (sameCache_filter floor ceil t es).returned] at h
  exact h

end History
end DnsFilter
