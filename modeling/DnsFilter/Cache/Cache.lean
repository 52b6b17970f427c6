import DnsFilter.Dns.Message
import DnsFilter.Lib.Expiring

/-!
# The two-level cache

`Cache` of `internal/cache/cache.go` (L1, in memory) and `RedisCache` of
`internal/cache/redis.go` (L2).  Times and durations are in nanoseconds.

The Redis server is a store whose entries may expire; it is passed to the operations, since
several caches may share it.  What its client makes of an expiration is a parameter,
`RedisClient`: only the positive ones of whole seconds are known to be kept as they are.

`Cache.set_spec` and `Cache.get_spec` say all that a `Set` and a `Get` do.
-/

namespace DnsFilter

open GoString

/-- A cached response with its expiration time. -/
structure CacheEntry where
  msg : Msg
  expiresAt : ℤ

/-- `time.Second`. -/
def second : ℤ := 1000000000

/-- The client of a Redis server. -/
structure RedisClient where
  /-- When the server forgets a key that is set with an expiration, by the time at which it would
  have forgotten what was there. -/
  expiry (now ttl : ℤ) (old : Option (WithTop ℤ)) : WithTop ℤ
  expiry_seconds : ∀ now ttl old, 0 < ttl → second ∣ ttl →
    expiry now ttl old = ((now + ttl : ℤ) : WithTop ℤ)

/-- A store that forgets a key exactly its TTL after it was last written. -/
def RedisClient.exact : RedisClient where
  expiry now ttl _ := ((now + ttl : ℤ) : WithTop ℤ)
  expiry_seconds _ _ _ _ _ := rfl

/-- `go-redis`: an expiration is rounded to milliseconds; one that is not positive is none,
except that `KeepTTL` is the old one. -/
def RedisClient.goRedis : RedisClient where
  expiry now ttl old :=
    if 0 < ttl then ((now + max 1000000 (ttl - ttl % 1000000) : ℤ) : WithTop ℤ)
    else if ttl = -1 then old.getD ⊤
    else ⊤
  expiry_seconds now ttl old hpos hdvd := by
    obtain ⟨k, rfl⟩ := hdvd
    rw [if_pos hpos]
    rw [second] at hpos ⊢
    congr 2
    omega

/-- An L2 cache. -/
structure RedisCache where
  client : RedisClient
  ttlFloor : ℤ
  ttlCeil : ℤ

/-- The counters of hits and misses are of 64 bits in the code; here they do not wrap. -/
structure Cache where
  entries : Finmap fun _ : GoString => CacheEntry
  ttlFloor : ℤ
  ttlCeil : ℤ
  hits : ℕ
  misses : ℕ
  l2 : Option RedisCache

/-- `New`. -/
def Cache.new (ttlFloor ttlCeil : ℤ) : Cache := ⟨∅, ttlFloor, ttlCeil, 0, 0, none⟩

/-- Attach an L2 cache. -/
def Cache.setL2 (c : Cache) (l2 : RedisCache) : Cache := { c with l2 := some l2 }

/-- Clamp a TTL between floor and ceiling, the ceiling last. -/
def clampTTL (floor ceil ttl : ℤ) : ℤ :=
  let ttl := if ttl < floor then floor else ttl
  if ceil < ttl then ceil else ttl

@[simp] theorem clampTTL_clampTTL (floor ceil ttl : ℤ) :
    clampTTL floor ceil (clampTTL floor ceil ttl) = clampTTL floor ceil ttl := by
  simp only [clampTTL]
  split_ifs <;> omega

theorem clampTTL_self (bound ttl : ℤ) : clampTTL bound bound ttl = bound := by
  simp only [clampTTL]
  split_ifs <;> omega

/-- The least TTL of the answers, at most one hour. -/
def minTTL (answer : List RR) : UInt32 :=
  answer.foldl (fun minTTL rr => if rr.ttl < minTTL then rr.ttl else minTTL) 3600

/-- The lifetime of a response. -/
def extractTTL (floor ceil : ℤ) (msg : Msg) : ℤ :=
  clampTTL floor ceil ((minTTL msg.answer).toNat * second)

def Cache.extractTTL (c : Cache) (msg : Msg) : ℤ := DnsFilter.extractTTL c.ttlFloor c.ttlCeil msg

/-- `evictLoop`: drop the entries that expired before `now`. -/
def Cache.evict (c : Cache) (now : ℤ) : Cache :=
  { c with entries := Expiring.sweep CacheEntry.expiresAt c.entries now }

section Operations

variable [Unicode] [Miekg]

/-- A value in Redis. -/
structure RedisEntry where
  data : Miekg.Wire
  expiresAt : WithTop ℤ

/-- The contents of the Redis server. -/
abbrev Redis := Finmap fun _ : GoString => RedisEntry

/-- The cache key, domain and query type. -/
def key (name : GoString) (qtype : UInt16) : GoString :=
  toLower name ++ "|".toList ++ Miekg.typeToString qtype

/-- `RedisCache.Get`. -/
def RedisCache.get (_ : RedisCache) (redis : Redis) (now : ℤ) (name : GoString)
    (qtype : UInt16) : Option Msg :=
  (Expiring.live RedisEntry.expiresAt redis now (key name qtype)).bind fun e => Miekg.unpack e.data

/-- When the server forgets a key that is set with a TTL now. -/
def RedisCache.expiry (r : RedisCache) (redis : Redis) (now : ℤ) (k : GoString) (ttl : ℤ) :
    WithTop ℤ :=
  r.client.expiry now (clampTTL r.ttlFloor r.ttlCeil ttl)
    ((Expiring.live RedisEntry.expiresAt redis now k).map RedisEntry.expiresAt)

/-- `RedisCache.Set`. -/
def RedisCache.set (r : RedisCache) (redis : Redis) (now : ℤ) (name : GoString) (qtype : UInt16)
    (msg : Option Msg) (ttl : ℤ) : Redis :=
  match msg with
  | none => redis
  | some msg =>
      if msg.answer = [] then redis
      else match Miekg.pack msg with
        | some data =>
            redis.insert (key name qtype) ⟨data, r.expiry redis now (key name qtype) ttl⟩
        | none => redis

namespace Cache

/-- Store a response in both levels. -/
def set (c : Cache) (redis : Redis) (now : ℤ) (name : GoString) (qtype : UInt16)
    (msg : Option Msg) : Cache × Redis :=
  match msg with
  | none => (c, redis)
  | some msg =>
      if msg.answer = [] then (c, redis)
      else
        let ttl := c.extractTTL msg
        ({ c with entries := c.entries.insert (key name qtype) ⟨msg, now + ttl⟩ },
          match c.l2 with
          | some l2 => l2.set redis now name qtype (some msg) ttl
          | none => redis)

/-- Look up a response; an L2 hit is promoted to L1 by a `Set`. -/
def get (c : Cache) (redis : Redis) (now : ℤ) (name : GoString) (qtype : UInt16) :
    Option Msg × Cache × Redis :=
  match Expiring.live CacheEntry.expiresAt c.entries now (key name qtype) with
  | some e => (some e.msg, { c with hits := c.hits + 1 }, redis)
  | none =>
      match c.l2.bind fun l2 => l2.get redis now name qtype with
      | some msg =>
          let (c, redis) := c.set redis now name qtype (some msg)
          (some msg, { c with hits := c.hits + 1 }, redis)
      | none => (none, { c with misses := c.misses + 1 }, redis)

/-- Remove all query types of a domain from L1, and count them. -/
def invalidate (c : Cache) (name : GoString) : Cache × ℕ :=
  let name := toLower (Miekg.fqdn name)
  let removed := fun k : GoString => hasPrefix k (name ++ "|".toList)
  ({ c with entries := c.entries.retain fun k _ => !removed k },
    (c.entries.retain fun k _ => removed k).keys.card)

/-! ### What the operations do -/

/-- A `Set` of a response with answers stores it in L1 and, if it packs, in an attached L2. -/
theorem set_spec (c : Cache) (redis : Redis) (now : ℤ) (name : GoString) (qtype : UInt16)
    (msg : Msg) :
    c.set redis now name qtype (some msg) =
      if msg.answer = [] then (c, redis)
      else
        ({ c with entries := c.entries.insert (key name qtype) ⟨msg, now + c.extractTTL msg⟩ },
          match c.l2, Miekg.pack msg with
          | some l2, some data => redis.insert (key name qtype)
              ⟨data, l2.expiry redis now (key name qtype) (c.extractTTL msg)⟩
          | _, _ => redis) := by
  by_cases h : msg.answer = []
  · simp [set, h]
  · obtain ⟨_, _, _, _, _, l2⟩ := c
    cases l2 <;> cases hpack : Miekg.pack msg <;> simp [set, RedisCache.set, h, hpack]

theorem get_of_live {c : Cache} {redis : Redis} {now : ℤ} {name : GoString} {qtype : UInt16}
    {e : CacheEntry}
    (h : Expiring.live CacheEntry.expiresAt c.entries now (key name qtype) = some e) :
    c.get redis now name qtype = (some e.msg, { c with hits := c.hits + 1 }, redis) := by
  simp only [get, h]

theorem get_of_l2 {c : Cache} {redis : Redis} {now : ℤ} {name : GoString} {qtype : UInt16}
    {msg : Msg}
    (h : Expiring.live CacheEntry.expiresAt c.entries now (key name qtype) = none)
    (hl2 : (c.l2.bind fun l2 => l2.get redis now name qtype) = some msg) :
    c.get redis now name qtype =
      (some msg, { (c.set redis now name qtype (some msg)).1 with
        hits := (c.set redis now name qtype (some msg)).1.hits + 1 },
        (c.set redis now name qtype (some msg)).2) := by
  simp only [get, h, hl2]

theorem get_of_miss {c : Cache} {redis : Redis} {now : ℤ} {name : GoString} {qtype : UInt16}
    (h : Expiring.live CacheEntry.expiresAt c.entries now (key name qtype) = none)
    (hl2 : (c.l2.bind fun l2 => l2.get redis now name qtype) = none) :
    c.get redis now name qtype = (none, { c with misses := c.misses + 1 }, redis) := by
  simp only [get, h, hl2]

/-- The three ways a `Get` can end. -/
theorem get_spec (c : Cache) (redis : Redis) (now : ℤ) (name : GoString) (qtype : UInt16) :
    (∃ e, Expiring.live CacheEntry.expiresAt c.entries now (key name qtype) = some e ∧
        c.get redis now name qtype = (some e.msg, { c with hits := c.hits + 1 }, redis)) ∨
      (∃ l2 e msg, Expiring.live CacheEntry.expiresAt c.entries now (key name qtype) = none ∧
        c.l2 = some l2 ∧
        Expiring.live RedisEntry.expiresAt redis now (key name qtype) = some e ∧
        Miekg.unpack e.data = some msg ∧
        c.get redis now name qtype =
          (some msg, { (c.set redis now name qtype (some msg)).1 with
            hits := (c.set redis now name qtype (some msg)).1.hits + 1 },
            (c.set redis now name qtype (some msg)).2)) ∨
      (Expiring.live CacheEntry.expiresAt c.entries now (key name qtype) = none ∧
        c.get redis now name qtype = (none, { c with misses := c.misses + 1 }, redis)) := by
  cases hlive : Expiring.live CacheEntry.expiresAt c.entries now (key name qtype) with
  | some e => exact .inl ⟨e, rfl, get_of_live hlive⟩
  | none =>
    cases hl2 : c.l2.bind fun l2 => l2.get redis now name qtype with
    | none => exact .inr (.inr ⟨rfl, get_of_miss hlive hl2⟩)
    | some msg =>
      obtain ⟨l2, hsome, hget⟩ := Option.bind_eq_some_iff.1 hl2
      obtain ⟨e, hred, hunpack⟩ := Option.bind_eq_some_iff.1 hget
      exact .inr (.inl ⟨l2, e, msg, rfl, hsome, hred, hunpack, get_of_l2 hlive hl2⟩)

/-! ### What a cache holds -/

/-- Every message in either level satisfies `P` under its key. -/
structure Holds (P : GoString → Msg → Prop) (c : Cache) (redis : Redis) : Prop where
  l1 : ∀ k e, c.entries.lookup k = some e → P k e.msg
  l2 : ∀ k e, redis.lookup k = some e → ∃ msg, Miekg.unpack e.data = some msg ∧ P k msg

variable {P P' : GoString → Msg → Prop} {c : Cache} {redis : Redis}

omit [Unicode] in
theorem Holds.mono (h : Holds P c redis) (hP : ∀ k msg, P k msg → P' k msg) :
    Holds P' c redis := by
  refine ⟨fun k e he => hP k _ (h.l1 k e he), fun k e he => ?_⟩
  obtain ⟨msg, hunpack, hmsg⟩ := h.l2 k e he
  exact ⟨msg, hunpack, hP k msg hmsg⟩

/-- A `Set` keeps `P` when the stored message came from the wire and satisfies it. -/
theorem Holds.set (h : Holds P c redis) (now : ℤ) (name : GoString) (qtype : UInt16)
    (m : Received) (hm : P (key name qtype) m.msg) :
    Holds P (c.set redis now name qtype (some m.msg)).1
      (c.set redis now name qtype (some m.msg)).2 := by
  rw [set_spec]
  split_ifs with hans
  · exact h
  · refine ⟨fun k e he => ?_, ?_⟩
    · by_cases hk : k = key name qtype
      · subst hk
        rw [Finmap.lookup_insert] at he
        obtain rfl := Option.some.inj he
        exact hm
      · rw [Finmap.lookup_insert_of_ne _ hk] at he
        exact h.l1 k e he
    · cases hl2 : c.l2 with
      | none => exact h.l2
      | some l2 =>
        cases hpack : Miekg.pack m.msg with
        | none => exact h.l2
        | some data =>
          intro k e he
          by_cases hk : k = key name qtype
          · subst hk
            rw [Finmap.lookup_insert] at he
            obtain rfl := Option.some.inj he
            exact ⟨m.msg, Miekg.unpack_pack m.unpacks hpack, hm⟩
          · rw [Finmap.lookup_insert_of_ne _ hk] at he
            exact h.l2 k e he

/-- A `Get` keeps `P`, promotions included, and returns a message that satisfies it. -/
theorem Holds.get (h : Holds P c redis) (now : ℤ) (name : GoString) (qtype : UInt16) :
    Holds P (c.get redis now name qtype).2.1 (c.get redis now name qtype).2.2 ∧
      ∀ msg, (c.get redis now name qtype).1 = some msg → P (key name qtype) msg := by
  rcases get_spec c redis now name qtype with
    ⟨e, hlive, hget⟩ | ⟨l2, e, m, -, -, hlive, hunpack, hget⟩ | ⟨-, hget⟩
  · rw [hget]
    refine ⟨⟨h.l1, h.l2⟩, fun msg hmsg => ?_⟩
    obtain rfl := Option.some.inj hmsg
    exact h.l1 _ e (Expiring.live_eq_some.1 hlive).1
  · rw [hget]
    obtain ⟨msg, hmsg, hP⟩ := h.l2 _ e (Expiring.live_eq_some.1 hlive).1
    obtain rfl := Option.some.inj (hmsg.symm.trans hunpack)
    have hset := h.set now name qtype ⟨msg, e.data, hunpack⟩ hP
    refine ⟨⟨hset.l1, hset.l2⟩, fun msg' hmsg' => ?_⟩
    obtain rfl := Option.some.inj hmsg'
    exact hP
  · rw [hget]
    exact ⟨⟨h.l1, h.l2⟩, fun msg hmsg => by cases hmsg⟩

omit [Unicode] in
theorem Holds.evict (h : Holds P c redis) (now : ℤ) : Holds P (c.evict now) redis :=
  ⟨fun k e he => h.l1 k e (Expiring.lookup_of_lookup_sweep he), h.l2⟩

theorem Holds.invalidate (h : Holds P c redis) (name : GoString) :
    Holds P (c.invalidate name).1 redis := by
  refine ⟨fun k e he => h.l1 k e ?_, h.l2⟩
  simp only [Cache.invalidate, Finmap.lookup_retain, Option.filter_eq_some_iff] at he
  exact he.1

end Cache
end Operations
end DnsFilter
