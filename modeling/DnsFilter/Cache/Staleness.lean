import DnsFilter.Cache.Cache
import DnsFilter.Lib.Run

/-!
# Staleness of the two-level cache

Any number of caches share one Redis server, which forgets an entry exactly its TTL after it was
last written, and have the same floor and ceiling.  A response that the query handler hands to
`Set` at time `t₀` should be returned before `t₀ + extractTTL` only.

An L2 hit is promoted by a `Set` at the time of the read, which gives the entry a whole new
lifetime in both levels.  `fresh_reads_iff`: no read is ever stale exactly when promotions
happen in the instant in which the entry was written, so that the lifetime starts anew at
the same time.
-/

namespace DnsFilter

open EventRun

/-- A message under a cache key at a time. -/
structure Stamped where
  key : GoString
  msg : Msg
  time : ℤ
  deriving DecidableEq

/-- A read of a response that was handed over recently enough. -/
def FreshRead (floor ceil : ℤ) (hs : List Stamped) (r : Stamped) : Prop :=
  ∃ h ∈ hs, h.key = r.key ∧ h.msg = r.msg ∧ h.time ≤ r.time ∧
    r.time < h.time + extractTTL floor ceil r.msg

/-- The settings of a cache are the common ones, and every L1 entry expires in time. -/
structure CacheSound (floor ceil : ℤ) (hs : List Stamped) (c : Cache) : Prop where
  ttlFloor : c.ttlFloor = floor
  ttlCeil : c.ttlCeil = ceil
  l2 : c.l2 = some ⟨.exact, floor, ceil⟩
  timely : ∀ k e, c.entries.lookup k = some e → ∃ h ∈ hs, h.key = k ∧ h.msg = e.msg ∧
    h.time + extractTTL floor ceil e.msg = e.expiresAt

section Caches

variable {floor ceil : ℤ} {hs hs' : List Stamped} {c : Cache}

theorem FreshRead.mono {r : Stamped} (h : FreshRead floor ceil hs r) (hsub : hs ⊆ hs') :
    FreshRead floor ceil hs' r := by
  obtain ⟨x, hx, rest⟩ := h
  exact ⟨x, hsub hx, rest⟩

theorem CacheSound.mono (h : CacheSound floor ceil hs c) (hsub : hs ⊆ hs') :
    CacheSound floor ceil hs' c := by
  refine ⟨h.ttlFloor, h.ttlCeil, h.l2, fun k e he => ?_⟩
  obtain ⟨x, hx, rest⟩ := h.timely k e he
  exact ⟨x, hsub hx, rest⟩

theorem CacheSound.evict (h : CacheSound floor ceil hs c) (now : ℤ) :
    CacheSound floor ceil hs (c.evict now) :=
  ⟨h.ttlFloor, h.ttlCeil, h.l2, fun k e he => h.timely k e (Expiring.lookup_of_lookup_sweep he)⟩

theorem CacheSound.count (h : CacheSound floor ceil hs c) (hits misses : ℕ) :
    CacheSound floor ceil hs { c with hits := hits, misses := misses } :=
  ⟨h.ttlFloor, h.ttlCeil, h.l2, h.timely⟩

theorem CacheSound.extractTTL_eq (h : CacheSound floor ceil hs c) (msg : Msg) :
    c.extractTTL msg = extractTTL floor ceil msg := by
  rw [Cache.extractTTL, h.ttlFloor, h.ttlCeil]

variable [Unicode] [Miekg] {redis : Redis} {now : ℤ} {name : GoString} {qtype : UInt16}

/-- A `Set` under the common settings: the second clamp of L2 changes nothing. -/
theorem CacheSound.set_eq (h : CacheSound floor ceil hs c) (msg : Msg) :
    c.set redis now name qtype (some msg) =
      if msg.answer = [] then (c, redis)
      else
        ({ c with entries :=
            c.entries.insert (key name qtype) ⟨msg, now + extractTTL floor ceil msg⟩ },
          match Miekg.pack msg with
          | some data =>
              redis.insert (key name qtype) ⟨data, (now + extractTTL floor ceil msg : ℤ)⟩
          | none => redis) := by
  rw [Cache.set_spec, h.l2, h.extractTTL_eq]
  cases hpack : Miekg.pack msg <;>
    simp [extractTTL, RedisCache.expiry, RedisClient.exact]

/-- Storing a response in the instant in which it was handed over keeps L1 timely. -/
theorem CacheSound.set (hc : CacheSound floor ceil hs c) {h : Stamped} (hmem : h ∈ hs)
    (hkey : h.key = key name qtype) (hnow : h.time = now) :
    CacheSound floor ceil hs (c.set redis now name qtype (some h.msg)).1 := by
  rw [hc.set_eq]
  split_ifs with hans
  · exact hc
  · refine ⟨hc.ttlFloor, hc.ttlCeil, hc.l2, fun k e he => ?_⟩
    by_cases hk : k = key name qtype
    · subst hk
      rw [Finmap.lookup_insert] at he
      obtain rfl := Option.some.inj he
      exact ⟨h, hmem, hkey, rfl, by rw [hnow]⟩
    · rw [Finmap.lookup_insert_of_ne _ hk] at he
      exact hc.timely k e he

/-- `e` is the packed form of the response `h`, expiring exactly in time, and `h` is the last
time that this response was handed over. -/
structure StoredFrom (floor ceil : ℤ) (hs : List Stamped) (h : Stamped) (e : RedisEntry) :
    Prop where
  mem : h ∈ hs
  answer : h.msg.answer ≠ []
  pack : Miekg.pack h.msg = some e.data
  unpack : Miekg.unpack e.data = some h.msg
  expiresAt : e.expiresAt = (h.time + extractTTL floor ceil h.msg : ℤ)
  last : ∀ h' ∈ hs, h'.key = h.key → h'.msg = h.msg → h'.time ≤ h.time

/-- Every L2 entry expires in time. -/
def RedisSound (floor ceil : ℤ) (hs : List Stamped) (redis : Redis) : Prop :=
  ∀ k e, redis.lookup k = some e → ∃ h, h.key = k ∧ StoredFrom floor ceil hs h e

omit [Unicode] in
/-- Handing over a response under another key, or another response that is not stored,
leaves the origin of an entry as it is. -/
theorem StoredFrom.concat {h h' : Stamped} {e : RedisEntry} (hst : StoredFrom floor ceil hs h e)
    (hother : h'.key = h.key → h'.msg ≠ h.msg) : StoredFrom floor ceil (hs ++ [h']) h e := by
  refine { hst with mem := List.mem_append_left _ hst.mem, last := fun x hx hk hm => ?_ }
  rcases List.mem_append.1 hx with hx | hx
  · exact hst.last x hx hk hm
  · obtain rfl := List.mem_singleton.1 hx
    exact absurd hm (hother hk)

/-- A `Set` of a response just received keeps L2 timely. -/
theorem RedisSound.set_received (hc : CacheSound floor ceil hs c)
    (hr : RedisSound floor ceil hs redis) (hpast : ∀ h ∈ hs, h.time ≤ now) (m : Received) :
    RedisSound floor ceil (hs ++ [⟨key name qtype, m.msg, now⟩])
      (c.set redis now name qtype (some m.msg)).2 := by
  have hkeep : ∀ k e, redis.lookup k = some e →
      (k = key name qtype → m.msg.answer = [] ∨ Miekg.pack m.msg = none) →
      ∃ h, h.key = k ∧ StoredFrom floor ceil (hs ++ [⟨key name qtype, m.msg, now⟩]) h e := by
    intro k e he hno
    obtain ⟨h, rfl, hst⟩ := hr k e he
    refine ⟨h, rfl, hst.concat fun hk hm => ?_⟩
    rcases hno hk.symm with hans | hpack
    · exact hst.answer (hm ▸ hans)
    · have hp := hst.pack
      rw [← hm, hpack] at hp
      cases hp
  rw [hc.set_eq]
  split_ifs with hans
  · exact fun k e he => hkeep k e he fun _ => .inl hans
  · cases hpack : Miekg.pack m.msg with
    | none => exact fun k e he => hkeep k e he fun _ => .inr hpack
    | some data =>
      intro k e he
      by_cases hk : k = key name qtype
      · subst hk
        rw [Finmap.lookup_insert] at he
        obtain rfl := Option.some.inj he
        refine ⟨⟨key name qtype, m.msg, now⟩, rfl, by simp, hans, hpack,
          Miekg.unpack_pack m.unpacks hpack, rfl, fun x hx _ _ => ?_⟩
        rcases List.mem_append.1 hx with hx | hx
        · exact hpast x hx
        · exact (congrArg Stamped.time (List.mem_singleton.1 hx)).le
      · rw [Finmap.lookup_insert_of_ne _ hk] at he
        exact hkeep k e he fun h => absurd h hk

/-- A promotion in the instant of the write leaves L2 as it was. -/
theorem RedisSound.set_promoted (hc : CacheSound floor ceil hs c)
    (hr : RedisSound floor ceil hs redis) {h : Stamped} {e : RedisEntry}
    (hkey : h.key = key name qtype) (hst : StoredFrom floor ceil hs h e) (hnow : h.time = now) :
    RedisSound floor ceil hs (c.set redis now name qtype (some h.msg)).2 := by
  rw [hc.set_eq, if_neg hst.answer, hst.pack]
  intro k e' he'
  by_cases hk : k = key name qtype
  · subst hk
    rw [Finmap.lookup_insert] at he'
    obtain rfl := Option.some.inj he'
    exact ⟨h, hkey, { hst with expiresAt := by rw [hnow] }⟩
  · rw [Finmap.lookup_insert_of_ne _ hk] at he'
    exact hr k e' he'

end Caches

/-! ### Clusters -/

section Cluster

variable [Unicode] [Miekg] {ι : Type*}

/-- Caches that share a Redis server, with what was handed to `Set` and what `Get`
returned. -/
structure Cluster (ι : Type*) where
  now : ℤ
  caches : ι → Cache
  redis : Redis
  handed : List Stamped
  returned : List Stamped

inductive ClusterEvent (ι : Type*)
  | set (i : ι) (name : GoString) (qtype : UInt16) (response : Received)
  | get (i : ι) (name : GoString) (qtype : UInt16)
  | evict (i : ι)
  | tick (d : ℕ)

def ClusterEvent.apply [DecidableEq ι] (s : Cluster ι) : ClusterEvent ι → Cluster ι
  | .set i name qtype response =>
      let (c, redis) := (s.caches i).set s.redis s.now name qtype (some response.msg)
      { s with
        caches := Function.update s.caches i c
        redis := redis
        handed := s.handed ++ [⟨key name qtype, response.msg, s.now⟩] }
  | .get i name qtype =>
      let (msg, c, redis) := (s.caches i).get s.redis s.now name qtype
      { s with
        caches := Function.update s.caches i c
        redis := redis
        returned := s.returned ++ msg.toList.map (⟨key name qtype, ·, s.now⟩) }
  | .evict i => { s with caches := Function.update s.caches i ((s.caches i).evict s.now) }
  | .tick d => { s with now := s.now + d }

/-- Empty caches with the same settings in front of an empty server. -/
def Cluster.start (floor ceil t : ℤ) : Cluster ι :=
  ⟨t, fun _ => (Cache.new floor ceil).setL2 ⟨.exact, floor, ceil⟩, ∅, [], []⟩

/-- Whatever was returned was handed over recently enough. -/
def Cluster.Fresh (floor ceil : ℤ) (s : Cluster ι) : Prop :=
  ∀ r ∈ s.returned, FreshRead floor ceil s.handed r

structure ClusterSound (floor ceil : ℤ) (s : Cluster ι) : Prop where
  past : ∀ h ∈ s.handed, h.time ≤ s.now
  caches : ∀ i, CacheSound floor ceil s.handed (s.caches i)
  redis : RedisSound floor ceil s.handed s.redis
  fresh : s.Fresh floor ceil

/-- A `Get` that is answered from L2 comes in the instant in which the entry was written: its
remaining time there is still the whole lifetime of the response. -/
def PromotesAtOnce (floor ceil : ℤ) (s : Cluster ι) : ClusterEvent ι → Prop
  | .get i name qtype =>
      Expiring.live CacheEntry.expiresAt (s.caches i).entries s.now (key name qtype) = none →
        ∀ e msg, Expiring.live RedisEntry.expiresAt s.redis s.now (key name qtype) = some e →
          Miekg.unpack e.data = some msg →
            ((s.now + extractTTL floor ceil msg : ℤ) : WithTop ℤ) ≤ e.expiresAt
  | _ => True

variable {floor ceil : ℤ}

omit [Unicode] in
theorem clusterSound_start (t : ℤ) :
    ClusterSound floor ceil (Cluster.start floor ceil t : Cluster ι) := by
  refine ⟨by simp [Cluster.start], fun i => ⟨rfl, rfl, rfl, ?_⟩, ?_, ?_⟩
  · simp [Cluster.start, Cache.setL2, Cache.new]
  · simp [RedisSound, Cluster.start]
  · simp [Cluster.Fresh, Cluster.start]

/-- What a `Get` returns was handed over recently enough. -/
theorem ClusterSound.get_fresh {s : Cluster ι} (hs : ClusterSound floor ceil s) (i : ι)
    (name : GoString) (qtype : UInt16) {msg : Msg}
    (h : ((s.caches i).get s.redis s.now name qtype).1 = some msg) :
    FreshRead floor ceil s.handed ⟨key name qtype, msg, s.now⟩ := by
  rcases Cache.get_spec (s.caches i) s.redis s.now name qtype with
    ⟨e, hlive, hget⟩ | ⟨l2, e, m, -, -, hlive, hunpack, hget⟩ | ⟨-, hget⟩
  · rw [hget] at h
    obtain rfl := Option.some.inj h
    obtain ⟨hlookup, hnow⟩ := Expiring.live_eq_some.1 hlive
    obtain ⟨x, hx, hkey, hmsg, hexp⟩ := (hs.caches i).timely _ e hlookup
    exact ⟨x, hx, hkey, hmsg, hs.past x hx, by rw [hexp]; exact hnow⟩
  · rw [hget] at h
    obtain rfl := Option.some.inj h
    obtain ⟨hlookup, hnow⟩ := Expiring.live_eq_some.1 hlive
    obtain ⟨x, hkey, hst⟩ := hs.redis _ e hlookup
    obtain rfl := Option.some.inj (hst.unpack.symm.trans hunpack)
    rw [hst.expiresAt, WithTop.coe_lt_coe] at hnow
    exact ⟨x, hst.mem, hkey, rfl, hs.past x hst.mem, hnow⟩
  · rw [hget] at h
    cases h

/-- The caches and the server after a `Get` that promotes at once, if at all. -/
theorem ClusterSound.get_sound {s : Cluster ι} (hs : ClusterSound floor ceil s) {i : ι}
    {name : GoString} {qtype : UInt16} (hP : PromotesAtOnce floor ceil s (.get i name qtype)) :
    CacheSound floor ceil s.handed ((s.caches i).get s.redis s.now name qtype).2.1 ∧
      RedisSound floor ceil s.handed ((s.caches i).get s.redis s.now name qtype).2.2 := by
  rcases Cache.get_spec (s.caches i) s.redis s.now name qtype with
    ⟨e, -, hget⟩ | ⟨l2, e, m, hmiss, -, hlive, hunpack, hget⟩ | ⟨-, hget⟩
  · rw [hget]
    exact ⟨(hs.caches i).count _ _, hs.redis⟩
  · rw [hget]
    obtain ⟨x, hkey, hst⟩ := hs.redis _ e (Expiring.live_eq_some.1 hlive).1
    obtain rfl := Option.some.inj (hst.unpack.symm.trans hunpack)
    have hnow : x.time = s.now := by
      have hle := hP hmiss e x.msg hlive hunpack
      have hpast := hs.past x hst.mem
      rw [hst.expiresAt, WithTop.coe_le_coe] at hle
      omega
    exact ⟨((hs.caches i).set hst.mem hkey hnow).count _ _,
      hs.redis.set_promoted (hs.caches i) hkey hst hnow⟩
  · rw [hget]
    exact ⟨(hs.caches i).count _ _, hs.redis⟩

variable [DecidableEq ι]

/-- One event keeps every expiry in both levels exact, provided it promotes at once. -/
theorem ClusterSound.apply {s : Cluster ι} (hs : ClusterSound floor ceil s) {e : ClusterEvent ι}
    (hP : PromotesAtOnce floor ceil s e) : ClusterSound floor ceil (e.apply s) := by
  cases e with
  | set i name qtype m =>
    have hsub : s.handed ⊆ s.handed ++ [⟨key name qtype, m.msg, s.now⟩] :=
      List.subset_append_left ..
    refine ⟨fun h hh => ?_, ?_, ?_, fun r hr => (hs.fresh r hr).mono hsub⟩
    · rcases List.mem_append.1 hh with hh | hh
      · exact hs.past h hh
      · exact (congrArg Stamped.time (List.mem_singleton.1 hh)).le
    · refine (Function.forall_update_iff _ _).2
        ⟨((hs.caches i).mono hsub).set (h := ⟨key name qtype, m.msg, s.now⟩) (by simp) rfl rfl,
          fun j _ => (hs.caches j).mono hsub⟩
    · exact hs.redis.set_received (hs.caches i) hs.past m
  | get i name qtype =>
    obtain ⟨hcache, hredis⟩ := hs.get_sound hP
    refine ⟨hs.past, (Function.forall_update_iff _ _).2 ⟨hcache, fun j _ => hs.caches j⟩,
      hredis, fun r hr => ?_⟩
    rcases List.mem_append.1 hr with hr | hr
    · exact hs.fresh r hr
    · obtain ⟨msg, hmsg, rfl⟩ := List.mem_map.1 hr
      exact hs.get_fresh i name qtype (Option.mem_toList.1 hmsg)
  | evict i =>
    exact ⟨hs.past, (Function.forall_update_iff _ _).2
      ⟨(hs.caches i).evict s.now, fun j _ => hs.caches j⟩, hs.redis, hs.fresh⟩
  | tick d =>
    refine ⟨fun h hh => ?_, hs.caches, hs.redis, hs.fresh⟩
    have hpast := hs.past h hh
    simp only [ClusterEvent.apply]
    omega

/-- In runs that promote at once every expiry is exact. -/
theorem clusterSound_run (t : ℤ) (es : List (ClusterEvent ι))
    (h : Along ClusterEvent.apply (PromotesAtOnce floor ceil) (Cluster.start floor ceil t) es) :
    ClusterSound floor ceil (run ClusterEvent.apply (Cluster.start floor ceil t) es) :=
  along_invariant (fun _ s => ClusterSound floor ceil s) (clusterSound_start t)
    (fun _ _ hs hP => hs.apply hP) es h

/-! ### Reads -/

/-- Along a run, whatever is read now or at any later time is fresh. -/
def ReadsFresh (floor ceil : ℤ) (s : Cluster ι) (es : List (ClusterEvent ι)) : Prop :=
  ∀ pre, pre <+: es → ∀ d i name qtype,
    (run ClusterEvent.apply s (pre ++ [.tick d, .get i name qtype])).Fresh floor ceil

/-- The expiry times under a key, in the L1 of `i` and in L2. -/
def Cluster.expiries (s : Cluster ι) (i : ι) (k : GoString) : List (WithTop ℤ) :=
  ((s.caches i).entries.lookup k).toList.map (fun e => (e.expiresAt : WithTop ℤ)) ++
    (s.redis.lookup k).toList.map RedisEntry.expiresAt

/-- Along a run, no read makes any entry stay longer in any cache. -/
def ReadsKeepExpiry (s : Cluster ι) (es : List (ClusterEvent ι)) : Prop :=
  ∀ pre i name qtype, pre ++ [.get i name qtype] <+: es → ∀ j k,
    ∀ x ∈ (run ClusterEvent.apply s (pre ++ [.get i name qtype])).expiries j k,
      ∃ y ∈ (run ClusterEvent.apply s pre).expiries j k, x ≤ y

omit [Unicode] [DecidableEq ι] in
theorem Cluster.mem_expiries {s : Cluster ι} {i : ι} {k : GoString} {x : WithTop ℤ} :
    x ∈ s.expiries i k ↔ (∃ e, (s.caches i).entries.lookup k = some e ∧ e.expiresAt = x) ∨
      ∃ e, s.redis.lookup k = some e ∧ e.expiresAt = x := by
  simp [expiries]

/-- A promotion at once lengthens nothing. -/
theorem ClusterSound.get_expiries {s : Cluster ι} (hs : ClusterSound floor ceil s) {i : ι}
    {name : GoString} {qtype : UInt16} (hP : PromotesAtOnce floor ceil s (.get i name qtype))
    (j : ι) (k : GoString) {x : WithTop ℤ}
    (hx : x ∈ ((ClusterEvent.get i name qtype).apply s).expiries j k) :
    ∃ y ∈ s.expiries j k, x ≤ y := by
  rcases Cache.get_spec (s.caches i) s.redis s.now name qtype with
    ⟨e, -, hget⟩ | ⟨l2, e, m, hmiss, -, hlive, hunpack, hget⟩ | ⟨-, hget⟩
  · refine ⟨x, ?_, le_rfl⟩
    by_cases hj : j = i
    · subst hj
      simpa [Cluster.expiries, ClusterEvent.apply, hget] using hx
    · simpa [Cluster.expiries, ClusterEvent.apply, hget, hj] using hx
  · obtain ⟨h, hkey, hst⟩ := hs.redis _ e (Expiring.live_eq_some.1 hlive).1
    obtain rfl := Option.some.inj (hst.unpack.symm.trans hunpack)
    have hle := hP hmiss e h.msg hlive hunpack
    have hlookup := (Expiring.live_eq_some.1 hlive).1
    rw [(hs.caches i).set_eq, if_neg hst.answer, hst.pack] at hget
    by_cases hk : k = key name qtype
    · -- the promoted key: the new expiries are bounded by that of the L2 entry
      subst hk
      have hbound : ((s.now + extractTTL floor ceil h.msg : ℤ) : WithTop ℤ) ≤ e.expiresAt ∧
          e.expiresAt ∈ s.expiries j (key name qtype) :=
        ⟨hle, Cluster.mem_expiries.2 (.inr ⟨e, hlookup, rfl⟩)⟩
      rcases Cluster.mem_expiries.1 hx with ⟨e', he', rfl⟩ | ⟨e', he', rfl⟩
      · by_cases hj : j = i
        · subst hj
          simp only [ClusterEvent.apply, hget, Function.update_self, Finmap.lookup_insert,
            Option.some.injEq] at he'
          exact ⟨_, hbound.2, by rw [← he']; exact hbound.1⟩
        · simp only [ClusterEvent.apply, Function.update_of_ne hj] at he'
          exact ⟨_, Cluster.mem_expiries.2 (.inl ⟨e', he', rfl⟩), le_rfl⟩
      · simp only [ClusterEvent.apply, hget, Finmap.lookup_insert, Option.some.injEq] at he'
        exact ⟨_, hbound.2, by rw [← he']; exact hbound.1⟩
    · refine ⟨x, ?_, le_rfl⟩
      by_cases hj : j = i
      · subst hj
        simpa [Cluster.expiries, ClusterEvent.apply, hget, Finmap.lookup_insert_of_ne _ hk] using hx
      · simpa [Cluster.expiries, ClusterEvent.apply, hget, hj, Finmap.lookup_insert_of_ne _ hk]
          using hx
  · refine ⟨x, ?_, le_rfl⟩
    by_cases hj : j = i
    · subst hj
      simpa [Cluster.expiries, ClusterEvent.apply, hget] using hx
    · simpa [Cluster.expiries, ClusterEvent.apply, hget, hj] using hx

/-- After a late promotion the entry is still served when its time is over. -/
theorem ClusterSound.late_promotion_stale {s : Cluster ι} (hs : ClusterSound floor ceil s)
    {i : ι} {name : GoString} {qtype : UInt16}
    (hP : ¬ PromotesAtOnce floor ceil s (.get i name qtype)) :
    ∃ d, ¬ (run ClusterEvent.apply s
      [.get i name qtype, .tick d, .get i name qtype]).Fresh floor ceil := by
  simp only [PromotesAtOnce, not_forall, not_le] at hP
  obtain ⟨hmiss, e, m, hlive, hunpack, hlate⟩ := hP
  obtain ⟨hlookup, hnow⟩ := Expiring.live_eq_some.1 hlive
  obtain ⟨h, hkey, hst⟩ := hs.redis _ e hlookup
  obtain rfl := Option.some.inj (hst.unpack.symm.trans hunpack)
  have hget : ((s.caches i).get s.redis s.now name qtype).2.1.entries.lookup (key name qtype) =
      some ⟨h.msg, s.now + extractTTL floor ceil h.msg⟩ := by
    have hl2 : ((s.caches i).l2.bind fun l2 => l2.get s.redis s.now name qtype) = some h.msg := by
      simp [(hs.caches i).l2, RedisCache.get, hlive, hunpack]
    simp only [Cache.get, hmiss, hl2, (hs.caches i).set_eq, if_neg hst.answer,
      Finmap.lookup_insert]
  obtain ⟨exp, hexp⟩ : ∃ exp, exp = h.time + extractTTL floor ceil h.msg := ⟨_, rfl⟩
  have hentry := hst.expiresAt
  rw [← hexp] at hentry
  rw [hentry, WithTop.coe_lt_coe] at hnow hlate
  -- the second read happens at the time at which the entry should be gone
  refine ⟨(exp - s.now).toNat, fun hfresh => ?_⟩
  have htime : s.now + ((exp - s.now).toNat : ℤ) = exp := by omega
  obtain ⟨h', hmem, hkey', hmsg, -, hlt⟩ := hfresh ⟨key name qtype, h.msg, exp⟩ (by
    simp only [run_cons, run_nil, ClusterEvent.apply, Function.update_self, htime]
    refine List.mem_append_right _ ?_
    have hhit : Expiring.live CacheEntry.expiresAt
        ((s.caches i).get s.redis s.now name qtype).2.1.entries exp (key name qtype) =
          some ⟨h.msg, s.now + extractTTL floor ceil h.msg⟩ :=
      Expiring.live_eq_some.2 ⟨hget, hlate⟩
    rw [Cache.get, hhit]
    simp)
  have hlast := hst.last h' hmem (hkey'.trans hkey.symm) hmsg
  simp only at hlt
  omega

/-- **No read along a run, nor any later one, is stale exactly when every promotion along
the run happens in the instant in which the entry was written.** -/
theorem fresh_reads_iff (t : ℤ) (es : List (ClusterEvent ι)) :
    ReadsFresh floor ceil (Cluster.start floor ceil t) es ↔
      Along ClusterEvent.apply (PromotesAtOnce floor ceil) (Cluster.start floor ceil t) es := by
  constructor
  · intro h
    induction es using List.reverseRecOn with
    | nil => trivial
    | append_singleton es e ih =>
      have hes := ih fun pre hpre => h pre (hpre.trans (List.prefix_append es [e]))
      refine along_concat _ es e |>.2 ⟨hes, ?_⟩
      by_contra hP
      cases e with
      | get i name qtype =>
        obtain ⟨d, hd⟩ := (clusterSound_run t es hes).late_promotion_stale hP
        refine hd ?_
        have hread := h _ List.prefix_rfl d i name qtype
        simpa [run_append] using hread
      | _ => exact hP trivial
  · rintro h pre ⟨post, rfl⟩ d i name qtype
    have hs := clusterSound_run t pre (along_append _ pre post |>.1 h).1
    rw [run_append]
    have htick := hs.apply (e := .tick d) trivial
    intro r hr
    rcases List.mem_append.1 hr with hr | hr
    · exact htick.fresh r hr
    · obtain ⟨msg, hmsg, rfl⟩ := List.mem_map.1 hr
      exact htick.get_fresh i name qtype (Option.mem_toList.1 hmsg)

/-- **Staleness is bounded, and reading never lengthens the life of an entry, exactly when
every promotion happens in the instant in which the entry was written.** -/
theorem bounded_staleness_iff (t : ℤ) (es : List (ClusterEvent ι)) :
    (ReadsFresh floor ceil (Cluster.start floor ceil t) es ∧
        ReadsKeepExpiry (Cluster.start floor ceil t) es) ↔
      Along ClusterEvent.apply (PromotesAtOnce floor ceil) (Cluster.start floor ceil t) es := by
  refine ⟨fun h => (fresh_reads_iff t es).1 h.1, fun h => ⟨(fresh_reads_iff t es).2 h, ?_⟩⟩
  rintro pre i name qtype ⟨post, rfl⟩ j k x hx
  obtain ⟨hpre, hget⟩ := along_concat _ pre _ |>.1 (along_append _ _ post |>.1 h).1
  rw [run_concat] at hx
  exact (clusterSound_run t pre hpre).get_expiries hget j k hx

end Cluster

/-! ### A stale answer -/

/-- Cache 0 stores the response; cache 1 promotes it 59 seconds later, and serves it from L1
when its 60 seconds are over. -/
theorem promotion_serves_stale :
    letI := asciiTable
    letI := plainMiekg
    ¬ (run ClusterEvent.apply (Cluster.start 0 (3600 * second) 0 : Cluster ℕ)
      [.set 0 "a.com.".toList typeA ⟨shortLived, shortLived, rfl⟩, .tick 59000000000,
        .get 1 "a.com.".toList typeA, .tick 59000000000,
        .get 1 "a.com.".toList typeA]).Fresh 0 (3600 * second) := by
  intro h
  obtain ⟨x, hx, -, -, -, hlt⟩ :=
    h ⟨"a.com.|A".toList, shortLived, 118 * second⟩ (by decide +kernel)
  obtain rfl : x = ⟨"a.com.|A".toList, shortLived, 0⟩ := List.mem_singleton.1 hx
  revert hlt
  decide

end DnsFilter
