import DnsFilter.Cache.History

/-!
# Invalidation

`Invalidate` removes the keys with a prefix from L1.  It does not touch L2, and a key of another
name has the same prefix if the name goes on with `|`.

* `StoreEvent`: the calls of one process, and the writes of others to the Redis server;
* `reads_differ`: a `Get` that is answered from L2 gives the entry a new lifetime, by which it
  can be told from one that is answered from L1;
* `invalidate_exact_iff`: when an `Invalidate` removes the domain and nothing else.
-/

namespace DnsFilter

open EventRun GoString

section Invalidate

variable [Unicode] [Miekg]

/-- A name of the domain `d`: as given or as an FQDN, in any letter case. -/
def NameOf (d n : GoString) : Prop :=
  toLower n = toLower d ∨ toLower n = toLower (Miekg.fqdn d)

/-- What happens to a cache and to the Redis server behind it. -/
inductive StoreEvent
  | set (name : GoString) (qtype : UInt16) (response : Received)
  | get (name : GoString) (qtype : UInt16)
  | invalidate (name : GoString)
  | evict (late : ℕ)
  | tick (d : ℕ)
  /-- Another process with the same settings stores a response, in the server too. -/
  | peer (name : GoString) (qtype : UInt16) (response : Received)

namespace StoreEvent

def apply (s : CacheState) : StoreEvent → CacheState
  | set name qtype response => (CacheEvent.set name qtype (some response.msg)).apply s
  | get name qtype => (CacheEvent.get name qtype).apply s
  | invalidate name => (CacheEvent.invalidate name).apply s
  | evict late => (CacheEvent.evict late).apply s
  | tick d => (CacheEvent.tick d).apply s
  | peer name qtype response =>
      { s with redis := (s.cache.set s.redis s.now name qtype (some response.msg)).2 }

/-- The query handler, here or in another process, stores a response for the domain. -/
def SetsFor (d : GoString) : StoreEvent → Prop
  | set name _ _ => NameOf d name
  | peer name _ _ => NameOf d name
  | _ => False

end StoreEvent

namespace CacheState

/-- An empty cache with whole seconds as its settings, with or without an L2. -/
def startSeconds (client : RedisClient) (floor ceil : ℤ) (attached : Bool) (t : ℤ) : CacheState :=
  let c := Cache.new (floor * second) (ceil * second)
  ⟨t, if attached then c.setL2 ⟨client, floor * second, ceil * second⟩ else c, ∅, []⟩

/-- What a `Get` returns. -/
def read (s : CacheState) (name : GoString) (qtype : UInt16) : Option Msg :=
  (s.cache.get s.redis s.now name qtype).1

/-- The state after an `Invalidate`. -/
def invalidate (s : CacheState) (d : GoString) : CacheState := (CacheEvent.invalidate d).apply s

/-- Until something is stored for the domain, all its names are misses. -/
def ReadsNothing (s : CacheState) (d : GoString) : Prop :=
  ∀ es, (∀ e ∈ es, ¬ StoreEvent.SetsFor d e) → ∀ n qtype, NameOf d n →
    (run StoreEvent.apply (s.invalidate d) es).read n qtype = none

/-- The reads of all other names are those without the `Invalidate`. -/
def LeavesOthers (s : CacheState) (d : GoString) : Prop :=
  ∀ es n qtype, ¬ NameOf d n →
    (run StoreEvent.apply (s.invalidate d) es).read n qtype =
      (run StoreEvent.apply s es).read n qtype

/-- Exactly the names of the domain are live under the removed prefix, and L2 has none of
them. -/
structure InvalidateExact (s : CacheState) (d : GoString) : Prop where
  l1 : ∀ n qtype e,
    Expiring.live CacheEntry.expiresAt s.cache.entries s.now (key n qtype) = some e →
      (hasPrefix (key n qtype) (removedPrefix d) ↔ NameOf d n)
  l2 : s.cache.l2 ≠ none → ∀ n qtype, NameOf d n →
    Expiring.live RedisEntry.expiresAt s.redis s.now (key n qtype) = none

end CacheState

/-! ### Keys -/

theorem key_eq_iff {n n' : GoString} {qtype qtype' : UInt16} :
    key n qtype = key n' qtype' ↔
      toLower n = toLower n' ∧ Miekg.typeToString qtype = Miekg.typeToString qtype' := by
  simp only [key, List.append_assoc]
  exact append_sep_inj (Miekg.pipe_notMem_typeToString _) (Miekg.pipe_notMem_typeToString _)

theorem NameOf.of_key_eq {d n n' : GoString} {qtype qtype' : UInt16} (h : NameOf d n)
    (hk : key n qtype = key n' qtype') : NameOf d n' := by
  rwa [NameOf, ← (key_eq_iff.1 hk).1]

/-! ### Frames -/

namespace Cache

variable {c : Cache} {redis : Redis} {now : ℤ} {name : GoString} {qtype : UInt16} {msg : Msg}

/-- A `Set` changes the entries only, and these under its key only. -/
theorem set_frame {k : GoString} (hk : k ≠ key name qtype) :
    (c.set redis now name qtype (some msg)).1.entries.lookup k = c.entries.lookup k ∧
      (c.set redis now name qtype (some msg)).2.lookup k = redis.lookup k := by
  rw [set_spec]
  split_ifs
  · exact ⟨rfl, rfl⟩
  · refine ⟨Finmap.lookup_insert_of_ne _ hk, ?_⟩
    split
    · exact Finmap.lookup_insert_of_ne _ hk
    · rfl

theorem set_settings :
    (c.set redis now name qtype (some msg)).1.ttlFloor = c.ttlFloor ∧
      (c.set redis now name qtype (some msg)).1.ttlCeil = c.ttlCeil ∧
      (c.set redis now name qtype (some msg)).1.l2 = c.l2 := by
  rw [set_spec]
  split_ifs <;> exact ⟨rfl, rfl, rfl⟩

theorem get_frame {k : GoString} (hk : k ≠ key name qtype) :
    (c.get redis now name qtype).2.1.entries.lookup k = c.entries.lookup k ∧
      (c.get redis now name qtype).2.2.lookup k = redis.lookup k := by
  rcases get_spec c redis now name qtype with
    ⟨e, -, hget⟩ | ⟨l2, e, m, -, -, -, -, hget⟩ | ⟨-, hget⟩
  · rw [hget]
    exact ⟨rfl, rfl⟩
  · rw [hget]
    exact set_frame hk
  · rw [hget]
    exact ⟨rfl, rfl⟩

theorem get_settings :
    (c.get redis now name qtype).2.1.ttlFloor = c.ttlFloor ∧
      (c.get redis now name qtype).2.1.ttlCeil = c.ttlCeil ∧
      (c.get redis now name qtype).2.1.l2 = c.l2 := by
  rcases get_spec c redis now name qtype with
    ⟨e, -, hget⟩ | ⟨l2, e, m, -, -, -, -, hget⟩ | ⟨-, hget⟩
  · rw [hget]
    exact ⟨rfl, rfl, rfl⟩
  · rw [hget]
    exact set_settings
  · rw [hget]
    exact ⟨rfl, rfl, rfl⟩

end Cache

/-! ### What a read says -/

namespace CacheState

variable {s s' : CacheState} {n : GoString} {qtype : UInt16}

theorem read_of_live {e : CacheEntry}
    (h : Expiring.live CacheEntry.expiresAt s.cache.entries s.now (key n qtype) = some e) :
    s.read n qtype = some e.msg := by
  rw [read, Cache.get_of_live h]

theorem read_of_dead
    (h : Expiring.live CacheEntry.expiresAt s.cache.entries s.now (key n qtype) = none)
    (hr : s.cache.l2 ≠ none →
      Expiring.live RedisEntry.expiresAt s.redis s.now (key n qtype) = none) :
    s.read n qtype = none := by
  rcases Cache.get_spec s.cache s.redis s.now n qtype with
    ⟨e, he, -⟩ | ⟨l2, e, m, -, hl2, he, -⟩ | ⟨-, hget⟩
  · rw [h] at he
    cases he
  · rw [hr (by simp [hl2])] at he
    cases he
  · rw [read, hget]

/-! ### Lifetimes -/

/-- Whatever is stored has answers, and lives no longer than if it were stored now; in L2 this
is so if it lives at all. -/
structure Timely (floor ceil : ℤ) (s : CacheState) : Prop where
  whole : second ∣ floor ∧ second ∣ ceil
  ttlFloor : s.cache.ttlFloor = floor
  ttlCeil : s.cache.ttlCeil = ceil
  l2 : ∀ l2, s.cache.l2 = some l2 → l2.ttlFloor = floor ∧ l2.ttlCeil = ceil
  entries : ∀ k e, s.cache.entries.lookup k = some e →
    e.msg.answer ≠ [] ∧ e.expiresAt ≤ s.now + extractTTL floor ceil e.msg
  redis : ∀ k e, s.redis.lookup k = some e → ∃ msg, Miekg.unpack e.data = some msg ∧
    msg.answer ≠ [] ∧ (0 < extractTTL floor ceil msg →
      e.expiresAt ≤ (s.now + extractTTL floor ceil msg : ℤ))

variable {floor ceil : ℤ}

omit [Unicode] [Miekg] in
/-- Between whole seconds, a lifetime is one of whole seconds. -/
theorem second_dvd_extractTTL (hwhole : second ∣ floor ∧ second ∣ ceil) (msg : Msg) :
    second ∣ extractTTL floor ceil msg := by
  unfold extractTTL clampTTL
  dsimp only
  split_ifs
  · exact hwhole.2
  · exact hwhole.1
  · exact hwhole.2
  · exact Dvd.intro_left _ rfl

omit [Unicode] in
theorem Timely.extractTTL_eq (h : s.Timely floor ceil) (msg : Msg) :
    s.cache.extractTTL msg = extractTTL floor ceil msg := by
  rw [Cache.extractTTL, h.ttlFloor, h.ttlCeil]

/-- What a `Set` leaves under its key. -/
theorem Timely.set_self (h : s.Timely floor ceil) (name : GoString) (qtype : UInt16)
    (m : Received) (hans : m.msg.answer ≠ []) :
    (s.cache.set s.redis s.now name qtype (some m.msg)).1.entries.lookup (key name qtype) =
        some ⟨m.msg, s.now + extractTTL floor ceil m.msg⟩ ∧
      ((s.cache.set s.redis s.now name qtype (some m.msg)).2.lookup (key name qtype) =
          s.redis.lookup (key name qtype) ∨
        ∃ data exp, Miekg.unpack data = some m.msg ∧
          (0 < extractTTL floor ceil m.msg →
            exp = ((s.now + extractTTL floor ceil m.msg : ℤ) : WithTop ℤ)) ∧
          (s.cache.set s.redis s.now name qtype (some m.msg)).2.lookup (key name qtype) =
            some ⟨data, exp⟩) := by
  rw [Cache.set_spec, if_neg hans, h.extractTTL_eq]
  refine ⟨Finmap.lookup_insert _, ?_⟩
  cases hl2 : s.cache.l2 with
  | none => exact .inl rfl
  | some l2 =>
    cases hpack : Miekg.pack m.msg with
    | none => exact .inl rfl
    | some data =>
      refine .inr ⟨data, _, Miekg.unpack_pack m.unpacks hpack, fun hpos => ?_,
        Finmap.lookup_insert _⟩
      have hclamp : clampTTL l2.ttlFloor l2.ttlCeil (extractTTL floor ceil m.msg) =
          extractTTL floor ceil m.msg := by
        rw [(h.l2 l2 hl2).1, (h.l2 l2 hl2).2]
        exact clampTTL_clampTTL ..
      rw [RedisCache.expiry, hclamp]
      exact l2.client.expiry_seconds _ _ _ hpos (second_dvd_extractTTL h.whole m.msg)

theorem Timely.set (h : s.Timely floor ceil) (name : GoString) (qtype : UInt16) (m : Received) :
    let r := s.cache.set s.redis s.now name qtype (some m.msg)
    Timely floor ceil { s with cache := r.1, redis := r.2 } := by
  by_cases hans : m.msg.answer = []
  · rw [Cache.set_spec, if_pos hans]
    exact h
  · obtain ⟨hfloor, hceil, hl2⟩ :=
      @Cache.set_settings _ _ s.cache s.redis s.now name qtype m.msg
    obtain ⟨hself, hrself⟩ := h.set_self name qtype m hans
    refine ⟨h.whole, hfloor.trans h.ttlFloor, hceil.trans h.ttlCeil,
      fun l2 hsome => h.l2 l2 (hl2 ▸ hsome), fun k e he => ?_, fun k e he => ?_⟩
    · by_cases hk : k = key name qtype
      · subst hk
        obtain rfl := Option.some.inj (hself.symm.trans he)
        exact ⟨hans, le_rfl⟩
      · exact h.entries k e ((Cache.set_frame hk).1 ▸ he)
    · by_cases hk : k = key name qtype
      · subst hk
        rcases hrself with hsame | ⟨data, exp, hunpack, hexp, hnew⟩
        · exact h.redis _ e (hsame ▸ he)
        · obtain rfl := Option.some.inj (hnew.symm.trans he)
          exact ⟨m.msg, hunpack, hans, fun hpos => (hexp hpos).le⟩
      · exact h.redis k e ((Cache.set_frame hk).2 ▸ he)

theorem Timely.apply (h : s.Timely floor ceil) (e : StoreEvent) :
    (e.apply s).Timely floor ceil := by
  cases e with
  | set name qtype m =>
    obtain ⟨hwhole, hfloor, hceil, hl2, hentries, hredis⟩ := h.set name qtype m
    exact ⟨hwhole, hfloor, hceil, hl2, hentries, hredis⟩
  | get name qtype =>
    simp only [StoreEvent.apply, CacheEvent.apply]
    rcases Cache.get_spec s.cache s.redis s.now name qtype with
      ⟨e, -, hget⟩ | ⟨l2, e, m, -, -, -, hunpack, hget⟩ | ⟨-, hget⟩
    · rw [hget]
      exact ⟨h.whole, h.ttlFloor, h.ttlCeil, h.l2, h.entries, h.redis⟩
    · rw [hget]
      obtain ⟨hwhole, hfloor, hceil, hl2, hentries, hredis⟩ := h.set name qtype ⟨m, e.data, hunpack⟩
      exact ⟨hwhole, hfloor, hceil, hl2, hentries, hredis⟩
    · rw [hget]
      exact ⟨h.whole, h.ttlFloor, h.ttlCeil, h.l2, h.entries, h.redis⟩
  | invalidate name =>
    refine ⟨h.whole, h.ttlFloor, h.ttlCeil, h.l2, fun k e he => h.entries k e ?_, h.redis⟩
    simp only [StoreEvent.apply, CacheEvent.apply, Cache.invalidate, Finmap.lookup_retain,
      Option.filter_eq_some_iff] at he
    exact he.1
  | evict late =>
    exact ⟨h.whole, h.ttlFloor, h.ttlCeil, h.l2,
      fun k e he => h.entries k e (Expiring.lookup_of_lookup_sweep he), h.redis⟩
  | tick d =>
    have hnow : ((StoreEvent.tick d).apply s).now = s.now + d := rfl
    refine ⟨h.whole, h.ttlFloor, h.ttlCeil, h.l2, fun k e he => ?_, fun k e he => ?_⟩
    · obtain ⟨hans, hexp⟩ := h.entries k e he
      exact ⟨hans, by omega⟩
    · obtain ⟨msg, hunpack, hans, hexp⟩ := h.redis k e he
      refine ⟨msg, hunpack, hans, fun hpos => (hexp hpos).trans (WithTop.coe_le_coe.2 ?_)⟩
      omega
  | peer name qtype m =>
    have hset := h.set name qtype m
    exact ⟨h.whole, h.ttlFloor, h.ttlCeil, h.l2, h.entries, hset.redis⟩

theorem timely_run (client : RedisClient) (floor ceil : ℤ) (attached : Bool) (t : ℤ)
    (es : List StoreEvent) :
    (run StoreEvent.apply (startSeconds client floor ceil attached t) es).Timely
      (floor * second) (ceil * second) := by
  refine run_invariant _ (fun _ e hs => hs.apply e) ?_ es
  have hwhole : second ∣ floor * second ∧ second ∣ ceil * second :=
    ⟨Dvd.intro_left _ rfl, Dvd.intro_left _ rfl⟩
  cases attached
  · exact ⟨hwhole, rfl, rfl, by simp [startSeconds, Cache.new], by simp [startSeconds, Cache.new],
      by simp [startSeconds]⟩
  · exact ⟨hwhole, rfl, rfl, by simp [startSeconds, Cache.setL2],
      by simp [startSeconds, Cache.setL2, Cache.new], by simp [startSeconds]⟩

/-! ### The names of the domain -/

variable {d : GoString}

/-- No name of the domain is seen in either level. -/
structure Gone (d : GoString) (s : CacheState) : Prop where
  entries : ∀ n qtype, NameOf d n →
    Expiring.live CacheEntry.expiresAt s.cache.entries s.now (key n qtype) = none
  redis : s.cache.l2 ≠ none → ∀ n qtype, NameOf d n →
    Expiring.live RedisEntry.expiresAt s.redis s.now (key n qtype) = none

theorem Gone.read (h : Gone d s) (hn : NameOf d n) : s.read n qtype = none :=
  read_of_dead (h.entries n qtype hn) fun hl2 => h.redis hl2 n qtype hn

/-- Storing under another name. -/
theorem Gone.set (h : Gone d s) {name : GoString} (hname : ¬ NameOf d name) (qtype : UInt16)
    (msg : Msg) :
    let r := s.cache.set s.redis s.now name qtype (some msg)
    Gone d { s with cache := r.1, redis := r.2 } := by
  have hne : ∀ n qtype', NameOf d n → key n qtype' ≠ key name qtype :=
    fun n qtype' hn hk => hname (hn.of_key_eq hk)
  refine ⟨fun n qtype' hn => ?_, fun hl2 n qtype' hn => ?_⟩
  · rw [← h.entries n qtype' hn]
    exact Expiring.live_congr (Cache.set_frame (hne n qtype' hn)).1
  · rw [← h.redis (Cache.set_settings.2.2 ▸ hl2) n qtype' hn]
    exact Expiring.live_congr (Cache.set_frame (hne n qtype' hn)).2

theorem Gone.apply (h : Gone d s) {e : StoreEvent} (he : ¬ e.SetsFor d) : Gone d (e.apply s) := by
  cases e with
  | set name qtype m =>
    obtain ⟨hentries, hredis⟩ := h.set he qtype m.msg
    exact ⟨hentries, hredis⟩
  | get name qtype =>
    by_cases hname : NameOf d name
    · have hmiss : s.cache.get s.redis s.now name qtype =
          (none, { s.cache with misses := s.cache.misses + 1 }, s.redis) := by
        have hread : (s.cache.get s.redis s.now name qtype).1 = none := h.read hname
        rcases Cache.get_spec s.cache s.redis s.now name qtype with
          ⟨e, -, hget⟩ | ⟨l2, e, m, -, -, -, -, hget⟩ | ⟨-, hget⟩
        · rw [hget] at hread
          cases hread
        · rw [hget] at hread
          cases hread
        · exact hget
      simp only [StoreEvent.apply, CacheEvent.apply, hmiss]
      exact ⟨h.entries, h.redis⟩
    · have hne : ∀ n qtype', NameOf d n → key n qtype' ≠ key name qtype :=
        fun n qtype' hn hk => hname (hn.of_key_eq hk)
      refine ⟨fun n qtype' hn => ?_, fun hl2 n qtype' hn => ?_⟩
      · rw [← h.entries n qtype' hn]
        exact Expiring.live_congr (Cache.get_frame (hne n qtype' hn)).1
      · have hl2' : s.cache.l2 ≠ none := fun hnone =>
          hl2 (Cache.get_settings.2.2.trans hnone)
        rw [← h.redis hl2' n qtype' hn]
        exact Expiring.live_congr (Cache.get_frame (hne n qtype' hn)).2
  | invalidate name =>
    refine ⟨fun n qtype hn => ?_, h.redis⟩
    refine (Expiring.live_retain (fun k _ => !hasPrefix k (removedPrefix name)) s.cache.entries
      s.now (key n qtype)).trans ?_
    rw [h.entries n qtype hn]
    rfl
  | evict late =>
    refine ⟨fun n qtype hn => ?_, h.redis⟩
    rw [← h.entries n qtype hn]
    exact Expiring.live_sweep _ (sub_le_self _ (Int.natCast_nonneg late)) _
  | tick d =>
    have hnow : s.now ≤ ((StoreEvent.tick d).apply s).now := CacheEvent.now_le s (.tick d)
    exact ⟨fun n qtype hn => Expiring.live_eq_none_mono (h.entries n qtype hn) hnow,
      fun hl2 n qtype hn =>
        Expiring.live_eq_none_mono (h.redis hl2 n qtype hn) (WithTop.coe_le_coe.2 hnow)⟩
  | peer name qtype m =>
    obtain ⟨-, hredis⟩ := h.set he qtype m.msg
    exact ⟨h.entries, fun hl2 => hredis fun hnone => hl2 (Cache.set_settings.2.2.symm.trans hnone)⟩

/-- What is seen after an `Invalidate`. -/
theorem live_invalidate (s : CacheState) (d k : GoString) (t : ℤ) :
    Expiring.live CacheEntry.expiresAt (s.invalidate d).cache.entries t k =
      if hasPrefix k (removedPrefix d) then none
      else Expiring.live CacheEntry.expiresAt s.cache.entries t k := by
  have hlive : Expiring.live CacheEntry.expiresAt (s.invalidate d).cache.entries t k =
      (Expiring.live CacheEntry.expiresAt s.cache.entries t k).filter
        fun _ => !hasPrefix k (removedPrefix d) := Expiring.live_retain ..
  rw [hlive]
  by_cases hp : hasPrefix k (removedPrefix d)
  · simp [hp]
  · cases Expiring.live CacheEntry.expiresAt s.cache.entries t k <;> simp [hp]

theorem read_eq_none_iff (h : s.Timely floor ceil) :
    s.read n qtype = none ↔
      Expiring.live CacheEntry.expiresAt s.cache.entries s.now (key n qtype) = none ∧
        (s.cache.l2 ≠ none →
          Expiring.live RedisEntry.expiresAt s.redis s.now (key n qtype) = none) := by
  constructor
  · intro hread
    have hentries :
        Expiring.live CacheEntry.expiresAt s.cache.entries s.now (key n qtype) = none := by
      refine Option.eq_none_iff_forall_ne_some.2 fun e he => ?_
      rw [read_of_live he] at hread
      cases hread
    refine ⟨hentries, fun hl2 => Option.eq_none_iff_forall_ne_some.2 fun e he => ?_⟩
    obtain ⟨l2, hsome⟩ := Option.ne_none_iff_exists'.1 hl2
    obtain ⟨msg, hunpack, -⟩ := h.redis _ e (Expiring.live_eq_some.1 he).1
    simp [read, Cache.get, hentries, hsome, RedisCache.get, he, hunpack] at hread
  · rintro ⟨hentries, hredis⟩
    exact read_of_dead hentries hredis

/-- Everything that is said of the reads of the domain shows at once. -/
theorem readsNothing_iff (h : s.Timely floor ceil) :
    s.ReadsNothing d ↔ Gone d (s.invalidate d) := by
  have hinv : (s.invalidate d).Timely floor ceil := h.apply (.invalidate d)
  constructor
  · intro hreads
    have hnow : ∀ n qtype, NameOf d n → (s.invalidate d).read n qtype = none :=
      fun n qtype hn => hreads [] (by simp) n qtype hn
    exact ⟨fun n qtype hn => ((read_eq_none_iff hinv).1 (hnow n qtype hn)).1,
      fun hl2 n qtype hn => ((read_eq_none_iff hinv).1 (hnow n qtype hn)).2 hl2⟩
  · intro hgone es hes n qtype hn
    have hrun : Gone d (run StoreEvent.apply (s.invalidate d) es) :=
      along_invariant (fun _ s => Gone d s) hgone (fun _ _ hs he => hs.apply he) es
        ((along_const _ es).2 hes)
    exact hrun.read hn

/-! ### Other names -/

/-- Two caches that no read of another name will tell apart. -/
structure SameElse (d : GoString) (s s' : CacheState) : Prop where
  now : s.now = s'.now
  ttlFloor : s.cache.ttlFloor = s'.cache.ttlFloor
  ttlCeil : s.cache.ttlCeil = s'.cache.ttlCeil
  l2 : s.cache.l2 = s'.cache.l2
  entries : ∀ n qtype, ¬ NameOf d n → ∀ t, s.now ≤ t →
    Expiring.live CacheEntry.expiresAt s.cache.entries t (key n qtype) =
      Expiring.live CacheEntry.expiresAt s'.cache.entries t (key n qtype)
  redis : ∀ n qtype, ¬ NameOf d n →
    s.redis.lookup (key n qtype) = s'.redis.lookup (key n qtype)

theorem SameElse.set (h : SameElse d s s') (name : GoString) (qtype : UInt16) (msg : Msg) :
    let r := s.cache.set s.redis s.now name qtype (some msg)
    let r' := s'.cache.set s'.redis s'.now name qtype (some msg)
    SameElse d { s with cache := r.1, redis := r.2 } { s' with cache := r'.1, redis := r'.2 } := by
  have httl : s.cache.extractTTL msg = s'.cache.extractTTL msg := by
    rw [Cache.extractTTL, Cache.extractTTL, h.ttlFloor, h.ttlCeil]
  have hexpiry : ¬ NameOf d name → ∀ l2 : RedisCache,
      l2.expiry s.redis s.now (key name qtype) (s.cache.extractTTL msg) =
        l2.expiry s'.redis s.now (key name qtype) (s.cache.extractTTL msg) := by
    intro hn l2
    rw [RedisCache.expiry, RedisCache.expiry, Expiring.live_congr (h.redis name qtype hn)]
  simp only [Cache.set_spec, ← h.now, ← h.l2, ← httl]
  split_ifs
  · exact ⟨rfl, h.ttlFloor, h.ttlCeil, h.l2, h.entries, h.redis⟩
  · refine ⟨rfl, h.ttlFloor, h.ttlCeil, rfl, fun n qtype' hn t ht => ?_, fun n qtype' hn => ?_⟩
    · by_cases hk : key n qtype' = key name qtype
      · simp [hk]
      · rw [Expiring.live_insert_of_ne _ _ _ hk, Expiring.live_insert_of_ne _ _ _ hk]
        exact h.entries n qtype' hn t ht
    · split
      · by_cases hk : key n qtype' = key name qtype
        · rw [hk, Finmap.lookup_insert, Finmap.lookup_insert,
            hexpiry fun hname => hn (hname.of_key_eq hk.symm)]
        · rw [Finmap.lookup_insert_of_ne _ hk, Finmap.lookup_insert_of_ne _ hk]
          exact h.redis n qtype' hn
      · exact h.redis n qtype' hn

/-- A `Get` of another name ends in the same way on both sides. -/
theorem SameElse.get_of_not (h : SameElse d s s') {name : GoString} (hname : ¬ NameOf d name)
    (qtype : UInt16) :
    s.read name qtype = s'.read name qtype ∧
      SameElse d ((StoreEvent.get name qtype).apply s) ((StoreEvent.get name qtype).apply s') := by
  have hl1 := h.entries name qtype hname s.now le_rfl
  have hl2 : (s.cache.l2.bind fun l2 => l2.get s.redis s.now name qtype) =
      s'.cache.l2.bind fun l2 => l2.get s'.redis s'.now name qtype := by
    simp only [← h.l2, ← h.now, RedisCache.get, Expiring.live_congr (h.redis name qtype hname)]
  rw [h.now] at hl1
  simp only [read, StoreEvent.apply, CacheEvent.apply]
  cases hlive : Expiring.live CacheEntry.expiresAt s.cache.entries s.now (key name qtype) with
  | some e =>
    have hlive' := h.now ▸ hlive
    rw [Cache.get_of_live hlive, Cache.get_of_live (hl1.symm.trans hlive')]
    exact ⟨rfl, h.now, h.ttlFloor, h.ttlCeil, h.l2, h.entries, h.redis⟩
  | none =>
    have hlive' := h.now ▸ hlive
    cases hmsg : s.cache.l2.bind fun l2 => l2.get s.redis s.now name qtype with
    | none =>
      rw [Cache.get_of_miss hlive hmsg, Cache.get_of_miss (hl1.symm.trans hlive') (hl2 ▸ hmsg)]
      exact ⟨rfl, h.now, h.ttlFloor, h.ttlCeil, h.l2, h.entries, h.redis⟩
    | some msg =>
      rw [Cache.get_of_l2 hlive hmsg, Cache.get_of_l2 (hl1.symm.trans hlive') (hl2 ▸ hmsg)]
      obtain ⟨hnow, hfloor, hceil, hsame, hentries, hredis⟩ := h.set name qtype msg
      exact ⟨rfl, hnow, hfloor, hceil, hsame, hentries, hredis⟩

/-- A `Get` of a name of the domain concerns no other name. -/
theorem SameElse.get_of_nameOf (h : SameElse d s s') {name : GoString} (hname : NameOf d name)
    (qtype : UInt16) :
    SameElse d ((StoreEvent.get name qtype).apply s) ((StoreEvent.get name qtype).apply s') := by
  have hne : ∀ n qtype', ¬ NameOf d n → key n qtype' ≠ key name qtype :=
    fun n qtype' hn hk => hn (hname.of_key_eq hk.symm)
  have hset := @Cache.get_settings _ _ s.cache s.redis s.now name qtype
  have hset' := @Cache.get_settings _ _ s'.cache s'.redis s'.now name qtype
  refine ⟨h.now, hset.1.trans (h.ttlFloor.trans hset'.1.symm),
    hset.2.1.trans (h.ttlCeil.trans hset'.2.1.symm), hset.2.2.trans (h.l2.trans hset'.2.2.symm),
    fun n qtype' hn t ht => ?_, fun n qtype' hn => ?_⟩
  · have hframe := (@Cache.get_frame _ _ s.cache s.redis s.now _ _ _ (hne n qtype' hn)).1
    have hframe' := (@Cache.get_frame _ _ s'.cache s'.redis s'.now _ _ _ (hne n qtype' hn)).1
    exact (Expiring.live_congr hframe).trans
      ((h.entries n qtype' hn t ht).trans (Expiring.live_congr hframe').symm)
  · have hframe := (@Cache.get_frame _ _ s.cache s.redis s.now _ _ _ (hne n qtype' hn)).2
    have hframe' := (@Cache.get_frame _ _ s'.cache s'.redis s'.now _ _ _ (hne n qtype' hn)).2
    exact hframe.trans ((h.redis n qtype' hn).trans hframe'.symm)

theorem SameElse.apply (h : SameElse d s s') (e : StoreEvent) :
    SameElse d (e.apply s) (e.apply s') := by
  cases e with
  | set name qtype m =>
    obtain ⟨hnow, hfloor, hceil, hl2, hentries, hredis⟩ := h.set name qtype m.msg
    exact ⟨hnow, hfloor, hceil, hl2, hentries, hredis⟩
  | get name qtype =>
    by_cases hname : NameOf d name
    · exact h.get_of_nameOf hname qtype
    · exact (h.get_of_not hname qtype).2
  | invalidate name =>
    refine ⟨h.now, h.ttlFloor, h.ttlCeil, h.l2, fun n qtype hn t ht => ?_, h.redis⟩
    have hlive := h.entries n qtype hn t ht
    have heq : ∀ s : CacheState, (StoreEvent.invalidate name).apply s = s.invalidate name :=
      fun _ => rfl
    rw [heq, heq, live_invalidate, live_invalidate, hlive]
  | evict late =>
    have hlate : s.now - late ≤ s.now := sub_le_self _ (Int.natCast_nonneg late)
    refine ⟨h.now, h.ttlFloor, h.ttlCeil, h.l2, fun n qtype hn t ht => ?_, h.redis⟩
    have hlate' : s'.now - late ≤ t := h.now ▸ hlate.trans ht
    exact (Expiring.live_sweep s.cache.entries (hlate.trans ht) (key n qtype)).trans
      ((h.entries n qtype hn t ht).trans
        (Expiring.live_sweep s'.cache.entries hlate' (key n qtype)).symm)
  | tick d =>
    refine ⟨congrArg (· + (d : ℤ)) h.now, h.ttlFloor, h.ttlCeil, h.l2, fun n qtype hn t ht => ?_,
      h.redis⟩
    exact h.entries n qtype hn t ((CacheEvent.now_le s (.tick d)).trans ht)
  | peer name qtype m =>
    have hset := h.set name qtype m.msg
    exact ⟨h.now, h.ttlFloor, h.ttlCeil, h.l2, h.entries, hset.redis⟩

theorem SameElse.run (h : SameElse d s s') (es : List StoreEvent) :
    SameElse d (run StoreEvent.apply s es) (run StoreEvent.apply s' es) := by
  induction es generalizing s s' with
  | nil => exact h
  | cons e es ih => exact ih (h.apply e)

/-- If no other name is live under the removed prefix, the other reads stay. -/
theorem sameElse_invalidate (h : ∀ n qtype, ¬ NameOf d n →
      hasPrefix (key n qtype) (removedPrefix d) →
        Expiring.live CacheEntry.expiresAt s.cache.entries s.now (key n qtype) = none) :
    SameElse d (s.invalidate d) s := by
  refine ⟨rfl, rfl, rfl, rfl, fun n qtype hn t ht => ?_, fun _ _ _ => rfl⟩
  rw [live_invalidate]
  split_ifs with hp
  · exact (Expiring.live_eq_none_mono (h n qtype hn hp) ht).symm
  · rfl

/-! ### Promotions show -/

/-- The entry that L2 has under a key, which will expire. -/
structure InL2 (s : CacheState) (n : GoString) (qtype : UInt16) (msg : Msg) (expiresAt : ℤ) :
    Prop where
  dead : Expiring.live CacheEntry.expiresAt s.cache.entries s.now (key n qtype) = none
  entry : ∃ l2 data, s.cache.l2 = some l2 ∧ Miekg.unpack data = some msg ∧
    s.redis.lookup (key n qtype) = some ⟨data, (expiresAt : WithTop ℤ)⟩
  later : s.now < expiresAt

theorem InL2.dead_of_le {msg : Msg} {exp t : ℤ} (h : InL2 s n qtype msg exp) (ht : exp ≤ t) :
    Expiring.live RedisEntry.expiresAt s.redis t (key n qtype) = none := by
  obtain ⟨l2, data, -, -, hlookup⟩ := h.entry
  exact Expiring.live_eq_none_of_le hlookup (WithTop.coe_le_coe.2 ht)

theorem InL2.le {msg : Msg} {exp : ℤ} (h : InL2 s n qtype msg exp) (hs : s.Timely floor ceil)
    (hpos : 0 < extractTTL floor ceil msg) :
    msg.answer ≠ [] ∧ exp ≤ s.now + extractTTL floor ceil msg := by
  obtain ⟨l2, data, -, hunpack, hlookup⟩ := h.entry
  obtain ⟨msg', hmsg', hans, hexp⟩ := hs.redis _ _ hlookup
  obtain rfl := Option.some.inj (hunpack.symm.trans hmsg')
  exact ⟨hans, WithTop.coe_le_coe.1 (hexp hpos)⟩

/-- What is read and is not in L1 is in L2. -/
theorem exists_inL2 {msg : Msg} (hs : s.Timely floor ceil)
    (hpos : 0 < extractTTL floor ceil msg)
    (hdead : Expiring.live CacheEntry.expiresAt s.cache.entries s.now (key n qtype) = none)
    (hread : s.read n qtype = some msg) : ∃ exp, InL2 s n qtype msg exp := by
  rcases Cache.get_spec s.cache s.redis s.now n qtype with
    ⟨e, he, -⟩ | ⟨l2, e, m, -, hl2, he, hunpack, hget⟩ | ⟨-, hget⟩
  · rw [hdead] at he
    cases he
  · rw [read, hget] at hread
    obtain rfl := Option.some.inj hread
    obtain ⟨hlookup, hlater⟩ := Expiring.live_eq_some.1 he
    obtain ⟨data, exp⟩ := e
    obtain ⟨msg, hmsg, -, hle⟩ := hs.redis _ _ hlookup
    obtain rfl := Option.some.inj (hmsg.symm.trans hunpack)
    obtain ⟨exp, rfl, -⟩ := WithTop.le_coe_iff.1 (hle hpos)
    exact ⟨exp, hdead, ⟨l2, data, hl2, hunpack, hlookup⟩, WithTop.coe_lt_coe.1 hlater⟩
  · rw [read, hget] at hread
    cases hread

/-- A `Get` that is answered from L2 gives the entry a new lifetime. -/
theorem InL2.get {msg : Msg} {exp : ℤ} (h : InL2 s n qtype msg exp) (hs : s.Timely floor ceil)
    (hpos : 0 < extractTTL floor ceil msg) :
    let s' := (StoreEvent.get n qtype).apply s
    s'.cache.entries.lookup (key n qtype) = some ⟨msg, s.now + extractTTL floor ceil msg⟩ ∧
      ∀ t : ℤ, exp ≤ t → s.now + extractTTL floor ceil msg ≤ t →
        Expiring.live RedisEntry.expiresAt s'.redis t (key n qtype) = none := by
  intro s'
  obtain ⟨hans, -⟩ := h.le hs hpos
  obtain ⟨hdead, ⟨l2, data, hl2, hunpack, hlookup⟩, hlater⟩ := h
  have hlive : Expiring.live RedisEntry.expiresAt s.redis s.now (key n qtype) = some ⟨data, exp⟩ :=
    Expiring.live_eq_some.2 ⟨hlookup, WithTop.coe_lt_coe.2 hlater⟩
  have hread : (s.cache.l2.bind fun l2 => l2.get s.redis s.now n qtype) = some msg := by
    simp [hl2, RedisCache.get, hlive, hunpack]
  have hget := Cache.get_of_l2 hdead hread
  obtain ⟨hself, hredis⟩ := hs.set_self n qtype ⟨msg, data, hunpack⟩ hans
  simp only [s', StoreEvent.apply, CacheEvent.apply, hget]
  refine ⟨hself, fun t hexp hnew => ?_⟩
  rcases hredis with hsame | ⟨data', exp', -, hexp', hother⟩
  · exact Expiring.live_eq_none_of_le (hsame.trans hlookup) (WithTop.coe_le_coe.2 hexp)
  · refine Expiring.live_eq_none_of_le hother ?_
    rw [hexp' hpos]
    exact WithTop.coe_le_coe.2 hnew

/-- Two caches, one with an entry in L1 and one with an entry in L2 only, are told apart by a
`Get` and another one after the first has expired in both levels. -/
theorem reads_differ {e : CacheEntry} {msg : Msg} {exp T : ℤ} (hs' : s'.Timely floor ceil)
    (hpos : 0 < extractTTL floor ceil msg)
    (hnow : s.now = s'.now) (hs : s.cache.entries.lookup (key n qtype) = some e)
    (hlater : s.now < e.expiresAt) (hexp : e.expiresAt ≤ T)
    (hr : Expiring.live RedisEntry.expiresAt s.redis T (key n qtype) = none)
    (hin : InL2 s' n qtype msg exp) (hT : T < s.now + extractTTL floor ceil msg) :
    (run StoreEvent.apply s' [.get n qtype, .tick (T - s.now).toNat]).read n qtype ≠
      (run StoreEvent.apply s [.get n qtype, .tick (T - s.now).toNat]).read n qtype := by
  have htick : s.now + (T - s.now).toNat = T := by omega
  have hlive : Expiring.live CacheEntry.expiresAt s.cache.entries s.now (key n qtype) = some e :=
    Expiring.live_eq_some.2 ⟨hs, hlater⟩
  have hleft : (run StoreEvent.apply s [.get n qtype, .tick (T - s.now).toNat]).read n qtype =
      none := by
    simp only [run_cons, run_nil, StoreEvent.apply, CacheEvent.apply, Cache.get_of_live hlive]
    simp only [htick]
    exact read_of_dead (Expiring.live_eq_none_of_le hs hexp) fun _ => hr
  obtain ⟨hnew, -⟩ := hin.get hs' hpos
  have hright : (run StoreEvent.apply s' [.get n qtype, .tick (T - s.now).toNat]).read n qtype =
      some msg := by
    refine read_of_live (e := ⟨msg, s'.now + extractTTL floor ceil msg⟩)
      (Expiring.live_eq_some.2 ⟨hnew, ?_⟩)
    have hT' : (run StoreEvent.apply s' [.get n qtype, .tick (T - s.now).toNat]).now = T := by
      show s'.now + (T - s.now).toNat = T
      rw [← hnow, htick]
    rw [hT', ← hnow]
    exact hT
  rw [hleft, hright]
  simp

/-- If the reads of the other names stay, none of them was live under the removed prefix. -/
theorem LeavesOthers.live_eq_none (h : s.LeavesOthers d)
    (hs : s.Timely floor ceil) (hn : ¬ NameOf d n)
    (hp : hasPrefix (key n qtype) (removedPrefix d)) :
    Expiring.live CacheEntry.expiresAt s.cache.entries s.now (key n qtype) = none := by
  refine Option.eq_none_iff_forall_ne_some.2 fun e he => ?_
  have hs' : (s.invalidate d).Timely floor ceil := hs.apply (.invalidate d)
  have hgone : ∀ t, Expiring.live CacheEntry.expiresAt (s.invalidate d).cache.entries t
      (key n qtype) = none := fun t => by rw [live_invalidate, if_pos hp]
  obtain ⟨hlookup, hlater⟩ := Expiring.live_eq_some.1 he
  have hle := (hs.entries _ e hlookup).2
  have hpos : 0 < extractTTL floor ceil e.msg := by omega
  -- right after the `Invalidate` the message must be found in L2
  obtain ⟨exp, hin⟩ : ∃ exp, InL2 (s.invalidate d) n qtype e.msg exp :=
    exists_inL2 hs' hpos (hgone _) ((h [] n qtype hn).trans (read_of_live he))
  have hlater' : s.now < exp := hin.later
  have hle' : exp ≤ s.now + extractTTL floor ceil e.msg := (hin.le hs' hpos).2
  have hsecond : 2 ≤ extractTTL floor ceil e.msg :=
    le_trans (by decide) (Int.le_of_dvd hpos (second_dvd_extractTTL hs.whole e.msg))
  have hdead : ∀ t : ℤ, exp ≤ t →
      Expiring.live RedisEntry.expiresAt s.redis t (key n qtype) = none := fun t => hin.dead_of_le
  by_cases hlong : s.now + 1 < e.expiresAt ∧ s.now + 1 < exp
  · -- a `Get` after an instant, and one when the old entries have expired
    have hnow : ((StoreEvent.tick 1).apply s).now = s.now + 1 := rfl
    have hin' : InL2 ((StoreEvent.tick 1).apply (s.invalidate d)) n qtype e.msg exp :=
      ⟨hgone _, hin.entry, hlong.2⟩
    have hT : max e.expiresAt exp < ((StoreEvent.tick 1).apply s).now +
        extractTTL floor ceil e.msg := by omega
    have hne := reads_differ (s := (StoreEvent.tick 1).apply s) (hs'.apply (.tick 1)) hpos rfl
      hlookup hlong.1 (le_max_left ..) (hdead _ (le_max_right ..)) hin' hT
    exact hne (h [.tick 1, .get n qtype, .tick _] n qtype hn)
  · by_cases hshort : max e.expiresAt exp <
        s.now + extractTTL floor ceil e.msg
    · -- a `Get` at once gives a longer lifetime than the old entries have
      have hne := reads_differ (s := s) hs' hpos rfl hlookup hlater (le_max_left ..)
        (hdead _ (le_max_right ..)) hin hshort
      exact hne (h [.get n qtype, .tick _] n qtype hn)
    · by_cases hexp : exp ≤ s.now + 1
      · -- the entry in L2 is about to expire
        have hread := h [.tick 1] n qtype hn
        have hmiss : (run StoreEvent.apply (s.invalidate d) [.tick 1]).read n qtype = none :=
          read_of_dead (hgone _) fun _ => hdead (s.now + 1) hexp
        have hlive : Expiring.live CacheEntry.expiresAt
            (run StoreEvent.apply s [.tick 1]).cache.entries
            (run StoreEvent.apply s [.tick 1]).now (key n qtype) = some e :=
          Expiring.live_eq_some.2 ⟨hlookup, show s.now + 1 < _ by omega⟩
        rw [read_of_live hlive, hmiss] at hread
        cases hread
      · -- the entry in L1 is about to expire; without the `Invalidate` it is promoted later
        have hhit : s.cache.get s.redis s.now n qtype =
            (some e.msg, { s.cache with hits := s.cache.hits + 1 }, s.redis) :=
          Cache.get_of_live he
        have hin' : InL2 (run StoreEvent.apply s [.get n qtype, .tick 1]) n qtype e.msg exp := by
          simp only [run_cons, run_nil, StoreEvent.apply, CacheEvent.apply, hhit]
          rw [Nat.cast_one]
          have hend : e.expiresAt ≤ s.now + 1 := by omega
          exact ⟨Expiring.live_eq_none_of_le hlookup hend, hin.entry, by dsimp only; omega⟩
        obtain ⟨hnew, hnone⟩ := hin.get hs' hpos
        have hone : s.now + 1 < s.now + extractTTL floor ceil e.msg := by
          omega
        have hnext : s.now + extractTTL floor ceil e.msg <
            s.now + 1 + extractTTL floor ceil e.msg := by omega
        have hne := reads_differ
          (s := run StoreEvent.apply (s.invalidate d) [.get n qtype, .tick 1])
          ((hs.apply (.get n qtype)).apply (.tick 1)) hpos rfl hnew hone le_rfl
          (hnone _ hle' le_rfl) hin' hnext
        exact hne (h [.get n qtype, .tick 1, .get n qtype, .tick _] n qtype hn).symm

end CacheState

open CacheState in
/-- **An `Invalidate` removes the domain and nothing else exactly when L1 has no live entry
under the removed prefix but those of the domain's names, no live entry of these under another
prefix, and L2, if there is one, has none of them.** -/
theorem invalidate_exact_iff (client : RedisClient) (floor ceil : ℤ) (attached : Bool) (t : ℤ)
    (es : List StoreEvent) (d : GoString) :
    let s := run StoreEvent.apply (startSeconds client floor ceil attached t) es
    s.ReadsNothing d ∧ s.LeavesOthers d ↔ s.InvalidateExact d := by
  intro s
  have hs : s.Timely (floor * second) (ceil * second) :=
    timely_run client floor ceil attached t es
  rw [readsNothing_iff hs]
  constructor
  · rintro ⟨hgone, hothers⟩
    refine ⟨fun n qtype e he => ⟨fun hp => ?_, fun hn => ?_⟩, hgone.redis⟩
    · by_contra hn
      rw [hothers.live_eq_none hs hn hp] at he
      cases he
    · by_contra hp
      have hnone := hgone.entries n qtype hn
      rw [live_invalidate, if_neg hp] at hnone
      exact absurd (hnone.symm.trans he) (by simp)
  · rintro ⟨hl1, hl2⟩
    refine ⟨⟨fun n qtype hn => ?_, hl2⟩, fun es' n qtype hn => ?_⟩
    · rw [live_invalidate]
      split_ifs with hp
      · rfl
      · exact Option.eq_none_iff_forall_ne_some.2 fun e he => hp ((hl1 n qtype e he).2 hn)
    · refine (SameElse.get_of_not ((sameElse_invalidate fun n qtype hn hp => ?_).run es') hn _).1
      exact Option.eq_none_iff_forall_ne_some.2 fun e he => hn ((hl1 n qtype e he).1 hp)

end Invalidate

open CacheState in
/-- A domain is read from L2 after its `Invalidate`; and without an L2, the `Invalidate` of `a`
removes the name `a.|b.` too. -/
theorem invalidate_not_exact :
    letI := asciiTable
    letI := plainMiekg
    let response : Received := ⟨shortLived, shortLived, rfl⟩
    ¬ (run StoreEvent.apply (startSeconds .goRedis 1 60 true 0)
        [.set "a.com.".toList typeA response]).ReadsNothing "a.com".toList ∧
      ¬ (run StoreEvent.apply (startSeconds .goRedis 1 60 false 0)
        [.set "a.|b.".toList typeA response]).LeavesOthers "a".toList := by
  refine ⟨fun h => ?_, fun h => ?_⟩
  · have hread := h [] (by simp) "a.com.".toList typeA (.inr rfl)
    revert hread
    decide +kernel
  · have hread := h [] "a.|b.".toList typeA (by unfold NameOf; decide +kernel)
    revert hread
    decide +kernel

end DnsFilter
