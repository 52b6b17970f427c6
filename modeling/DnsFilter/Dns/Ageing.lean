import DnsFilter.Cache.History
import DnsFilter.Cache.Lifetime
import DnsFilter.Dns.System

/-!
# The TTLs of cached records

A hit of L1 is sent with the TTLs that the upstream gave, whatever the age of the entry.

* `lookup_of_storedLast`: the reply to a query whose response is in the cache;
* `KeepsTTL`: a client that believes the reply drops the record in time;
* `served_aged_iff`: when this is so for all answers of a hit, at the end of any run.
-/

namespace DnsFilter

open EventRun

/-- A record that leaves the server at the time `now` is gone from the client when the record
of the upstream, received at `t₀`, or the entry of the cache is, up to whole seconds. -/
def KeepsTTL (t₀ expiresAt now : ℤ) (original served : RR) : Prop :=
  now + served.ttl.toNat * second < max (t₀ + original.ttl.toNat * second) expiresAt + second

instance {t₀ expiresAt now : ℤ} {original served : RR} :
    Decidable (KeepsTTL t₀ expiresAt now original served) := inferInstanceAs (Decidable (_ < _))

/-- The TTL that the upstream gave is too long from the first second on, unless the entry lives
long enough. -/
theorem keepsTTL_self_iff {t₀ ttl now : ℤ} {rr : RR} :
    KeepsTTL t₀ (t₀ + ttl) now rr rr ↔
      now - t₀ < second ∨ now - t₀ + rr.ttl.toNat * second < ttl + second := by
  rw [KeepsTTL]
  generalize (rr.ttl.toNat : ℤ) * second = x
  omega

/-- A lifetime lies on or above the bounds, and above them only if the TTL does. -/
theorem clampTTL_between (floor ceil ttl : ℤ) :
    min floor ceil ≤ clampTTL floor ceil ttl ∧
      (clampTTL floor ceil ttl ≤ min floor ceil ∨ clampTTL floor ceil ttl ≤ ttl) := by
  simp only [clampTTL]
  split_ifs <;> omega

/-- A lifetime that the TTLs give is over before any of the records is, once a second has
passed, so that only the bounds help. -/
theorem ttl_lt_lifetime_iff {floor ceil age : ℤ} {msg : Msg} {rr : RR} (hrr : rr ∈ msg.answer)
    (hage : second ≤ age) :
    age + rr.ttl.toNat * second < extractTTL floor ceil msg + second ↔
      age + rr.ttl.toNat * second < min floor ceil + second := by
  have hleast : ((minTTL msg.answer).toNat : ℤ) * second ≤ rr.ttl.toNat * second := by
    have hle := (isLeast_minTTL msg).2 (Set.mem_insert_of_mem 3600 ⟨rr, hrr, rfl⟩)
    exact mul_le_mul_of_nonneg_right (by exact_mod_cast hle) (by decide)
  obtain ⟨hfloor, hceil⟩ :=
    clampTTL_between floor ceil ((minTTL msg.answer).toNat * second)
  rw [← extractTTL] at hfloor hceil
  generalize (rr.ttl.toNat : ℤ) * second = x at *
  constructor
  · intro h
    rcases hceil with hceil | hceil
    · exact h.trans_le (by linarith)
    · linarith
  · intro h
    linarith

section Served

variable [Unicode] [Miekg] {floor ceil t : ℤ} {es : List CacheEvent}

/-- A query for a response in the cache is answered with its records. -/
theorem lookup_of_storedLast (h : Handler) (q : Query) {msg : Msg} {t₀ : ℤ}
    (hstored : StoredLast (.start floor ceil t) es
      (key q.incoming.question.name q.incoming.question.qtype) msg t₀)
    (hlive : (run CacheEvent.apply (.start floor ceil t) es).now <
      t₀ + extractTTL floor ceil msg) :
    let s := run CacheEvent.apply (.start floor ceil t) es
    ∃ out, ({ h with cache := s.cache }.lookup s.redis s.now q).1 = some out ∧
      out.reply.source = .cache ∧ out.reply.msg.answer = msg.answer := by
  intro s
  have hget := (get_run_iff floor ceil t es _ _ msg).2 ⟨t₀, hstored, hlive⟩
  refine ⟨_, congrArg (Option.map _) hget, rfl, ?_⟩
  exact (Miekg.setReply_records ..).answer

/-- At the end of any run, a hit of L1 is sent with TTLs that end with those of the upstream or
with the entry exactly when it comes within a second of the `Set`, or the age and the longest
TTL stay below the floor and the ceiling, up to whole seconds. -/
theorem served_aged_iff (h : Handler) (q : Query) {msg : Msg} {t₀ : ℤ}
    (hstored : StoredLast (.start floor ceil t) es
      (key q.incoming.question.name q.incoming.question.qtype) msg t₀)
    (hlive : (run CacheEvent.apply (.start floor ceil t) es).now <
      t₀ + extractTTL floor ceil msg) :
    let s := run CacheEvent.apply (.start floor ceil t) es
    (∃ out, ({ h with cache := s.cache }.lookup s.redis s.now q).1 = some out ∧
        out.reply.source = .cache ∧
        List.Forall₂ (KeepsTTL t₀ (t₀ + extractTTL floor ceil msg) s.now) msg.answer
          out.reply.msg.answer) ↔
      s.now - t₀ < second ∨
        ∀ rr ∈ msg.answer, s.now - t₀ + rr.ttl.toNat * second < min floor ceil + second := by
  intro s
  obtain ⟨out, hout, hsource, hanswer⟩ := lookup_of_storedLast h q hstored hlive
  have hreply : (∃ out, ({ h with cache := s.cache }.lookup s.redis s.now q).1 = some out ∧
      out.reply.source = .cache ∧
      List.Forall₂ (KeepsTTL t₀ (t₀ + extractTTL floor ceil msg) s.now) msg.answer
        out.reply.msg.answer) ↔
      ∀ rr ∈ msg.answer, KeepsTTL t₀ (t₀ + extractTTL floor ceil msg) s.now rr rr := by
    rw [← List.forall₂_same]
    constructor
    · rintro ⟨out', hout', -, hkeeps⟩
      obtain rfl := Option.some.inj (hout.symm.trans hout')
      rwa [hanswer] at hkeeps
    · intro hkeeps
      exact ⟨out, hout, hsource, by rwa [hanswer]⟩
  rw [hreply]
  simp only [keepsTTL_self_iff]
  by_cases hage : s.now - t₀ < second
  · simp [hage]
  · simp only [hage, false_or]
    exact forall₂_congr fun rr hrr => ttl_lt_lifetime_iff hrr (not_lt.1 hage)

end Served

/-- A response is stored at the time 0, and some time passes. -/
def storedFor [Unicode] (age : ℕ) : List CacheEvent :=
  [.set "a.com.".toList typeA (some shortLived), .tick age]

theorem storedLast_storedFor [Unicode] [Miekg] (floor ceil : ℤ) (age : ℕ) :
    StoredLast (.start floor ceil 0) (storedFor age) (key "a.com.".toList typeA) shortLived 0 :=
  ⟨[], _, _, _, rfl, rfl, by simp [shortLived], rfl, by simp [CacheEvent.Touches]⟩

theorem now_storedFor [Unicode] [Miekg] (floor ceil : ℤ) (age : ℕ) :
    (run CacheEvent.apply (.start floor ceil 0) (storedFor age)).now = age := zero_add _

/-- With a floor of two minutes, a record that lives for one may be passed on for one after
half a minute. -/
theorem served_aged_floor :
    letI := asciiTable
    letI := plainMiekg
    let s := run CacheEvent.apply (.start (120 * second) (3600 * second) 0)
      (storedFor 30000000000)
    ∃ out, ({ openHandler with cache := s.cache }.lookup s.redis s.now
        ⟨askFor 0 (questionIn classINET), s.now, { groupID := 0, authMode := authNone }⟩).1 =
        some out ∧ out.reply.source = .cache ∧
      List.Forall₂ (KeepsTTL 0 (120 * second) s.now) shortLived.answer out.reply.msg.answer := by
  let := asciiTable
  let := plainMiekg
  have hnow := now_storedFor (120 * second) (3600 * second) 30000000000
  have httl : 0 + extractTTL (120 * second) (3600 * second) shortLived = 120 * second := by
    decide
  intro s
  have haged := (served_aged_iff openHandler
    ⟨askFor 0 (questionIn classINET), s.now, { groupID := 0, authMode := authNone }⟩
    (storedLast_storedFor (120 * second) (3600 * second) 30000000000)
    (by rw [hnow]; decide)).2 (.inr (by rw [hnow]; decide))
  rw [httl] at haged
  exact haged

/-- One second before the entry is over, the record is passed on for a whole minute. -/
theorem served_aged_fails :
    letI := asciiTable
    letI := plainMiekg
    let s := run CacheEvent.apply (.start (30 * second) (3600 * second) 0)
      (storedFor 59000000000)
    ∃ out, ({ openHandler with cache := s.cache }.lookup s.redis s.now
        ⟨askFor 0 (questionIn classINET), s.now, { groupID := 0, authMode := authNone }⟩).1 =
        some out ∧ out.reply.source = .cache ∧ out.reply.msg.answer.map (·.ttl) = [60] ∧
      ¬ List.Forall₂ (KeepsTTL 0 (60 * second) s.now) shortLived.answer out.reply.msg.answer := by
  let := asciiTable
  let := plainMiekg
  have hnow := now_storedFor (30 * second) (3600 * second) 59000000000
  obtain ⟨out, hout, hsource, hanswer⟩ := lookup_of_storedLast openHandler
    ⟨askFor 0 (questionIn classINET), _, { groupID := 0, authMode := authNone }⟩
    (storedLast_storedFor (30 * second) (3600 * second) 59000000000) (by rw [hnow]; decide)
  refine ⟨out, hout, hsource, by rw [hanswer]; rfl, fun h => ?_⟩
  rw [hanswer, List.forall₂_same, hnow] at h
  exact absurd (h _ List.mem_cons_self) (by decide)

end DnsFilter
