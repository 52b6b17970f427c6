import DnsFilter.Cache.Cache
import Mathlib.Order.Bounds.Basic

/-!
# Lifetimes

What `extractTTL` makes of the TTLs of a response, in terms of the least one and the configured
bounds.

* `isLeast_minTTL`: the loop finds the least of the TTLs and one hour;
* `extractTTL_eq`: the lifetime, by the bounds and the least TTL;
* `lifetime_iff`: when it is the least TTL between floor and ceiling, in both levels.
-/

namespace DnsFilter

/-- The TTLs of the answers, in seconds. -/
def Msg.ttls (msg : Msg) : Set ℕ := {ttl | ∃ rr ∈ msg.answer, rr.ttl.toNat = ttl}

/-- The loop finds the least of the TTLs and the initial value. -/
theorem isLeast_foldl_ttl (answer : List RR) (init : UInt32) :
    IsLeast (insert init.toNat {ttl | ∃ rr ∈ answer, rr.ttl.toNat = ttl})
      (answer.foldl (fun minTTL rr => if rr.ttl < minTTL then rr.ttl else minTTL) init).toNat := by
  induction answer generalizing init with
  | nil => simp
  | cons rr answer ih =>
    rw [List.foldl_cons]
    obtain ⟨hmem, hle⟩ := ih (if rr.ttl < init then rr.ttl else init)
    simp only [lowerBounds_insert, Set.mem_inter_iff, Set.mem_Iic] at hle
    obtain ⟨hinit, hrest⟩ := hle
    have hmin : (if rr.ttl < init then rr.ttl else init).toNat = min rr.ttl.toNat init.toNat := by
      split_ifs with hlt
      · exact (min_eq_left (le_of_lt (UInt32.lt_iff_toNat_lt.1 hlt))).symm
      · exact (min_eq_right (not_lt.1 fun h => hlt (UInt32.lt_iff_toNat_lt.2 h))).symm
    rw [hmin] at hinit hmem
    refine ⟨?_, ?_⟩
    · rcases hmem with hmem | ⟨r, hr, hval⟩
      · rcases min_choice rr.ttl.toNat init.toNat with hrr | hinit
        · exact .inr ⟨rr, List.mem_cons_self, by rw [hmem, hrr]⟩
        · exact .inl (hmem.trans hinit)
      · exact .inr ⟨r, List.mem_cons_of_mem _ hr, hval⟩
    · rintro ttl (rfl | ⟨r, hr, rfl⟩)
      · exact hinit.trans (min_le_right _ _)
      · rcases List.mem_cons.1 hr with rfl | hr
        · exact hinit.trans (min_le_left _ _)
        · exact hrest ⟨r, hr, rfl⟩

theorem isLeast_minTTL (msg : Msg) :
    IsLeast (insert 3600 msg.ttls) (minTTL msg.answer).toNat :=
  isLeast_foldl_ttl msg.answer 3600

theorem minTTL_eq {msg : Msg} {m : ℕ} (hm : IsLeast msg.ttls m) :
    (minTTL msg.answer).toNat = min 3600 m :=
  (isLeast_minTTL msg).unique (hm.insert 3600)

/-- The two clamps, for bounds in order. -/
theorem clampTTL_eq {floor ceil : ℤ} (h : floor ≤ ceil) (ttl : ℤ) :
    clampTTL floor ceil ttl = max floor (min ceil ttl) := by
  simp only [clampTTL]
  split_ifs <;> omega

/-- The lifetime of a response whose least TTL is `m`. -/
theorem extractTTL_eq {floor ceil : ℤ} (h : floor ≤ ceil) {msg : Msg} {m : ℕ}
    (hm : IsLeast msg.ttls m) :
    extractTTL floor ceil msg = max floor (min ceil (min (3600 * second) (m * second))) := by
  rw [extractTTL, clampTTL_eq h, minTTL_eq hm, second]
  congr 2
  push_cast
  omega

/-- A cap under the ceiling shows when the value and the ceiling exceed it and the floor. -/
theorem capped_eq_iff (floor ceil cap ttl : ℤ) :
    max floor (min ceil (min cap ttl)) = max floor (min ceil ttl) ↔
      min ceil ttl ≤ max floor cap := by
  omega

section Lifetime

variable [Unicode] [Miekg]

/-- The lifetime of a response with answers is the least TTL between floor and ceiling, in the
entry of L1 and in what L2 makes of it, exactly when that TTL or the ceiling is at most one
hour or at most the floor. -/
theorem lifetime_iff {c : Cache} {msg : Msg} {m : ℕ} (hm : IsLeast msg.ttls m)
    (hbounds : c.ttlFloor ≤ c.ttlCeil) (redis : Redis) (now : ℤ) (name : GoString)
    (qtype : UInt16) :
    let lifetime := max c.ttlFloor (min c.ttlCeil (m * second))
    (c.extractTTL msg = lifetime ∧
        (c.set redis now name qtype (some msg)).1.entries.lookup (key name qtype) =
          some ⟨msg, now + lifetime⟩ ∧
        clampTTL c.ttlFloor c.ttlCeil (c.extractTTL msg) = lifetime) ↔
      min c.ttlCeil (m * second) ≤ max c.ttlFloor (3600 * second) := by
  intro lifetime
  have hans : msg.answer ≠ [] := by
    obtain ⟨⟨rr, hrr, -⟩, -⟩ := hm
    exact List.ne_nil_of_mem hrr
  have hclamp : clampTTL c.ttlFloor c.ttlCeil (c.extractTTL msg) = c.extractTTL msg :=
    clampTTL_clampTTL ..
  have hlookup : (c.set redis now name qtype (some msg)).1.entries.lookup (key name qtype) =
      some ⟨msg, now + c.extractTTL msg⟩ := by
    rw [Cache.set_spec, if_neg hans]
    exact Finmap.lookup_insert _
  have httl : c.extractTTL msg = lifetime ↔
      min c.ttlCeil (m * second) ≤ max c.ttlFloor (3600 * second) := by
    rw [Cache.extractTTL, extractTTL_eq hbounds hm]
    exact capped_eq_iff ..
  rw [hlookup, hclamp, ← httl]
  constructor
  · exact fun h => h.1
  · exact fun h => ⟨h, by rw [h], h⟩

end Lifetime

/-- A response whose two answers live for five minutes and for one. -/
def twoLifetimes : Msg where
  answer := [⟨"a.com.".toList, typeA, classINET, 300, .a (.v4 0x01020304#32)⟩,
    ⟨"a.com.".toList, typeA, classINET, 60, .a (.v4 0x01020305#32)⟩]

/-- It lives for the shorter time. -/
theorem lifetime_short :
    letI := asciiTable
    letI := plainMiekg
    let c := Cache.new (30 * second) (3600 * second)
    c.extractTTL twoLifetimes = 60 * second ∧
      (c.set ∅ 0 "a.com.".toList typeA (some twoLifetimes)).1.entries.lookup
        (key "a.com.".toList typeA) = some ⟨twoLifetimes, 60 * second⟩ := by
  let := asciiTable
  let := plainMiekg
  have hleast : IsLeast twoLifetimes.ttls 60 := by
    refine ⟨⟨_, List.mem_cons_of_mem _ List.mem_cons_self, rfl⟩, ?_⟩
    rintro _ ⟨rr, hrr, rfl⟩
    revert rr
    decide
  obtain ⟨httl, hset, -⟩ := (lifetime_iff (c := Cache.new (30 * second) (3600 * second)) hleast
    (by decide) ∅ 0 "a.com.".toList typeA).2 (by decide)
  exact ⟨httl, hset⟩

/-- With a ceiling of two hours, a response that lives for two hours is kept for one. -/
theorem lifetime_fails :
    let c := Cache.new (30 * second) (7200 * second)
    let msg : Msg :=
      { answer := [⟨"a.com.".toList, typeA, classINET, 7200, .a (.v4 0x01020304#32)⟩] }
    IsLeast msg.ttls 7200 ∧ c.extractTTL msg = 3600 * second ∧
      c.extractTTL msg ≠ max c.ttlFloor (min c.ttlCeil (7200 * second)) := by
  refine ⟨by simp [Msg.ttls], by decide, by decide⟩

end DnsFilter
