import DnsFilter.Identity.Resolver
import DnsFilter.Lib.FirstMatch
import DnsFilter.Lib.Run
import DnsFilter.Store.Tables

/-!
# The order of the ranges

Process start adds the ranges of the database most specific first, `CreateRange` appends
one at the end, and `Resolve` takes the first match.

`most_specific_wins_iff`: in all states of a run the most specific range decides exactly
when every range is appended where it agrees with, or is no longer than, what the addresses
it contains already match.
-/

namespace DnsFilter

open EventRun FirstMatch

/-- The comparator of the startup sort: longest prefix first. -/
def rangeLess (a b : IPRangeRow) : Bool :=
  match parseCIDR a.cidr, parseCIDR b.cidr with
  | some netI, some netJ => netJ.ones < netI.ones
  | _, _ => false

/-- Rows of `ip_ranges`, all of them well-formed, and the order in which the sort leaves
them. -/
structure RangeStart where
  rows : List IPRangeRow
  sorted : List IPRangeRow
  perm : sorted.Perm rows
  ordered : sorted.Pairwise fun a b => rangeLess b a = false
  parses : ∀ r ∈ rows, (parseCIDR r.cidr).isSome

/-- The range of a row. -/
def IPRangeRow.range (row : IPRangeRow) : Option IPRange :=
  (parseCIDR row.cidr).map fun net => ⟨net, row.groupID, row.authMode⟩

/-- Add the range of a row, skipping a malformed one. -/
def Resolver.addRow (r : Resolver) (row : IPRangeRow) : Resolver :=
  match row.range with
  | some ipRange => r.addRange ipRange
  | none => r

/-- The resolver of a process start. -/
def RangeStart.resolver (s : RangeStart) : Resolver := s.sorted.foldl Resolver.addRow (.new 1)

/-- The changes of the resolver while the process runs. -/
inductive IdentityEvent
  /-- The endpoint `CreateRange`; `stored` tells whether the database took the row. -/
  | createRange (cidr : GoString) (groupID : ℤ) (authMode : AuthMode) (stored : Bool)
  | addSession (session : Session)
  | removeSession (clientIP : IP)
  | evictExpiredSessions (now : ℤ)

def IdentityEvent.apply (r : Resolver) : IdentityEvent → Resolver
  | .createRange cidr groupID authMode stored =>
      match parseCIDR cidr with
      | none => r
      | some cidrNet => if stored then r.addRange ⟨cidrNet, groupID, authMode⟩ else r
  | .addSession session => r.addSession session
  | .removeSession clientIP => r.removeSession clientIP
  | .evictExpiredSessions now => (r.evictExpiredSessions now).1

/-! ### The startup order -/

theorem ranges_foldl_addRow (r : Resolver) (rows : List IPRangeRow) :
    (rows.foldl Resolver.addRow r).ranges = r.ranges ++ rows.filterMap IPRangeRow.range := by
  induction rows generalizing r with
  | nil => simp
  | cons row rows ih =>
    rw [List.foldl_cons, ih]
    cases h : row.range with
    | none => simp [Resolver.addRow, h]
    | some ipRange => simp [Resolver.addRow, h, Resolver.addRange]

/-- The ranges of a process start are sorted by descending prefix length. -/
theorem RangeStart.ranges_sorted (s : RangeStart) :
    s.resolver.ranges.Pairwise fun a b => b.network.ones ≤ a.network.ones := by
  rw [resolver, ranges_foldl_addRow]
  refine List.Pairwise.filterMap _ ?_ s.ordered
  intro a b hab ra hra rb hrb
  simp only [IPRangeRow.range, Option.map_eq_some_iff] at hra hrb
  obtain ⟨na, hna, rfl⟩ := hra
  obtain ⟨nb, hnb, rfl⟩ := hrb
  simpa [rangeLess, hna, hnb] using hab

/-! ### The most specific range -/

/-- Every client without an active session that is in some range gets the group and the mode
of a range that contains it and is as long as every other one that does. -/
def MostSpecificWins (r : Resolver) : Prop :=
  ∀ now clientIP, r.activeSession now clientIP = none →
    (∃ ipRange ∈ r.ranges, ipRange.network.contains clientIP) →
      ∃ ipRange ∈ r.ranges, ipRange.network.contains clientIP ∧
        (∀ other ∈ r.ranges, other.network.contains clientIP →
          other.network.ones ≤ ipRange.network.ones) ∧
        r.resolve now clientIP =
          .ok { groupID := ipRange.groupID, authMode := ipRange.authMode }

/-- The ranges alone decide: the first match answers best for every address. -/
theorem mostSpecificWins_iff {r : Resolver} :
    MostSpecificWins r ↔ ∀ clientIP,
      FindsBest (fun ipRange : IPRange => ipRange.network.contains clientIP)
        (fun ipRange => ipRange.network.ones)
        (fun ipRange => (ipRange.groupID, ipRange.authMode)) r.ranges := by
  constructor
  · intro h clientIP first hfirst
    obtain ⟨now, hnow⟩ := r.exists_activeSession_eq_none clientIP
    obtain ⟨best, hbest, hcontains, hmax, hres⟩ := h now clientIP hnow
      ⟨first, List.mem_of_find?_eq_some hfirst, by simpa using List.find?_some hfirst⟩
    refine ⟨best, hbest, hcontains, ?_, hmax⟩
    rw [Resolver.resolve_of_matchRange hnow hfirst] at hres
    simpa [eq_comm] using hres
  · rintro h now clientIP hnow ⟨ipRange, hmem, hcontains⟩
    obtain ⟨first, hfirst⟩ : ∃ first, r.matchRange clientIP = some first :=
      Option.isSome_iff_exists.1 (List.find?_isSome.2 ⟨ipRange, hmem, hcontains⟩)
    obtain ⟨best, hbest, hin, hlabel, hmax⟩ := h clientIP first hfirst
    obtain ⟨hg, ha⟩ := Prod.mk.inj hlabel
    exact ⟨best, hbest, hin, hmax, by rw [Resolver.resolve_of_matchRange hnow hfirst, hg, ha]⟩

theorem mostSpecificWins_congr {r r' : Resolver} (h : r'.ranges = r.ranges) :
    MostSpecificWins r' ↔ MostSpecificWins r := by
  rw [mostSpecificWins_iff, mostSpecificWins_iff, h]

/-- A range is appended only where it agrees with the range that decides so far, or is no
longer than some range that contains the address. -/
def KeepsMostSpecific (r : Resolver) : IdentityEvent → Prop
  | .createRange cidr groupID authMode stored =>
      stored → ∀ cidrNet, parseCIDR cidr = some cidrNet →
        ∀ clientIP, cidrNet.contains clientIP → ∀ first, r.matchRange clientIP = some first →
          (groupID, authMode) = (first.groupID, first.authMode) ∨
            ∃ ipRange ∈ r.ranges, ipRange.network.contains clientIP ∧
              cidrNet.ones ≤ ipRange.network.ones
  | _ => True

theorem mostSpecificWins_addRange {r : Resolver} (h : MostSpecificWins r) (ipRange : IPRange) :
    MostSpecificWins (r.addRange ipRange) ↔
      ∀ clientIP, ipRange.network.contains clientIP → ∀ first,
        r.matchRange clientIP = some first →
          (ipRange.groupID, ipRange.authMode) = (first.groupID, first.authMode) ∨
            ∃ other ∈ r.ranges, other.network.contains clientIP ∧
              ipRange.network.ones ≤ other.network.ones := by
  rw [mostSpecificWins_iff] at h ⊢
  exact forall_congr' fun clientIP => findsBest_concat (h clientIP)

/-- The condition is exact for one step. -/
theorem mostSpecificWins_apply {r : Resolver} (h : MostSpecificWins r) (e : IdentityEvent) :
    MostSpecificWins (e.apply r) ↔ KeepsMostSpecific r e := by
  have hsame : ∀ r' : Resolver, r'.ranges = r.ranges → (MostSpecificWins r' ↔ True) :=
    fun r' hr' => iff_of_true ((mostSpecificWins_congr hr').2 h) trivial
  cases e with
  | createRange cidr groupID authMode stored =>
    cases hnet : parseCIDR cidr with
    | none => simp [IdentityEvent.apply, KeepsMostSpecific, hnet, h]
    | some cidrNet =>
      cases stored with
      | false => simp [IdentityEvent.apply, KeepsMostSpecific, hnet, h]
      | true =>
        simp only [IdentityEvent.apply, KeepsMostSpecific, hnet, if_true, forall_true_left,
          Option.some.injEq, forall_eq']
        exact mostSpecificWins_addRange h ⟨cidrNet, groupID, authMode⟩
  | addSession session => exact hsame _ rfl
  | removeSession clientIP => exact hsame _ rfl
  | evictExpiredSessions now => exact hsame _ rfl

theorem RangeStart.mostSpecificWins (s : RangeStart) : MostSpecificWins s.resolver :=
  mostSpecificWins_iff.2 fun _ => findsBest_of_sorted s.ranges_sorted

/-- **The most specific range wins in every state of a run exactly when every range created
on the way agrees with, or is no longer than, the ranges it overlaps.** -/
theorem most_specific_wins_iff (s : RangeStart) (es : List IdentityEvent) :
    (∀ fs, fs <+: es → MostSpecificWins (run IdentityEvent.apply s.resolver fs)) ↔
      Along IdentityEvent.apply KeepsMostSpecific s.resolver es :=
  (along_iff MostSpecificWins (fun _ e h => mostSpecificWins_apply h e) s.mostSpecificWins es).symm

/-! ### A range that comes too late -/

/-- One range at startup, `10.0.0.0/8` of group 1. -/
def wideStart : RangeStart where
  rows := [⟨1, "10.0.0.0/8".toList, 1, 0, []⟩]
  sorted := [⟨1, "10.0.0.0/8".toList, 1, 0, []⟩]
  perm := .refl _
  ordered := List.pairwise_singleton ..
  parses := by decide

/-- `10.1.0.0/16` of group 2 is created afterwards: `10.1.0.1` keeps group 1. -/
theorem created_range_loses :
    ¬ MostSpecificWins (run IdentityEvent.apply wideStart.resolver
      [.createRange "10.1.0.0/16".toList 2 0 true]) := by
  intro h
  obtain ⟨r, hr, hr'⟩ : ∃ r, r = run IdentityEvent.apply wideStart.resolver
      [.createRange "10.1.0.0/16".toList 2 0 true] ∧
      r.ranges = [⟨.v4 0x0a000000#32 8, 1, 0⟩, ⟨.v4 0x0a010000#32 16, 2, 0⟩] :=
    ⟨_, rfl, by decide +kernel⟩
  rw [← hr, mostSpecificWins_iff] at h
  have hbest := h (.v4 0x0a010001#32) ⟨.v4 0x0a000000#32 8, 1, 0⟩ (by rw [hr']; decide)
  rw [hr'] at hbest
  revert hbest
  decide

end DnsFilter
