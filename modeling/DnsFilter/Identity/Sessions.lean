import DnsFilter.Identity.Resolver

/-!
# The priority order of the resolver

What `Resolve` answers, in terms of the calls made so far.

* `SessionEvent.apply`: a resolver under any sequence of logins, logouts, range changes,
  evictions and time;
* `LastSession`: a session was added for an address and neither replaced nor removed since;
* `resolve_refines_priority`: the session that was added last decides until it expires, then
  the first range, then the default; evictions change nothing.
-/

namespace DnsFilter

open EventRun

structure SessionState where
  now : ℤ
  resolver : Resolver

inductive SessionEvent
  | addSession (session : Session)
  | removeSession (clientIP : IP)
  | loadRanges (ranges : List IPRange)
  | addRange (ipRange : IPRange)
  | evictExpiredSessions
  | tick (d : ℕ)

namespace SessionEvent

def apply (s : SessionState) : SessionEvent → SessionState
  | addSession session => { s with resolver := s.resolver.addSession session }
  | removeSession clientIP => { s with resolver := s.resolver.removeSession clientIP }
  | loadRanges ranges => { s with resolver := s.resolver.loadRanges ranges }
  | addRange ipRange => { s with resolver := s.resolver.addRange ipRange }
  | evictExpiredSessions => { s with resolver := (s.resolver.evictExpiredSessions s.now).1 }
  | tick d => { s with now := s.now + d }

def isEvict : SessionEvent → Bool
  | evictExpiredSessions => true
  | _ => false

/-- The event adds or removes the session of an address, given in canonical form. -/
def Touches (k : IP) : SessionEvent → Prop
  | addSession session => session.clientIP.canonical = k
  | removeSession clientIP => clientIP.canonical = k
  | _ => False

/-- What an event writes under an address: a session, or none. -/
def write (k : IP) : SessionEvent → Option (Option Session)
  | addSession session => if session.clientIP.canonical = k then some (some session) else none
  | removeSession clientIP => if clientIP.canonical = k then some none else none
  | _ => none

theorem write_eq_none_iff {k : IP} {e : SessionEvent} : e.write k = none ↔ ¬ e.Touches k := by
  cases e <;> simp [write, Touches]

/-- The list of ranges that an event leaves. -/
def rangesAfter (ranges : List IPRange) : SessionEvent → List IPRange
  | loadRanges ranges' => ranges'
  | addRange ipRange => ranges ++ [ipRange]
  | _ => ranges

end SessionEvent

/-- A fresh resolver. -/
def SessionState.start (defaultGroupID t : ℤ) : SessionState := ⟨t, .new defaultGroupID⟩

/-- The session was added for the address and neither replaced nor removed since. -/
def LastSession (es : List SessionEvent) (k : IP) (session : Session) : Prop :=
  ∃ pre post, es = pre ++ .addSession session :: post ∧ session.clientIP.canonical = k ∧
    ∀ e ∈ post, ¬ e.Touches k

/-- The ranges last loaded, with those added since. -/
def currentRanges (es : List SessionEvent) : List IPRange := run SessionEvent.rangesAfter [] es

/-! ### Steps -/

theorem SessionEvent.now_le (s : SessionState) (e : SessionEvent) : s.now ≤ (e.apply s).now := by
  cases e with
  | tick d => simp [apply]
  | _ => exact le_rfl

theorem now_le_run (s : SessionState) (es : List SessionEvent) :
    s.now ≤ (run SessionEvent.apply s es).now :=
  run_invariant (fun s' => s.now ≤ s'.now) (fun s' e h => h.trans (e.now_le s')) le_rfl es

/-- The session seen under an address after an event, from then on. -/
theorem SessionEvent.live_apply (s : SessionState) (e : SessionEvent) (k : IP) {t : ℤ}
    (ht : (e.apply s).now ≤ t) :
    Expiring.live Session.expiresAt (e.apply s).resolver.sessions t k =
      ((e.write k).map (Option.filter fun b => t < b.expiresAt)).getD
        (Expiring.live Session.expiresAt s.resolver.sessions t k) := by
  cases e with
  | addSession session =>
    by_cases hk : session.clientIP.canonical = k
    · simp [apply, write, Resolver.addSession, hk, Option.filter]
    · simp [apply, write, Resolver.addSession, hk,
        Expiring.live_insert_of_ne _ _ _ (Ne.symm hk)]
  | removeSession clientIP =>
    by_cases hk : clientIP.canonical = k
    · simp [apply, write, Resolver.removeSession, Expiring.live_erase, hk]
    · simp [apply, write, Resolver.removeSession, Expiring.live_erase, hk, Ne.symm hk]
  | evictExpiredSessions =>
    exact Expiring.live_sweep s.resolver.sessions ht k
  | loadRanges | addRange | tick => rfl

theorem SessionEvent.ranges_apply (s : SessionState) (e : SessionEvent) :
    (e.apply s).resolver.ranges = e.rangesAfter s.resolver.ranges := by
  cases e <;> rfl

theorem SessionEvent.default_apply (s : SessionState) (e : SessionEvent) :
    (e.apply s).resolver.defaultGroupID = s.resolver.defaultGroupID ∧
      (e.apply s).resolver.defaultAuth = s.resolver.defaultAuth := by
  cases e <;> exact ⟨rfl, rfl⟩

/-! ### Runs -/

theorem lastWrite_iff_lastSession {s : SessionState} {es : List SessionEvent} {k : IP}
    {session : Session} :
    LastWrite SessionEvent.apply (fun _ e => e.write k) s es (some session) ↔
      LastSession es k session := by
  have hpost : ∀ s' post, Along SessionEvent.apply (fun _ e => e.write k = none) s' post ↔
      ∀ e ∈ post, ¬ e.Touches k := by
    intro s' post
    simp only [SessionEvent.write_eq_none_iff]
    exact along_const s' post
  constructor
  · rintro ⟨pre, e, post, rfl, hwrite, halong⟩
    cases e with
    | addSession session' =>
      simp only [SessionEvent.write] at hwrite
      split_ifs at hwrite with hk
      obtain rfl := Option.some.inj (Option.some.inj hwrite)
      exact ⟨pre, post, rfl, hk, (hpost _ _).1 halong⟩
    | removeSession clientIP =>
      simp only [SessionEvent.write] at hwrite
      split_ifs at hwrite
      cases hwrite
    | _ => cases hwrite
  · rintro ⟨pre, post, rfl, hk, htouch⟩
    exact ⟨pre, _, post, rfl, by simp [SessionEvent.write, hk], (hpost _ _).2 htouch⟩

/-- The session that an address is resolved to at the end of a run. -/
theorem activeSession_run (defaultGroupID t : ℤ) (es : List SessionEvent) (clientIP : IP)
    (session : Session) :
    let s := run SessionEvent.apply (.start defaultGroupID t) es
    s.resolver.activeSession s.now clientIP = some session ↔
      LastSession es clientIP.canonical session ∧ s.now < session.expiresAt := by
  intro s
  have hlive := Expiring.live_run_iff (fun _ => True) (fun s => s.resolver.sessions)
    (fun k _ e => SessionEvent.write k e) (fun _ _ _ => trivial) SessionEvent.now_le
    (fun s e k _ _ ht => SessionEvent.live_apply s e k ht)
    (s := SessionState.start defaultGroupID t) trivial rfl es clientIP.canonical session le_rfl
  rw [Resolver.activeSession, hlive, lastWrite_iff_lastSession]

theorem ranges_run (defaultGroupID t : ℤ) (es : List SessionEvent) :
    (run SessionEvent.apply (.start defaultGroupID t) es).resolver.ranges = currentRanges es :=
  @run_map _ _ _ SessionEvent.apply (fun s => s.resolver.ranges) SessionEvent.rangesAfter
    SessionEvent.ranges_apply (.start defaultGroupID t) es

theorem default_run (defaultGroupID t : ℤ) (es : List SessionEvent) :
    (run SessionEvent.apply (.start defaultGroupID t) es).resolver.defaultGroupID =
        defaultGroupID ∧
      (run SessionEvent.apply (.start defaultGroupID t) es).resolver.defaultAuth = authNone :=
  run_invariant (fun s => s.resolver.defaultGroupID = defaultGroupID ∧
    s.resolver.defaultAuth = authNone)
    (fun s e h => ⟨(e.default_apply s).1.trans h.1, (e.default_apply s).2.trans h.2⟩) ⟨rfl, rfl⟩ es

/-! ### Evictions -/

/-- Two resolvers that resolve alike from now on. -/
structure SameSessions (s s' : SessionState) : Prop where
  now : s.now = s'.now
  sessions : Expiring.SameFrom Session.expiresAt s.now s.resolver.sessions s'.resolver.sessions
  ranges : s.resolver.ranges = s'.resolver.ranges
  defaultGroupID : s.resolver.defaultGroupID = s'.resolver.defaultGroupID
  defaultAuth : s.resolver.defaultAuth = s'.resolver.defaultAuth

variable {s s' : SessionState}

theorem SameSessions.resolve_eq (h : SameSessions s s') (clientIP : IP) :
    s.resolver.resolve s.now clientIP = s'.resolver.resolve s'.now clientIP := by
  have hactive : s.resolver.activeSession s.now clientIP =
      s'.resolver.activeSession s'.now clientIP := by
    rw [← h.now]
    exact h.sessions s.now le_rfl _
  rw [Resolver.resolve, Resolver.resolve, hactive, Resolver.matchRange, Resolver.matchRange,
    h.ranges, h.defaultGroupID, h.defaultAuth]

theorem SameSessions.apply (h : SameSessions s s') {e : SessionEvent} (he : ¬ e.isEvict) :
    SameSessions (e.apply s) (e.apply s') := by
  obtain ⟨hnow, hsessions, hranges, hgroup, hauth⟩ := h
  cases e with
  | addSession session => exact ⟨hnow, hsessions.insert _ _, hranges, hgroup, hauth⟩
  | removeSession clientIP => exact ⟨hnow, hsessions.erase _, hranges, hgroup, hauth⟩
  | loadRanges ranges => exact ⟨hnow, hsessions, rfl, hgroup, hauth⟩
  | addRange ipRange =>
    exact ⟨hnow, hsessions, congrArg (· ++ [ipRange]) hranges, hgroup, hauth⟩
  | evictExpiredSessions => exact absurd rfl he
  | tick d =>
    exact ⟨congrArg (· + (d : ℤ)) hnow, hsessions.mono (by simp [SessionEvent.apply]), hranges,
      hgroup, hauth⟩

/-- The run without its evictions. -/
theorem sameSessions_filter (s : SessionState) (es : List SessionEvent) :
    SameSessions (run SessionEvent.apply s es)
      (run SessionEvent.apply s (es.filter fun e => !e.isEvict)) := by
  have h := run_filter SameSessions (fun e : SessionEvent => !e.isEvict)
    (fun s s' e he hs => hs.apply (e := e) (by simpa using he)) (fun s s' e he hs => ?_)
    (⟨rfl, Expiring.SameFrom.refl _ _, rfl, rfl, rfl⟩ : SameSessions s s) es
  · simpa using h
  · cases e with
    | evictExpiredSessions =>
      exact ⟨hs.now, hs.sessions.sweep_left le_rfl, hs.ranges, hs.defaultGroupID, hs.defaultAuth⟩
    | _ => exact absurd rfl he

/-- An evicted session has expired. -/
theorem expired_of_evicted {k : IP} {session : Session}
    (h : s.resolver.sessions.lookup k = some session)
    (hgone : (SessionEvent.evictExpiredSessions.apply s).resolver.sessions.lookup k = none) :
    session.expiresAt < s.now := by
  have hkept : (Expiring.sweep Session.expiresAt s.resolver.sessions s.now).lookup k = none := hgone
  rw [Expiring.sweep, Finmap.lookup_retain, h] at hkept
  simpa [Option.filter] using hkept

/-- **Identity resolution follows the priority order.**  At the end of any run an address is
resolved to the session that was added last for it and not removed since, while it has not
expired, else to the first of the current ranges that contains it, else to the default.  Runs
that differ in their evictions only resolve alike, and a session that an eviction removes is
one that no later `Resolve` would have used. -/
theorem resolve_refines_priority (defaultGroupID t : ℤ) (es : List SessionEvent) :
    let s := run SessionEvent.apply (.start defaultGroupID t) es
    (∀ clientIP,
      (∀ session, LastSession es clientIP.canonical session → s.now < session.expiresAt →
        s.resolver.resolve s.now clientIP =
          .ok ⟨session.userID, session.username, session.groupID, authNone⟩) ∧
      ((∀ session, LastSession es clientIP.canonical session → session.expiresAt ≤ s.now) →
        s.resolver.resolve s.now clientIP =
          match (currentRanges es).find? fun ipRange => ipRange.network.contains clientIP with
          | some ipRange => .ok ⟨0, [], ipRange.groupID, ipRange.authMode⟩
          | none => .ok ⟨0, [], defaultGroupID, authNone⟩)) ∧
    (∀ es', es'.filter (fun e => !e.isEvict) = es.filter (fun e => !e.isEvict) →
      let s' := run SessionEvent.apply (.start defaultGroupID t) es'
      ∀ clientIP, s'.resolver.resolve s'.now clientIP = s.resolver.resolve s.now clientIP) ∧
    ∀ k session, s.resolver.sessions.lookup k = some session →
      (SessionEvent.evictExpiredSessions.apply s).resolver.sessions.lookup k = none →
        ∀ es' clientIP, let s' := run SessionEvent.apply s es'
          s'.resolver.activeSession s'.now clientIP ≠ some session := by
  intro s
  refine ⟨fun clientIP => ⟨fun session hlast hnow => ?_, fun hexpired => ?_⟩, fun es' hes' => ?_,
    fun k session hk hgone es' clientIP => ?_⟩
  · have hactive := (activeSession_run defaultGroupID t es clientIP session).2 ⟨hlast, hnow⟩
    rw [Resolver.resolve, hactive]
  · have hnone : s.resolver.activeSession s.now clientIP = none := by
      refine Option.eq_none_iff_forall_ne_some.2 fun session hactive => ?_
      obtain ⟨hlast, hnow⟩ := (activeSession_run defaultGroupID t es clientIP session).1 hactive
      exact absurd hnow (not_lt.2 (hexpired session hlast))
    obtain ⟨hgroup, hauth⟩ : s.resolver.defaultGroupID = defaultGroupID ∧
        s.resolver.defaultAuth = authNone := default_run defaultGroupID t es
    have hmatch : s.resolver.matchRange clientIP =
        (currentRanges es).find? fun ipRange => ipRange.network.contains clientIP := by
      rw [Resolver.matchRange, ranges_run]
    rw [Resolver.resolve, hnone]
    cases hrange : (currentRanges es).find? fun ipRange => ipRange.network.contains clientIP with
    | none => simp only [hmatch, hrange, hgroup, hauth]
    | some ipRange => simp only [hmatch, hrange]
  · intro s' clientIP
    have h := sameSessions_filter (.start defaultGroupID t) es'
    rw [hes'] at h
    exact (h.resolve_eq clientIP).trans ((sameSessions_filter _ es).resolve_eq clientIP).symm
  · intro s' hactive
    have hlive := (Expiring.live_eq_some.1 hactive).2
    exact absurd ((expired_of_evicted hk hgone).trans_le (now_le_run s es')) (not_lt.2 hlive.le)

end DnsFilter
