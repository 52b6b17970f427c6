import DnsFilter.Captive.Server

/-!
# The group of a login

`handleAuth` asks `GetRangeGroupID` for the group of the client's range and falls back to the
group of the user if the answer is 0, which by its comment says that no range matches.

* `matchRange_eq_some_iff`: the walk over the ranges stops at the first one with the address;
* `groupedByRange_iff`: the group is the one of the range, or else of the user, exactly when no
  range that decides has the group 0 and the default group does not hide the lack of one.
-/

namespace DnsFilter

/-- The first range that contains an address. -/
def FirstRange (ranges : List IPRange) (ip : IP) (rng : IPRange) : Prop :=
  ∃ before after, ranges = before ++ rng :: after ∧ rng.network.contains ip ∧
    ∀ rng' ∈ before, ¬ rng'.network.contains ip

/-- No range contains the address. -/
def OutsideRanges (ranges : List IPRange) (ip : IP) : Prop :=
  ∀ rng ∈ ranges, ¬ rng.network.contains ip

theorem matchRange_eq_some_iff {resolver : Resolver} {ip : IP} {rng : IPRange} :
    resolver.matchRange ip = some rng ↔ FirstRange resolver.ranges ip rng := by
  rw [Resolver.matchRange, List.find?_eq_some_iff_append]
  constructor
  · rintro ⟨hin, before, after, hranges, hbefore⟩
    exact ⟨before, after, hranges, hin, fun rng' hrng' => by simpa using hbefore rng' hrng'⟩
  · rintro ⟨before, after, hranges, hin, hbefore⟩
    exact ⟨hin, before, after, hranges, fun rng' hrng' => by simpa using hbefore rng' hrng'⟩

theorem matchRange_eq_none_iff {resolver : Resolver} {ip : IP} :
    resolver.matchRange ip = none ↔ OutsideRanges resolver.ranges ip := by
  simp [Resolver.matchRange, OutsideRanges]

theorem FirstRange.not_outside {ranges : List IPRange} {ip : IP} {rng : IPRange}
    (h : FirstRange ranges ip rng) : ¬ OutsideRanges ranges ip := by
  obtain ⟨before, after, rfl, hin, -⟩ := h
  exact fun houtside => houtside rng (by simp) hin

theorem firstRange_unique {resolver : Resolver} {ip : IP} {rng rng' : IPRange}
    (h : FirstRange resolver.ranges ip rng) (h' : FirstRange resolver.ranges ip rng') :
    rng = rng' :=
  Option.some.inj ((matchRange_eq_some_iff.2 h).symm.trans (matchRange_eq_some_iff.2 h'))

/-- The login of a request registers a session with the group of the first range that contains
the client, which is also the range of `Resolve`, or with that of the user outside of all
ranges; and `GetRangeGroupID` tells the two cases apart. -/
structure GroupedByRange (auth : Authenticator) (sessionTTL : ℤ) (resolver : Resolver) (now : ℤ)
    (r : AuthRequest) (user : UserInfo) (clientIP : IP) : Prop where
  of_range : ∀ rng, FirstRange resolver.ranges clientIP rng →
    (∃ session, (handleAuth auth sessionTTL resolver now r).1.sessions.lookup clientIP.canonical =
        some session ∧ session.groupID = rng.groupID) ∧
      ∀ t, resolver.activeSession t clientIP = none → resolver.resolve t clientIP =
        .ok { groupID := rng.groupID, authMode := rng.authMode }
  of_outside : OutsideRanges resolver.ranges clientIP →
    ∃ session, (handleAuth auth sessionTTL resolver now r).1.sessions.lookup clientIP.canonical =
      some session ∧ session.groupID = user.groupID
  sentinel : resolver.getRangeGroupID clientIP = 0 ↔ OutsideRanges resolver.ranges clientIP

variable {auth : Authenticator} {sessionTTL : ℤ} {resolver : Resolver} {now : ℤ}
  {r : AuthRequest} {user : UserInfo} {clientIP : IP}

/-- The group of the session that a login registers. -/
theorem session_groupID_iff (h : r.LogsIn auth user clientIP) (groupID : ℤ) :
    (∃ session, (handleAuth auth sessionTTL resolver now r).1.sessions.lookup clientIP.canonical =
        some session ∧ session.groupID = groupID) ↔
      (if resolver.getRangeGroupID clientIP = 0 then user.groupID
        else resolver.getRangeGroupID clientIP) = groupID := by
  rw [handleAuth_of_logsIn h]
  constructor
  · rintro ⟨session, hlookup, rfl⟩
    simp only [Resolver.addSession, loginSession, Finmap.lookup_insert,
      Option.some.injEq] at hlookup
    rw [← hlookup]
  · rintro rfl
    exact ⟨_, Finmap.lookup_insert _, rfl⟩

/-- A login within a range: only a group 0 is lost. -/
theorem groupedByRange_iff_of_firstRange {rng : IPRange} (h : r.LogsIn auth user clientIP)
    (hfirst : FirstRange resolver.ranges clientIP rng) :
    GroupedByRange auth sessionTTL resolver now r user clientIP ↔ rng.groupID ≠ 0 := by
  have hmatch := matchRange_eq_some_iff.2 hfirst
  have hgroup : resolver.getRangeGroupID clientIP = rng.groupID := by
    simp only [Resolver.getRangeGroupID, hmatch]
  have hinside := hfirst.not_outside
  constructor
  · intro hlaw hzero
    exact hinside (hlaw.sentinel.1 (hgroup.trans hzero))
  · intro hne
    refine ⟨fun rng' hrng' => ?_, fun houtside => absurd houtside hinside, ?_⟩
    · obtain rfl := firstRange_unique hfirst hrng'
      refine ⟨(session_groupID_iff h _).2 ?_, fun t ht => Resolver.resolve_of_matchRange ht hmatch⟩
      rw [hgroup, if_neg hne]
    · rw [hgroup]
      exact iff_of_false hne hinside

/-- A login outside of all ranges: the sentinel is lost if there is a default group. -/
theorem groupedByRange_iff_of_outside (h : r.LogsIn auth user clientIP)
    (houtside : OutsideRanges resolver.ranges clientIP) :
    GroupedByRange auth sessionTTL resolver now r user clientIP ↔ resolver.defaultGroupID = 0 := by
  have hmatch := matchRange_eq_none_iff.2 houtside
  have hgroup : resolver.getRangeGroupID clientIP = resolver.defaultGroupID := by
    simp only [Resolver.getRangeGroupID, hmatch]
  constructor
  · intro hlaw
    exact hgroup.symm.trans (hlaw.sentinel.2 houtside)
  · intro hzero
    refine ⟨fun rng hrng => absurd houtside hrng.not_outside,
      fun _ => (session_groupID_iff h _).2 ?_, ?_⟩
    · rw [hgroup, if_pos hzero]
    · exact iff_of_true (hgroup.trans hzero) houtside

/-- **The group of a login is the one of the client's range, or else of the user, exactly when
the first range that contains the client has a group other than 0, and, if none does, the default
group is 0.** -/
theorem groupedByRange_iff (sessionTTL now : ℤ) (resolver : Resolver)
    (h : r.LogsIn auth user clientIP) :
    GroupedByRange auth sessionTTL resolver now r user clientIP ↔
      (∀ rng, FirstRange resolver.ranges clientIP rng → rng.groupID ≠ 0) ∧
        (OutsideRanges resolver.ranges clientIP → resolver.defaultGroupID = 0) := by
  cases hmatch : resolver.matchRange clientIP with
  | some rng =>
    have hfirst := matchRange_eq_some_iff.1 hmatch
    rw [groupedByRange_iff_of_firstRange h hfirst]
    constructor
    · refine fun hne => ⟨fun rng' hrng' => ?_, fun houtside => absurd houtside hfirst.not_outside⟩
      obtain rfl := firstRange_unique hfirst hrng'
      exact hne
    · exact fun hcond => hcond.1 rng hfirst
  | none =>
    have houtside := matchRange_eq_none_iff.1 hmatch
    rw [groupedByRange_iff_of_outside h houtside]
    constructor
    · exact fun hzero => ⟨fun rng hrng => absurd houtside hrng.not_outside, fun _ => hzero⟩
    · exact fun hcond => hcond.2 houtside

/-! ### The login of `admin` -/

/-- `StaticCredentials` with the user `admin`, who has the group 2. -/
def adminOnly : Authenticator := fun username password =>
  if username = "admin".toList ∧ password = "admin123".toList then some ⟨1, 2⟩ else none

/-- A login from `192.168.1.50`. -/
def adminLogin : AuthRequest where
  remoteAddr := "192.168.1.50:12345".toList
  username := "admin".toList
  password := "admin123".toList

theorem adminLogin_logsIn :
    adminLogin.LogsIn adminOnly ⟨1, 2⟩ (parseIP "192.168.1.50".toList) :=
  ⟨rfl, if_pos ⟨rfl, rfl⟩, "192.168.1.50".toList, "12345".toList, by decide +kernel, rfl⟩

/-- With the default group 1 of `main` and no range, the session of `admin` does not get the
group 2. -/
theorem group_of_admin_lost :
    adminLogin.LogsIn adminOnly ⟨1, 2⟩ (parseIP "192.168.1.50".toList) ∧
      ¬ GroupedByRange adminOnly 1 (.new 1) 0 adminLogin ⟨1, 2⟩
        (parseIP "192.168.1.50".toList) := by
  refine ⟨adminLogin_logsIn, fun hlaw => ?_⟩
  have hdefault := (groupedByRange_iff_of_outside adminLogin_logsIn
    (by simp [OutsideRanges, Resolver.new])).1 hlaw
  exact absurd hdefault (by decide)

/-- The default group of `main`, and two ranges; `admin` is in both of them. -/
def lanRanges : Resolver :=
  ((Resolver.new 1).addRange ⟨.v4 0xc0a80000#32 ⟨16, by decide⟩, 3, authCaptivePortal⟩).addRange
    ⟨.v4 0xc0a80100#32 ⟨24, by decide⟩, 4, authNone⟩

/-- The session of `admin` gets the group of the first range. -/
theorem group_of_admin_kept :
    GroupedByRange adminOnly 1 lanRanges 0 adminLogin ⟨1, 2⟩ (parseIP "192.168.1.50".toList) ∧
      lanRanges.getRangeGroupID (parseIP "192.168.1.50".toList) = 3 := by
  have hgroups : ∀ rng ∈ lanRanges.ranges, rng.groupID ≠ 0 := by decide
  have hinside : ¬ OutsideRanges lanRanges.ranges (parseIP "192.168.1.50".toList) :=
    fun houtside => houtside ⟨.v4 0xc0a80000#32 ⟨16, by decide⟩, 3, authCaptivePortal⟩
      (List.mem_cons_self ..) (by decide +kernel)
  refine ⟨(groupedByRange_iff 1 0 lanRanges adminLogin_logsIn).2
    ⟨fun rng ⟨before, after, hranges, _⟩ => hgroups rng ?_, fun houtside => ?_⟩, by decide +kernel⟩
  · rw [hranges]
    exact List.mem_append_right _ List.mem_cons_self
  · exact absurd houtside hinside

end DnsFilter
