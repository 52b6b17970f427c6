import DnsFilter.Captive.Server
import DnsFilter.Dns.Delivery

/-!
# Logins take effect

The portal reads the client's address from the text of its peer, the DNS handler from the
peer itself.  A login takes effect when, as long as its session lasts, queries from the
address are resolved to the session, and queries from other addresses as if the login had
not happened.

* `Held`: the session stays in force until it expires;
* `SameExcept`: two runs that differ in the session of one address;
* `login_takes_effect_iff`: logins from an address take effect exactly when the address has
  no zone, or one with a bracket, from which no login succeeds.
-/

namespace DnsFilter

open EventRun

/-- The identity of a session. -/
def Session.identity (session : Session) : Identity where
  userID := session.userID
  username := session.username
  groupID := session.groupID
  authMode := authNone

theorem Resolver.resolve_of_activeSession {r : Resolver} {now : ℤ} {clientIP : IP}
    {session : Session} (h : r.activeSession now clientIP = some session) :
    r.resolve now clientIP = .ok session.identity := by
  simp only [resolve, h, Session.identity]

/-! ### The session in force -/

/-- From now on the session is the one of the address, until it expires. -/
def Held (session : Session) (ip : IP) (v : ℤ × Resolver) : Prop :=
  ∀ t, v.1 ≤ t → v.2.activeSession t ip = if t < session.expiresAt then some session else none

variable {session : Session} {k ip : IP} {v v' : ℤ × Resolver}

theorem held_addSession (r : Resolver) (now : ℤ) (h : session.clientIP.canonical = ip.canonical) :
    Held session ip (now, r.addSession session) := by
  intro t _
  rw [Resolver.activeSession, ← h]
  exact Expiring.live_insert_self r.sessions t _ session

/-! ### The sessions of others -/

/-- The views agree but for the session of one address. -/
structure SameExcept (k : IP) (v v' : ℤ × Resolver) : Prop where
  now : v.1 = v'.1
  ranges : v.2.ranges = v'.2.ranges
  defaultGroupID : v.2.defaultGroupID = v'.2.defaultGroupID
  defaultAuth : v.2.defaultAuth = v'.2.defaultAuth
  sessions : ∀ k' ≠ k, v.2.sessions.lookup k' = v'.2.sessions.lookup k'

theorem SameExcept.loginSession_eq (h : SameExcept k v v') (ttl : ℤ) (r : AuthRequest)
    (user : UserInfo) (clientIP : IP) :
    loginSession v.2 v.1 ttl r user clientIP = loginSession v'.2 v'.1 ttl r user clientIP := by
  have hgroup : v.2.getRangeGroupID clientIP = v'.2.getRangeGroupID clientIP := by
    rw [Resolver.getRangeGroupID, Resolver.getRangeGroupID, Resolver.matchRange,
      Resolver.matchRange, h.ranges, h.defaultGroupID]
  simp only [loginSession, hgroup, h.now]

theorem SameExcept.addSession (h : SameExcept k v v') (session : Session) :
    SameExcept k (v.1, v.2.addSession session) (v'.1, v'.2.addSession session) := by
  refine ⟨h.now, h.ranges, h.defaultGroupID, h.defaultAuth, fun k' hk' => ?_⟩
  by_cases hself : k' = session.clientIP.canonical
  · subst hself
    simp only [Resolver.addSession, Finmap.lookup_insert]
  · simp only [Resolver.addSession, Finmap.lookup_insert_of_ne _ hself]
    exact h.sessions k' hk'

theorem SameExcept.resolve (h : SameExcept k v v') {ip : IP} (hip : ip.canonical ≠ k) :
    v.2.resolve v.1 ip = v'.2.resolve v'.1 ip := by
  have hsession : v.2.activeSession v.1 ip = v'.2.activeSession v'.1 ip := by
    simp only [Resolver.activeSession, Expiring.live, h.now, h.sessions _ hip]
  simp only [Resolver.resolve, hsession, Resolver.matchRange, h.ranges, h.defaultGroupID,
    h.defaultAuth]

theorem sameExcept_addSession (r : Resolver) (now : ℤ) (session : Session) :
    SameExcept session.clientIP.canonical (now, r.addSession session) (now, r) :=
  ⟨rfl, rfl, rfl, rfl, fun _ hk => Finmap.lookup_insert_of_ne _ hk⟩

section Login

variable [Unicode] [Miekg]

/-- A login from an address, in whatever form it is printed. -/
def PortalEvent.LogsInFrom (ip : IP) : PortalEvent → Prop
  | .login auth r => ∃ user clientIP, r.LogsIn auth user clientIP ∧
      clientIP.canonical = ip.canonical
  | _ => False

/-- After a login from `a`, queries from the address of `a` are resolved to its session until
the session ends or the next login from there, and other queries as without the login. -/
def LoginTakesEffect (a : NetAddr) : Prop :=
  ∀ (ttl : ℤ) (s : System) (auth : Authenticator) (r : AuthRequest) (user : UserInfo)
    (clientIP : IP), r.remoteAddr = a.string → r.LogsIn auth user clientIP →
    ∀ es : List PortalEvent,
      let session := loginSession s.handler.identity s.now ttl r user clientIP
      let s' := run (PortalEvent.apply ttl) ((PortalEvent.login auth r).apply ttl s) es
      let s₀ := run (PortalEvent.apply ttl) s es
      ((∀ e ∈ es, ¬ e.LogsInFrom a.ip) → s'.now < s.now + ttl →
          ∀ peer : NetAddr, peer.ip.canonical = a.ip.canonical → peer.zone = a.zone →
            ∀ remoteAddr, remoteAddr = .udp peer ∨ remoteAddr = .tcp peer →
              s'.handler.identity.resolve s'.now (extractIP remoteAddr) = .ok session.identity) ∧
        ∀ ip : IP, ip.canonical ≠ a.ip.canonical →
          s'.handler.identity.resolve s'.now ip = s₀.handler.identity.resolve s₀.now ip

variable {ttl : ℤ}

omit [Unicode] in
theorem Held.onView (h : Held session ip v) {e : PortalEvent} (hlogin : ¬ e.LogsInFrom ip) :
    Held session ip (e.onView ttl v) := by
  cases e with
  | login auth r =>
    simp only [PortalEvent.onView]
    rcases handleAuth_cases auth ttl v.2 v.1 r with ⟨user, clientIP, hlogs, heq⟩ | heq
    · have hne : ip.canonical ≠ clientIP.canonical := fun hip =>
        hlogin ⟨user, clientIP, hlogs, hip.symm⟩
      intro t ht
      rw [← h t ht, heq]
      exact Expiring.live_insert_of_ne v.2.sessions t _ hne
    · rw [heq]
      exact h
  | evictSessions =>
    intro t ht
    rw [← h t ht]
    exact Expiring.live_sweep v.2.sessions ht ip.canonical
  | system e plain =>
    intro t ht
    refine h t (le_trans ?_ ht)
    simp [PortalEvent.onView]

omit [Unicode] in
theorem Held.run (ttl : ℤ) (h : Held session ip v) (es : List PortalEvent)
    (hlogin : ∀ e ∈ es, ¬ e.LogsInFrom ip) :
    Held session ip (run (PortalEvent.onView ttl) v es) := by
  induction es generalizing v with
  | nil => exact h
  | cons e es ih =>
    exact ih (h.onView (hlogin e List.mem_cons_self)) fun e' he' =>
      hlogin e' (List.mem_cons_of_mem e he')

omit [Unicode] in
theorem SameExcept.onView (h : SameExcept k v v') (e : PortalEvent) :
    SameExcept k (e.onView ttl v) (e.onView ttl v') := by
  cases e with
  | login auth r =>
    simp only [PortalEvent.onView]
    by_cases hlogs : ∃ user clientIP, r.LogsIn auth user clientIP
    · obtain ⟨user, clientIP, hlogs⟩ := hlogs
      rw [handleAuth_of_logsIn hlogs, handleAuth_of_logsIn hlogs, h.loginSession_eq]
      exact h.addSession _
    · have hnot : ∀ user clientIP, ¬ r.LogsIn auth user clientIP := fun user clientIP h =>
        hlogs ⟨user, clientIP, h⟩
      rw [handleAuth_of_not_logsIn hnot, handleAuth_of_not_logsIn hnot]
      exact h
  | evictSessions =>
    refine ⟨h.now, h.ranges, h.defaultGroupID, h.defaultAuth, fun k' hk' => ?_⟩
    simp only [PortalEvent.onView, Resolver.evictExpiredSessions, Expiring.sweep,
      Finmap.lookup_retain, h.now, h.sessions k' hk']
  | system e plain =>
    refine ⟨?_, ?_, h.defaultGroupID, h.defaultAuth, h.sessions⟩
    · simp only [PortalEvent.onView, h.now]
    · simp only [PortalEvent.onView, h.ranges]

omit [Unicode] in
theorem SameExcept.run (ttl : ℤ) (h : SameExcept k v v') (es : List PortalEvent) :
    SameExcept k (run (PortalEvent.onView ttl) v es) (run (PortalEvent.onView ttl) v' es) := by
  induction es generalizing v v' with
  | nil => exact h
  | cons e es ih => exact ih (h.onView e)

/-! ### Logins -/

/-- Without a zone both sides read the same address. -/
theorem takesEffect_of_zone_eq_nil {a : NetAddr} (hzone : a.zone = []) : LoginTakesEffect a := by
  intro ttl s auth r user clientIP hremote hlogs es session s' s₀
  have hclient : clientIP.canonical = a.ip.canonical := by
    obtain ⟨host, port, hsplit, rfl⟩ := hlogs.client
    have hplain : ¬ a.Bracketed := by simp [NetAddr.Bracketed, hzone]
    rw [hremote, NetAddr.splitHostPort_string hplain, Option.some.injEq, Prod.mk.injEq] at hsplit
    rw [← hsplit.1, NetAddr.canonical_parseIP_host hzone]
  have hview : s'.portalView = run (PortalEvent.onView ttl)
      (s.now, s.handler.identity.addSession session) es := by
    rw [← handleAuth_of_logsIn hlogs]
    exact portalView_run ttl _ es
  have hview₀ : s₀.portalView = run (PortalEvent.onView ttl) (s.now, s.handler.identity) es :=
    portalView_run ttl s es
  refine ⟨fun hlogin hnow peer hpeer _ remoteAddr hremoteAddr => ?_, fun ip hip => ?_⟩
  · have hip : session.clientIP.canonical = (extractIP remoteAddr).canonical := by
      rcases hremoteAddr with rfl | rfl <;> exact hclient.trans hpeer.symm
    have hsession : session.clientIP.canonical = a.ip.canonical := hclient
    have hheld := (held_addSession s.handler.identity s.now hsession).run ttl es hlogin
    rw [← hview] at hheld
    have hactive := hheld s'.now le_rfl
    rw [if_pos (show s'.now < session.expiresAt from hnow)] at hactive
    refine Resolver.resolve_of_activeSession ?_
    rw [← hactive, Resolver.activeSession, ← hip, hsession]
    rfl
  · have hsame := (sameExcept_addSession s.handler.identity s.now session).run ttl es
    rw [← hview, ← hview₀] at hsame
    exact hsame.resolve (hclient.symm ▸ hip)

/-- With a zone the session is registered for no address. -/
theorem not_takesEffect_of_zone {a : NetAddr} (hzone : a.zone ≠ []) (hplain : ¬ a.Bracketed) :
    ¬ LoginTakesEffect a := by
  intro h
  let auth : Authenticator := fun _ _ => some ⟨1, 0⟩
  let r : AuthRequest := { remoteAddr := a.string, username := [], password := [] }
  have hlogs : r.LogsIn auth ⟨1, 0⟩ .nil :=
    ⟨rfl, rfl, a.host, _, NetAddr.splitHostPort_string hplain, NetAddr.parseIP_host_of_zone hzone⟩
  let s := (PortalEvent.login auth r).apply 1 (System.start 0 openHandler)
  -- the login succeeds, and its session has the key of the nil address
  have hview : s.portalView = (0, (Resolver.new 0).addSession
      (loginSession (Resolver.new 0) 0 1 r ⟨1, 0⟩ .nil)) :=
    Prod.ext rfl (handleAuth_of_logsIn hlogs)
  have hid : s.portalView.2.resolve s.portalView.1 a.ip =
      .ok (loginSession (Resolver.new 0) 0 1 r ⟨1, 0⟩ .nil).identity :=
    (h 1 (System.start 0 openHandler) auth r ⟨1, 0⟩ .nil rfl hlogs []).1 (by simp)
      (show (0 : ℤ) < 0 + 1 by norm_num) a rfl rfl (.udp a) (.inl rfl)
  have hnil : a.ip.canonical ≠ IP.nil.canonical := by
    rw [IP.canonical, a.zoned hzone]
    exact a.ip_ne
  -- the query finds neither a session nor a range
  have hdefault : (Resolver.new 0).resolve 0 a.ip = .ok { groupID := 0, authMode := authNone } :=
    rfl
  rw [hview, (sameExcept_addSession _ _ _).resolve hnil, hdefault] at hid
  have huser : (0 : ℤ) = 1 := congrArg Identity.userID (Except.ok.inj hid)
  cases huser

/-- From an address whose zone has a bracket there is no login. -/
theorem takesEffect_of_bracketed {a : NetAddr} (h : a.Bracketed) : LoginTakesEffect a := by
  intro ttl s auth r user clientIP hremote hlogs
  obtain ⟨host, port, hsplit, -⟩ := hlogs.client
  rw [hremote, NetAddr.splitHostPort_string_of_bracket h] at hsplit
  cases hsplit

/-- **Logins from an address take effect exactly when it has no zone, or one with a bracket.** -/
theorem login_takes_effect_iff (a : NetAddr) : LoginTakesEffect a ↔ a.zone = [] ∨ a.Bracketed := by
  constructor
  · intro h
    by_contra hnot
    obtain ⟨hzone, hplain⟩ := not_or.1 hnot
    exact not_takesEffect_of_zone hzone hplain h
  · rintro (hzone | hbracket)
    · exact takesEffect_of_zone_eq_nil hzone
    · exact takesEffect_of_bracketed hbracket

end Login

/-! ### A login that is lost -/

/-- A client with a link-local address. -/
def linkLocalClient : NetAddr where
  ip := .v6 0xfe800000000000000000000000000001#128
  port := 50000
  zone := "eth0".toList
  ip_ne := by decide
  zoned _ := by decide

/-- The login of `[fe80::1%eth0]:50000` is stored under `<nil>`. -/
theorem zoned_login_lost :
    letI := asciiTable
    letI := plainMiekg
    ¬ LoginTakesEffect linkLocalClient := by
  let := asciiTable
  let := plainMiekg
  refine not_takesEffect_of_zone (by decide) ?_
  simp [NetAddr.Bracketed, linkLocalClient]

end DnsFilter
