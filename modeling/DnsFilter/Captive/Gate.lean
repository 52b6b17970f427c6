import DnsFilter.Captive.Server
import DnsFilter.Dns.Delivery
import DnsFilter.Dns.Supremacy

/-!
# The gate of the captive portal

In every run of the system with the portal, a client whose first matching range requires a
login gets the portal's reply, unless a login from its address has not expired yet.

* `Served`: whoever got, or may still get, another reply than the portal's satisfied a
  property when the query arrived;
* `SessionsFromLogins`: every session stems from an earlier login;
* `gate_safety` puts the two together.
-/

namespace DnsFilter

open EventRun

section Gate

variable [Unicode] [Miekg]

/-- The client is resolved to an identity that needs no login. -/
def System.Opens (s : System) (inc : Incoming) : Prop :=
  ∃ id, s.handler.identity.resolve s.now inc.clientIP = .ok id ∧ id.authMode ≠ authCaptivePortal

/-! ### Who is served -/

/-- The queries in progress, and those with another reply than the portal's, satisfy `P`. -/
structure Served (P : Incoming → Prop) (s : System) : Prop where
  running : ∀ call q st, s.running call = some (q, st) → P q.incoming
  replies : ∀ w ∈ s.replies, w.source = .captive ∨ P w.incoming

variable {P P' : Incoming → Prop} {s : System}

omit [Unicode] in
theorem Served.mono (h : Served P s) (hP : ∀ inc, P inc → P' inc) : Served P' s where
  running call q st hq := hP _ (h.running call q st hq)
  replies w hw := (h.replies w hw).imp_right (hP _)

omit [Unicode] in
theorem Served.update (h : Served P s) (call : ℕ) (next : Option (Query × Stage))
    (hnext : ∀ q st, next = some (q, st) → P q.incoming) :
    Served P { s with running := Function.update s.running call next } := by
  refine ⟨fun call' q st hq => ?_, h.replies⟩
  by_cases hc : call' = call
  · subst hc
    simp only [Function.update_self] at hq
    exact hnext q st hq
  · simp only [Function.update_of_ne hc] at hq
    exact h.running call' q st hq

omit [Unicode] in
theorem Served.write (h : Served P s) {out : Output}
    (hout : out.reply.source = .captive ∨ P out.reply.incoming) : Served P (s.write out) := by
  refine ⟨h.running, fun w hw => ?_⟩
  rcases List.mem_append.1 hw with hw | hw
  · exact h.replies w hw
  · rw [List.mem_singleton.1 hw]
    exact hout

omit [Unicode] in
theorem Served.congr (h : Served P s) {s' : System} (hrunning : s'.running = s.running)
    (hreplies : s'.replies = s.replies) : Served P s' :=
  ⟨fun call q st hq => h.running call q st (hrunning ▸ hq), fun w hw => h.replies w (hreplies ▸ hw)⟩

/-- A query that is not sent to the portal comes from a client that needs no login. -/
theorem opens_of_arrive (s : System) (inc : Incoming) :
    (∀ out, s.handler.arrive s.now inc = .inl out →
        out.reply.incoming = inc ∧ (out.reply.source = .captive ∨ s.Opens inc)) ∧
      ∀ q, s.handler.arrive s.now inc = .inr q → q.incoming = inc ∧ s.Opens inc := by
  obtain ⟨id, hid⟩ := s.handler.identity.resolve_isOk s.now inc.clientIP
  simp only [Handler.arrive, Handler.admission, hid]
  by_cases hcap : id.authMode = authCaptivePortal
  · simp only [hcap, if_true]
    refine ⟨fun out ho => ?_, fun q hq => ?_⟩
    · cases ho
      exact ⟨rfl, .inl rfl⟩
    · cases hq
  · have hopens : s.Opens inc := ⟨id, hid, hcap⟩
    simp only [hcap, if_false]
    split_ifs
    · refine ⟨fun out ho => ?_, fun q hq => ?_⟩
      · cases ho
        exact ⟨rfl, .inr hopens⟩
      · cases hq
    · refine ⟨fun out ho => ?_, fun q hq => ?_⟩
      · cases ho
      · cases hq
        exact ⟨rfl, hopens⟩

theorem Served.arrive (h : Served P s) {inc : Incoming}
    (hP : inc.call = s.calls → s.Opens inc → P inc) :
    Served P ((SystemEvent.arrive inc).apply s) := by
  simp only [SystemEvent.apply]
  split_ifs with hcall
  · exact h
  · have hs : Served P { s with calls := s.calls + 1 } := h.congr rfl rfl
    obtain ⟨hout, hquery⟩ := opens_of_arrive s inc
    cases ho : s.handler.arrive s.now inc with
    | inl out =>
      obtain ⟨hinc, hsource⟩ := hout out ho
      exact hs.write (hsource.imp_right fun hopens => hinc ▸ hP (not_not.1 hcall) hopens)
    | inr q =>
      obtain ⟨hinc, hopens⟩ := hquery q ho
      refine hs.update inc.call (some (q, .lookup)) fun q' st heq => ?_
      cases heq
      exact hinc ▸ hP (not_not.1 hcall) hopens

theorem Served.lookup (h : Served P s) (call : ℕ) :
    Served P ((SystemEvent.lookup call).apply s) := by
  simp only [SystemEvent.apply]
  split
  · rename_i q hrun
    have hq := h.running call q .lookup hrun
    have hs : Served P { s with
        handler := (s.handler.lookup s.redis s.now q).2.1
        redis := (s.handler.lookup s.redis s.now q).2.2 } := h.congr rfl rfl
    split
    · rename_i out hout
      obtain ⟨msg, -, rfl⟩ := Option.map_eq_some_iff.1 hout
      exact (hs.update call none (by simp)).write (.inr hq)
    · exact hs.update call (some (q, .upstream)) fun q' st heq => by cases heq; exact hq
  · exact h

theorem Served.exchanged (h : Served P s) (call : ℕ) (answers : List (Option Received)) :
    Served P ((SystemEvent.exchange call answers).apply s) := by
  simp only [SystemEvent.apply]
  split
  · rename_i q hrun
    have hq := h.running call q .upstream hrun
    have hout : (s.handler.finish s.redis s.now q
        ((resolveUpstream answers).map Received.msg)).1.reply.incoming = q.incoming := by
      cases resolveUpstream answers <;> rfl
    refine Served.write ?_ (.inr (hout ▸ hq))
    exact (h.update call none (by simp)).congr rfl rfl
  · exact h

theorem Served.apply (h : Served P s) (e : SystemEvent)
    (hP : ∀ inc, e = .arrive inc → inc.call = s.calls → s.Opens inc → P inc) :
    Served P (e.apply s) := by
  cases e with
  | arrive inc => exact h.arrive (hP inc rfl)
  | lookup call => exact h.lookup call
  | exchange call answers => exact h.exchanged call answers
  | _ => exact h.congr rfl rfl

/-! ### Where the sessions come from -/

/-- After the first events `pre` of a run there was a login from `clientIP`, whose session
ends at `expiresAt`. -/
def LoggedInAfter (ttl : ℤ) (v : ℤ × Resolver) (es pre : List PortalEvent) (clientIP : IP)
    (expiresAt : ℤ) : Prop :=
  ∃ auth r user, pre ++ [.login auth r] <+: es ∧ r.LogsIn auth user clientIP ∧
    expiresAt = (run (PortalEvent.onView ttl) v pre).1 + ttl

/-- Every session was registered by a login. -/
def SessionsFromLogins (ttl : ℤ) (v : ℤ × Resolver) (es : List PortalEvent) (r : Resolver) : Prop :=
  ∀ k session, r.sessions.lookup k = some session →
    ∃ pre clientIP, clientIP.canonical = k ∧ LoggedInAfter ttl v es pre clientIP session.expiresAt

variable {ttl : ℤ} {v : ℤ × Resolver} {es : List PortalEvent} {r r' : Resolver}

omit [Unicode] in
/-- Sessions that stay keep their origin. -/
theorem SessionsFromLogins.sub (h : SessionsFromLogins ttl v es r)
    (hsub : ∀ k session, r'.sessions.lookup k = some session → r.sessions.lookup k = some session)
    (e : PortalEvent) : SessionsFromLogins ttl v (es ++ [e]) r' := by
  intro k session hlookup
  obtain ⟨pre, clientIP, hk, auth, req, user, hpre, rest⟩ := h k session (hsub k session hlookup)
  exact ⟨pre, clientIP, hk, auth, req, user, hpre.trans (List.prefix_append es [e]), rest⟩

omit [Unicode] in
/-- One event: a login adds its session, an eviction removes some, nothing else touches
them. -/
theorem SessionsFromLogins.onView (e : PortalEvent)
    (h : SessionsFromLogins ttl v es (run (PortalEvent.onView ttl) v es).2) :
    SessionsFromLogins ttl v (es ++ [e])
      (e.onView ttl (run (PortalEvent.onView ttl) v es)).2 := by
  cases e with
  | login auth req =>
    simp only [PortalEvent.onView]
    rcases handleAuth_cases auth ttl (run (PortalEvent.onView ttl) v es).2
      (run (PortalEvent.onView ttl) v es).1 req with ⟨user, clientIP, hlogs, heq⟩ | heq
    · rw [heq]
      intro k session hlookup
      -- the login replaces the session of its own address only
      by_cases hk : k = clientIP.canonical
      · subst hk
        simp only [Resolver.addSession, loginSession, Finmap.lookup_insert,
          Option.some.injEq] at hlookup
        subst hlookup
        exact ⟨es, clientIP, rfl, auth, req, user, List.prefix_rfl, hlogs, rfl⟩
      · refine h.sub (fun k session hsession => hsession) _ k session ?_
        rwa [Resolver.addSession, loginSession, Finmap.lookup_insert_of_ne _ hk] at hlookup
    · rw [heq]
      exact h.sub (fun _ _ hsession => hsession) _
  | evictSessions => exact h.sub (fun _ _ hsession => Expiring.lookup_of_lookup_sweep hsession) _
  | system e plain => exact h.sub (fun _ _ hsession => hsession) _

omit [Unicode] in
theorem sessionsFromLogins_run (ttl : ℤ) (v : ℤ × Resolver) (hv : v.2.sessions = ∅)
    (es : List PortalEvent) :
    SessionsFromLogins ttl v es (run (PortalEvent.onView ttl) v es).2 := by
  refine trace_invariant (fun es (v' : ℤ × Resolver) => SessionsFromLogins ttl v es v'.2) ?_
    (fun es e h => h.onView e) es
  intro k session hlookup
  rw [hv] at hlookup
  cases hlookup

/-! ### The gate -/

/-- The call arrived after the first events `pre` of a run, as the one with its number. -/
def ReachesAfter (ttl : ℤ) (s : System) (es pre : List PortalEvent) (inc : Incoming) : Prop :=
  pre ++ [.system (.arrive inc) rfl] <+: es ∧ (run (PortalEvent.apply ttl) s pre).calls = inc.call

theorem calls_le_apply_portal (ttl : ℤ) (s : System) (e : PortalEvent) :
    s.calls ≤ (e.apply ttl s).calls := by
  cases e with
  | system e plain => exact calls_le_apply s e
  | _ => exact le_rfl

/-- A call arrives once. -/
theorem ReachesAfter.unique {s : System} {pre pre' : List PortalEvent} {inc : Incoming}
    (h : ReachesAfter ttl s es pre inc) (h' : ReachesAfter ttl s es pre' inc) : pre = pre' := by
  refine eq_of_counter (calls_le_apply_portal ttl) s h.1 h'.1 ?_ ?_ (h.2.trans h'.2.symm)
  · rw [run_concat]
    exact lt_calls_arrive h.2
  · rw [run_concat]
    exact lt_calls_arrive h'.2

/-- The call arrived during the run, and its client needed no login at that moment. -/
def OpenedDuring (ttl : ℤ) (s : System) (es : List PortalEvent) (inc : Incoming) : Prop :=
  ∃ pre, ReachesAfter ttl s es pre inc ∧ (run (PortalEvent.apply ttl) s pre).Opens inc

theorem served_run (ttl t : ℤ) (h : Handler) (es : List PortalEvent) :
    Served (OpenedDuring ttl (System.start t h) es)
      (run (PortalEvent.apply ttl) (System.start t h) es) := by
  refine trace_invariant (fun es s => Served (OpenedDuring ttl (System.start t h) es) s) ?_ ?_ es
  · refine ⟨?_, ?_⟩ <;> simp [System.start]
  · intro es e hs
    have hmono : Served (OpenedDuring ttl (System.start t h) (es ++ [e]))
        (run (PortalEvent.apply ttl) (System.start t h) es) := by
      refine hs.mono ?_
      rintro inc ⟨pre, ⟨hpre, hcall⟩, hopens⟩
      exact ⟨pre, ⟨hpre.trans (List.prefix_append es [e]), hcall⟩, hopens⟩
    cases e with
    | system e plain =>
      refine hmono.apply e fun inc he hcall hopens => ?_
      subst he
      exact ⟨es, ⟨List.prefix_rfl, hcall.symm⟩, hopens⟩
    | _ => exact hmono.congr rfl rfl

omit [Unicode] in
/-- A client that needs no login though its first range requires one has a session. -/
theorem exists_activeSession_of_opens {s : System} {inc : Incoming} {ipRange : IPRange}
    (h : s.Opens inc) (hrange : s.handler.identity.matchRange inc.clientIP = some ipRange)
    (hcap : ipRange.authMode = authCaptivePortal) :
    ∃ session, s.handler.identity.activeSession s.now inc.clientIP = some session := by
  obtain ⟨id, hid, hmode⟩ := h
  by_contra hnone
  have hsession : s.handler.identity.activeSession s.now inc.clientIP = none :=
    Option.eq_none_iff_forall_ne_some.2 fun session hs => hnone ⟨session, hs⟩
  rw [Resolver.resolve_of_matchRange hsession hrange] at hid
  cases hid
  exact hmode hcap

/-- **Gate safety.**  A query that was answered with anything but the portal's reply, from an
address whose first matching range required a login when the query arrived, came less than
the session TTL after an earlier successful login from the same address. -/
theorem gate_safety (ttl t : ℤ) (h : Handler) (es : List PortalEvent) :
    let start := System.start t h.loggedOut
    ∀ w ∈ (run (PortalEvent.apply ttl) start es).replies, w.source ≠ .captive →
      ∃ pre, ReachesAfter ttl start es pre w.incoming ∧
        (∀ pre', ReachesAfter ttl start es pre' w.incoming → pre' = pre) ∧
        let s := run (PortalEvent.apply ttl) start pre
        ∀ ipRange, s.handler.identity.matchRange w.incoming.clientIP = some ipRange →
          ipRange.authMode = authCaptivePortal →
          ∃ before auth r user clientIP, before ++ [.login auth r] <+: pre ∧
            r.LogsIn auth user clientIP ∧ clientIP.string = w.incoming.clientIP.string ∧
            s.now < (run (PortalEvent.apply ttl) start before).now + ttl := by
  intro start w hw hsource
  have hserved := (served_run ttl t h.loggedOut es).replies w hw
  obtain ⟨pre, hpre, hopens⟩ := hserved.resolve_left hsource
  refine ⟨pre, hpre, fun pre' hpre' => hpre'.unique hpre, ?_⟩
  intro s ipRange hrange hcap
  -- the range alone would have sent the client to the portal
  obtain ⟨session, hsession⟩ := exists_activeSession_of_opens hopens hrange hcap
  obtain ⟨hlookup, hlive⟩ := Expiring.live_eq_some.1 hsession
  have hfrom := sessionsFromLogins_run ttl start.portalView rfl pre
  rw [← portalView_run] at hfrom
  obtain ⟨before, clientIP, hcanonical, auth, r, user, hbefore, hlogs, hexpires⟩ :=
    hfrom _ session hlookup
  refine ⟨before, auth, r, user, clientIP, hbefore, hlogs, string_eq_string_iff.2 hcanonical, ?_⟩
  rw [hexpires, ← portalView_run] at hlive
  exact hlive

end Gate

/-! ### A login that opens the gate -/

/-- Clients in `10.0.0.0/8` have to log in. -/
def portalHandler : Handler :=
  { openHandler with
    identity := { Resolver.new 1 with ranges := [⟨.v4 0x0a000000#32 8, 1, authCaptivePortal⟩] } }

/-- A login from `10.0.0.1`. -/
def typoLogin : AuthRequest where
  remoteAddr := "10.0.0.1:50000".toList
  username := "ana".toList
  password := "x".toList

/-- The login, and a query that is answered afterwards. -/
def loginRun : List (@PortalEvent plainMiekg) :=
  letI := plainMiekg
  [.login (fun _ _ => some ⟨7, 0⟩) typoLogin, .system (.arrive typoQuery) rfl,
    .system (.lookup 0) rfl, .system (.exchange 0 [some ⟨{ response := true },
          { response := true }, rfl⟩]) rfl]

/-- The login explains the answer. -/
theorem gate_opened_by_login :
    letI := asciiTable
    letI := plainMiekg
    let start := System.start 0 portalHandler.loggedOut
    ∃ w ∈ (run (PortalEvent.apply 3600) start loginRun).replies, w.source = .upstream ∧
      ∃ before auth r user clientIP, before ++ [.login auth r] <+: loginRun.take 1 ∧
        r.LogsIn auth user clientIP ∧ clientIP.string = w.incoming.clientIP.string ∧
        (run (PortalEvent.apply 3600) start (loginRun.take 1)).now <
          (run (PortalEvent.apply 3600) start before).now + 3600 := by
  let := asciiTable
  let := plainMiekg
  obtain ⟨pre, -, hunique, hgate⟩ := gate_safety 3600 0 portalHandler loginRun _
    (List.mem_singleton_self _) (by decide)
  obtain rfl := hunique (loginRun.take 1) ⟨⟨loginRun.drop 2, rfl⟩, rfl⟩
  exact ⟨_, List.mem_singleton_self _, rfl,
    hgate ⟨.v4 0x0a000000#32 8, 1, authCaptivePortal⟩ rfl rfl⟩

end DnsFilter
