import DnsFilter.Dns.System
import DnsFilter.Identity.NetAddr
import DnsFilter.Lib.CleanPath
import DnsFilter.Lib.PercentCoding

/-!
# The captive portal

`handleAuth` of `internal/captive/server.go`, and the running system with the portal: logins
and session evictions next to the queries, range changes and the rest.

* `handleAuth_cases`: a request either registers its session or changes nothing;
* `portalView_run`: the clock and the resolver run by themselves, whatever happens to the
  queries, the filter and the cache.
-/

namespace DnsFilter

open GoString EventRun

/-- `UserInfo`. -/
structure UserInfo where
  userID : ℤ
  groupID : ℤ

/-- The answers of `Authenticate` at some moment. -/
abbrev Authenticator := GoString → GoString → Option UserInfo

/-- A request to `/auth`, with its form values. -/
structure AuthRequest where
  method : GoString := "POST".toList
  remoteAddr : GoString
  username : GoString
  password : GoString
  redirect : GoString := []

inductive AuthResponse
  /-- The URL is what `http.Redirect` puts into the `Location`. -/
  | redirect (url : GoString)
  | error (text : GoString) (status : ℕ)
  /-- The page that reports the login. -/
  | page
  deriving DecidableEq

/-- `isValidRedirect`. -/
def isValidRedirect (url : GoString) : Bool :=
  if hasPrefix url "/".toList then !hasPrefix url "//".toList
  else 7 < url.byteLen && (hasPrefix url "http://".toList || hasPrefix url "https://".toList)

/-- `url.Parse` accepts a URL that starts with a slash: there is no control character in front
of the fragment, and the escapes in the path and in the fragment are complete. -/
def parsesPath (url : GoString) : Bool :=
  let u := before url '#'
  let fragment := (url.dropWhile (· ≠ '#')).tail
  !u.any (fun c => c.toNat < 0x20 || c.toNat = 0x7f) &&
    (Percent.unescape (before u '?')).isSome && (Percent.unescape fragment).isSome

/-- What `http.Redirect` makes of a URL: without a scheme and a host, the path is cleaned.  The
portal calls it with paths and with `http` and `https` URLs; the latter have a scheme, or are
refused by `url.Parse`. -/
def httpRedirect (url : GoString) : GoString :=
  if hasPrefix url "/".toList && parsesPath url then
    CleanPath.cleanKeepingSlash (before url '?') ++ url.dropWhile (· ≠ '?')
  else url

/-- The path in front of a query is `/` already. -/
theorem httpRedirect_root (query : GoString) :
    httpRedirect ('/' :: '?' :: query) = '/' :: '?' :: query := by
  have hpath : before ('/' :: '?' :: query) '?' = ['/'] := by simp [before]
  have hquery : List.dropWhile (· ≠ '?') ('/' :: '?' :: query) = '?' :: query := by simp
  have hclean : CleanPath.cleanKeepingSlash ['/'] = ['/'] := by decide
  rw [httpRedirect, hpath, hquery, hclean]
  split_ifs <;> rfl

/-- A URL without a path to clean, or with a clean one. -/
def CleanURL (url : GoString) : Prop :=
  hasPrefix url "/".toList = true → parsesPath url = true → CleanPath.IsClean (before url '?')

instance (url : GoString) : Decidable (CleanURL url) := inferInstanceAs (Decidable (_ → _ → _))

theorem path_append_query (url : GoString) :
    before url '?' ++ url.dropWhile (· ≠ '?') = url := List.takeWhile_append_dropWhile

theorem exists_path {url : GoString} (h : hasPrefix url "/".toList = true) :
    ∃ s, before url '?' = '/' :: s := by
  obtain ⟨s, rfl⟩ := List.isPrefixOf_iff_prefix.1 h
  exact ⟨before s '?', by simp [before]⟩

/-- Exactly these URLs stay as they are. -/
theorem httpRedirect_eq_self_iff {url : GoString} : httpRedirect url = url ↔ CleanURL url := by
  rw [httpRedirect, CleanURL]
  by_cases hparse : hasPrefix url "/".toList = true ∧ parsesPath url = true
  · obtain ⟨s, hpath⟩ := exists_path hparse.1
    have hself : CleanPath.cleanKeepingSlash (before url '?') ++ url.dropWhile (· ≠ '?') = url ↔
        CleanPath.cleanKeepingSlash (before url '?') = before url '?' := by
      conv_lhs => rhs; rw [← path_append_query url]
      exact List.append_left_inj _
    rw [if_pos (by simpa using hparse), hself, hpath, CleanPath.cleanKeepingSlash_eq_self_iff]
    exact ⟨fun h _ _ => h, fun h => h hparse.1 hparse.2⟩
  · rw [if_neg (by simpa using hparse)]
    exact iff_of_true rfl fun hslash hparses => absurd ⟨hslash, hparses⟩ hparse

example : httpRedirect "/a/../b?c=..//".toList = "/b?c=..//".toList := by decide +kernel

/-- A redirect only removes characters of the path. -/
theorem httpRedirect_sublist (url : GoString) : (httpRedirect url).Sublist url := by
  rw [httpRedirect]
  split_ifs with hparse
  · obtain ⟨s, hpath⟩ := exists_path (Bool.and_eq_true_iff.1 hparse).1
    conv_rhs => rw [← path_append_query url]
    rw [hpath]
    exact (CleanPath.cleanKeepingSlash_sublist s).append_right _
  · exact List.Sublist.refl url

/-- The group of the first range that contains an address, else the default group. -/
def Resolver.getRangeGroupID (r : Resolver) (ip : IP) : ℤ :=
  match r.matchRange ip with
  | some rng => rng.groupID
  | none => r.defaultGroupID

/-- The session of a login. -/
def loginSession (resolver : Resolver) (now sessionTTL : ℤ) (r : AuthRequest) (user : UserInfo)
    (clientIP : IP) : Session :=
  let groupID := resolver.getRangeGroupID clientIP
  { clientIP := clientIP
    userID := user.userID
    username := r.username
    groupID := if groupID = 0 then user.groupID else groupID
    expiresAt := now + sessionTTL }

/-- `handleAuth`: the resolver afterwards, and the response. -/
def handleAuth (auth : Authenticator) (sessionTTL : ℤ) (resolver : Resolver) (now : ℤ)
    (r : AuthRequest) : Resolver × AuthResponse :=
  if r.method ≠ "POST".toList then (resolver, .redirect (httpRedirect "/".toList))
  else
    match auth r.username r.password with
    | none =>
        (resolver,
          .redirect (httpRedirect
            ("/?error=Usuário ou senha inválidos&redirect=".toList ++ r.redirect)))
    | some user =>
        match splitHostPort r.remoteAddr with
        | none => (resolver, .error "Erro interno".toList 500)
        | some (host, _) =>
            let clientIP := parseIP host
            (resolver.addSession (loginSession resolver now sessionTTL r user clientIP),
              if r.redirect ≠ [] ∧ isValidRedirect r.redirect then
                .redirect (httpRedirect r.redirect)
              else .page)

/-- A request that logs its client in. -/
structure AuthRequest.LogsIn (r : AuthRequest) (auth : Authenticator) (user : UserInfo)
    (clientIP : IP) : Prop where
  method : r.method = "POST".toList
  authenticated : auth r.username r.password = some user
  client : ∃ host port, splitHostPort r.remoteAddr = some (host, port) ∧ parseIP host = clientIP

section Auth

variable {auth : Authenticator} {sessionTTL : ℤ} {resolver : Resolver} {now : ℤ}
  {r : AuthRequest} {user : UserInfo} {clientIP : IP}

theorem handleAuth_of_logsIn (h : r.LogsIn auth user clientIP) :
    (handleAuth auth sessionTTL resolver now r).1 =
      resolver.addSession (loginSession resolver now sessionTTL r user clientIP) := by
  obtain ⟨host, port, hsplit, rfl⟩ := h.client
  rw [handleAuth, if_neg (not_not.2 h.method)]
  simp only [h.authenticated, hsplit]

/-- A request registers its session, or does not log in and changes nothing. -/
theorem handleAuth_cases (auth : Authenticator) (sessionTTL : ℤ) (resolver : Resolver) (now : ℤ)
    (r : AuthRequest) :
    (∃ user clientIP, r.LogsIn auth user clientIP ∧
        (handleAuth auth sessionTTL resolver now r).1 =
          resolver.addSession (loginSession resolver now sessionTTL r user clientIP)) ∨
      (handleAuth auth sessionTTL resolver now r).1 = resolver := by
  by_cases hmethod : r.method = "POST".toList
  · cases hauth : auth r.username r.password with
    | none =>
      refine .inr ?_
      rw [handleAuth, if_neg (not_not.2 hmethod)]
      simp only [hauth]
    | some user =>
      cases hsplit : splitHostPort r.remoteAddr with
      | none =>
        refine .inr ?_
        rw [handleAuth, if_neg (not_not.2 hmethod)]
        simp only [hauth, hsplit]
      | some peer =>
        have hlogs : r.LogsIn auth user (parseIP peer.1) :=
          ⟨hmethod, hauth, peer.1, peer.2, hsplit, rfl⟩
        exact .inl ⟨user, parseIP peer.1, hlogs, handleAuth_of_logsIn hlogs⟩
  · exact .inr (by rw [handleAuth, if_pos hmethod])

theorem handleAuth_of_not_logsIn (h : ∀ user clientIP, ¬ r.LogsIn auth user clientIP) :
    (handleAuth auth sessionTTL resolver now r).1 = resolver := by
  rcases handleAuth_cases auth sessionTTL resolver now r with ⟨user, clientIP, hlogs, -⟩ | heq
  · exact absurd hlogs (h user clientIP)
  · exact heq

end Auth

/-! ### The system with the portal -/

section Portal

variable [Unicode] [Miekg]

/-- The events of the rest of the program: of those of the resolver, only the creation of
ranges. -/
def SystemEvent.isPlain : SystemEvent → Bool
  | .identity (.createRange _ _ _ _) => true
  | .identity _ => false
  | _ => true

inductive PortalEvent
  /-- A request to `/auth`, and what the authenticator says at that moment. -/
  | login (auth : Authenticator) (r : AuthRequest)
  /-- `EvictExpiredSessions`. -/
  | evictSessions
  | system (e : SystemEvent) (plain : e.isPlain = true)

def PortalEvent.apply (sessionTTL : ℤ) (s : System) : PortalEvent → System
  | .login auth r =>
      { s with handler := { s.handler with
          identity := (handleAuth auth sessionTTL s.handler.identity s.now r).1 } }
  | .evictSessions =>
      { s with handler := { s.handler with
          identity := (s.handler.identity.evictExpiredSessions s.now).1 } }
  | .system e _ => e.apply s

/-- A handler before any login. -/
def Handler.loggedOut (h : Handler) : Handler :=
  { h with identity := { h.identity with sessions := ∅ } }

/-! ### The clock and the resolver -/

/-- The time that passes in an event. -/
def SystemEvent.elapsed : SystemEvent → ℕ
  | .tick d => d
  | _ => 0

/-- The ranges after an event. -/
def SystemEvent.editRanges (ranges : List IPRange) : SystemEvent → List IPRange
  | .identity (.createRange cidr groupID authMode stored) =>
      match parseCIDR cidr with
      | none => ranges
      | some cidrNet => if stored then ranges ++ [⟨cidrNet, groupID, authMode⟩] else ranges
  | .loadRanges ranges => ranges
  | _ => ranges

/-- The clock and the resolver. -/
def System.portalView (s : System) : ℤ × Resolver := (s.now, s.handler.identity)

/-- The effect of an event on them. -/
def PortalEvent.onView (sessionTTL : ℤ) (v : ℤ × Resolver) : PortalEvent → ℤ × Resolver
  | .login auth r => (v.1, (handleAuth auth sessionTTL v.2 v.1 r).1)
  | .evictSessions => (v.1, (v.2.evictExpiredSessions v.1).1)
  | .system e _ => (v.1 + e.elapsed, { v.2 with ranges := e.editRanges v.2.ranges })

omit [Unicode] in
theorem identity_createRange (resolver : Resolver) (cidr : GoString) (groupID : ℤ)
    (authMode : AuthMode) (stored : Bool) :
    (IdentityEvent.createRange cidr groupID authMode stored).apply resolver =
      { resolver with
        ranges := (SystemEvent.identity
          (.createRange cidr groupID authMode stored)).editRanges resolver.ranges } := by
  simp only [IdentityEvent.apply, SystemEvent.editRanges]
  cases parseCIDR cidr with
  | none => rfl
  | some cidrNet => cases stored <;> rfl

theorem portalView_apply (sessionTTL : ℤ) (s : System) (e : PortalEvent) :
    (e.apply sessionTTL s).portalView = e.onView sessionTTL s.portalView := by
  cases e with
  | login auth r => rfl
  | evictSessions => rfl
  | system e plain =>
    -- queries and the cache: the frame of `SystemEvent.apply`
    have hquiet : ¬ e.isConfig → e.elapsed = 0 → e.editRanges s.handler.identity.ranges =
        s.handler.identity.ranges →
        (e.apply s).portalView = (s.now + e.elapsed,
          { s.handler.identity with ranges := e.editRanges s.handler.identity.ranges }) := by
      intro hconfig helapsed hranges
      obtain ⟨hnow, cache, hhandler⟩ := SystemEvent.frame s hconfig
      simp [System.portalView, hnow, hhandler, helapsed, hranges]
    cases e with
    | tick d => rfl
    | filter edit => simp [PortalEvent.apply, PortalEvent.onView, SystemEvent.apply,
        System.portalView, SystemEvent.elapsed, SystemEvent.editRanges]
    | loadRanges ranges => simp [PortalEvent.apply, PortalEvent.onView, SystemEvent.apply,
        System.portalView, SystemEvent.elapsed, SystemEvent.editRanges, Resolver.loadRanges]
    | identity e =>
      cases e with
      | createRange cidr groupID authMode stored =>
        simp [PortalEvent.apply, PortalEvent.onView, SystemEvent.apply, System.portalView,
          SystemEvent.elapsed, identity_createRange]
      | _ => cases plain
    | _ => exact hquiet (by simp [SystemEvent.isConfig]) rfl rfl

theorem portalView_run (sessionTTL : ℤ) (s : System) (es : List PortalEvent) :
    (run (PortalEvent.apply sessionTTL) s es).portalView =
      run (PortalEvent.onView sessionTTL) s.portalView es :=
  run_map (portalView_apply sessionTTL) s es

end Portal
end DnsFilter
