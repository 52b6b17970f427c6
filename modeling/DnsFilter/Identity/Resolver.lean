import DnsFilter.Identity.IP
import DnsFilter.Lib.Expiring

/-!
# The identity resolver

`Resolver` of `internal/identity/resolver.go`: the active session of a client first, then
the first range that contains its address, then the default policy.

Sessions are keyed by the printed address, that is by its canonical form.
-/

namespace DnsFilter

/-- `0` applies the policy directly, `1` requires a login. -/
abbrev AuthMode := ℤ

def authNone : AuthMode := 0

def authCaptivePortal : AuthMode := 1

/-- The resolved client. -/
structure Identity where
  userID : ℤ := 0
  username : GoString := []
  groupID : ℤ
  authMode : AuthMode
  deriving DecidableEq

/-- A CIDR range mapped to a group. -/
structure IPRange where
  network : IPNet
  groupID : ℤ
  authMode : AuthMode
  deriving DecidableEq

/-- An authenticated captive portal session. -/
structure Session where
  clientIP : IP
  userID : ℤ
  username : GoString
  groupID : ℤ
  expiresAt : ℤ
  deriving DecidableEq

structure Resolver where
  sessions : Finmap fun _ : IP => Session
  ranges : List IPRange
  defaultGroupID : ℤ
  defaultAuth : AuthMode

namespace Resolver

/-- `NewResolver`. -/
def new (defaultGroupID : ℤ) : Resolver := ⟨∅, [], defaultGroupID, authNone⟩

/-- The session of a client that has not expired. -/
def activeSession (r : Resolver) (now : ℤ) (clientIP : IP) : Option Session :=
  Expiring.live Session.expiresAt r.sessions now clientIP.canonical

/-- The first range that contains an address. -/
def matchRange (r : Resolver) (clientIP : IP) : Option IPRange :=
  r.ranges.find? fun ipRange => ipRange.network.contains clientIP

/-- The identity of a client; no error is ever returned. -/
def resolve (r : Resolver) (now : ℤ) (clientIP : IP) : Except String Identity :=
  match r.activeSession now clientIP with
  | some session =>
      .ok { userID := session.userID, username := session.username, groupID := session.groupID,
            authMode := authNone }
  | none =>
      match r.matchRange clientIP with
      | some ipRange => .ok { groupID := ipRange.groupID, authMode := ipRange.authMode }
      | none => .ok { groupID := r.defaultGroupID, authMode := r.defaultAuth }

/-- Register an authenticated session. -/
def addSession (r : Resolver) (session : Session) : Resolver :=
  { r with sessions := r.sessions.insert session.clientIP.canonical session }

def removeSession (r : Resolver) (clientIP : IP) : Resolver :=
  { r with sessions := r.sessions.erase clientIP.canonical }

/-- Replace all ranges. -/
def loadRanges (r : Resolver) (ranges : List IPRange) : Resolver := { r with ranges := ranges }

/-- Append a range. -/
def addRange (r : Resolver) (ipRange : IPRange) : Resolver :=
  { r with ranges := r.ranges ++ [ipRange] }

/-- Remove the expired sessions, and count them. -/
def evictExpiredSessions (r : Resolver) (now : ℤ) : Resolver × ℕ :=
  let sessions := Expiring.sweep Session.expiresAt r.sessions now
  ({ r with sessions := sessions }, r.sessions.keys.card - sessions.keys.card)

/-- Resolving never fails. -/
theorem resolve_isOk (r : Resolver) (now : ℤ) (clientIP : IP) :
    ∃ ident, r.resolve now clientIP = .ok ident := by
  unfold resolve
  split
  · exact ⟨_, rfl⟩
  · split <;> exact ⟨_, rfl⟩

theorem resolve_of_matchRange {r : Resolver} {now : ℤ} {clientIP : IP} {ipRange : IPRange}
    (hs : r.activeSession now clientIP = none) (hr : r.matchRange clientIP = some ipRange) :
    r.resolve now clientIP = .ok { groupID := ipRange.groupID, authMode := ipRange.authMode } := by
  simp [resolve, hs, hr]

/-- Every session is over at some time. -/
theorem exists_activeSession_eq_none (r : Resolver) (clientIP : IP) :
    ∃ now, r.activeSession now clientIP = none := by
  cases h : r.sessions.lookup clientIP.canonical with
  | none => exact ⟨0, by simp [activeSession, Expiring.live, h]⟩
  | some session => exact ⟨session.expiresAt, by simp [activeSession, Expiring.live, h]⟩

/-- An eviction changes no identity resolved from then on. -/
theorem resolve_evictExpiredSessions (r : Resolver) {t now : ℤ} (h : t ≤ now) (clientIP : IP) :
    (r.evictExpiredSessions t).1.resolve now clientIP = r.resolve now clientIP := by
  have hs : (r.evictExpiredSessions t).1.activeSession now clientIP =
      r.activeSession now clientIP :=
    Expiring.live_sweep r.sessions h clientIP.canonical
  rw [resolve, hs]
  rfl

end Resolver
end DnsFilter
