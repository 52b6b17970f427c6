import DnsFilter.Api.Revocation
import DnsFilter.Captive.Login
import DnsFilter.Store.Integrity

/-!
# Portal sessions and the accounts behind them

`DBAuthenticator` of `internal/captive/db_auth.go`, which lets the users of the dashboard log in
at the portal, and the portal next to the handlers that change these users.

* `dbAuthenticate_eq`: the portal lets in whom the dashboard lets in;
* `AccountEvent`: the clock, the dashboard with its accounts, logins at the portal, evictions
  and new ranges;
* `session_in_force_iff`: which session an address has at the end of a run.  It is that of the
  last login from there, of a user who was active with this password at the time, until the TTL
  is over, whatever has happened to the account since.
-/

namespace DnsFilter

open EventRun GoString

section Accounts

variable [Bcrypt]

/-- `DBAuthenticator.Authenticate`; `dbFails` says that the query fails. -/
def dbAuthenticate (users : List AdminUserRow) (dbFails : Bool) : Authenticator :=
  fun username password =>
    if dbFails then none
    else
      match users.find? fun user => user.username = username ∧ user.active with
      | none => none
      | some user =>
          if Bcrypt.compareHashAndPassword user.password password then
            some { userID := user.id, groupID := 0 }
          else none

/-- The portal lets in whom the dashboard lets in, with no group of their own. -/
theorem dbAuthenticate_eq (users : List AdminUserRow) (username password : GoString) :
    dbAuthenticate users false username password =
      (authenticateAdmin users username password).map fun user => ⟨user.id, 0⟩ := by
  unfold dbAuthenticate authenticateAdmin
  rw [if_neg Bool.false_ne_true]
  cases users.find? fun user => user.username = username ∧ user.active with
  | none => rfl
  | some user =>
    dsimp only
    split_ifs <;> rfl

/-- A user who may log in with this name and password. -/
def MayLogIn (users : List AdminUserRow) (username password : GoString) (userID : ℤ) : Prop :=
  ∃ user ∈ users, user.id = userID ∧ user.username = username ∧ user.active = true ∧
    Bcrypt.compareHashAndPassword user.password password = true

/-- The unique constraint on `admin_users.username`. -/
def UniqueNames (users : List AdminUserRow) : Prop := (users.map (·.username)).Nodup

instance (users : List AdminUserRow) : Decidable (UniqueNames users) :=
  inferInstanceAs (Decidable (List.Nodup _))

omit [Bcrypt] in
theorem UniqueNames.eq {users : List AdminUserRow} (h : UniqueNames users) {a b : AdminUserRow}
    (ha : a ∈ users) (hb : b ∈ users) (hab : a.username = b.username) : a = b :=
  List.inj_on_of_nodup_map h ha hb hab

/-- The authenticator looks at the only user of that name. -/
theorem dbAuthenticate_eq_some {users : List AdminUserRow} (hunique : UniqueNames users)
    {dbFails : Bool} {username password : GoString} {info : UserInfo} :
    dbAuthenticate users dbFails username password = some info ↔
      dbFails = false ∧ MayLogIn users username password info.userID ∧ info.groupID = 0 := by
  unfold dbAuthenticate MayLogIn
  rcases Bool.eq_false_or_eq_true dbFails with rfl | rfl
  · simp
  rw [if_neg Bool.false_ne_true, eq_self_iff_true, true_and]
  cases hfind : users.find? fun user => user.username = username ∧ user.active with
  | none =>
    simp only [reduceCtorEq, false_iff]
    rintro ⟨⟨user, huser, -, hname, hactive, -⟩, -⟩
    simpa [hname, hactive] using List.find?_eq_none.1 hfind user huser
  | some user =>
    have hmem := List.mem_of_find?_eq_some hfind
    have huser := List.find?_some hfind
    simp only [decide_eq_true_eq] at huser
    constructor
    · intro h
      simp only at h
      split_ifs at h with hhash
      cases h
      exact ⟨⟨user, hmem, rfl, huser.1, huser.2, hhash⟩, rfl⟩
    · rintro ⟨⟨user', huser', hid, hname, -, hhash⟩, hgroup⟩
      obtain rfl := hunique.eq hmem huser' (huser.1.trans hname.symm)
      obtain ⟨userID, groupID⟩ := info
      simp only at hid hgroup
      simp only [hhash, if_true, hid, hgroup]

/-! ### Account changes -/

/-- Keys and unique constraint of `admin_users`. -/
structure Api.AccountsIntact (s : Api) : Prop where
  names : UniqueNames s.users
  ids : (s.users.map (·.id)).Nodup
  lt_next : ∀ user ∈ s.users, user.id < s.nextUserID

omit [Bcrypt] in
/-- Columns of users change, but not their keys, and no two users get one name. -/
theorem Api.AccountsIntact.map {s : Api} (h : s.AccountsIntact) {g : AdminUserRow → AdminUserRow}
    (hid : ∀ user, (g user).id = user.id)
    (hname : ∀ a ∈ s.users, ∀ b ∈ s.users, (g a).username = (g b).username →
      a.username = b.username) : AccountsIntact { s with users := s.users.map g } := by
  refine ⟨?_, ?_, fun user huser => ?_⟩
  · show ((s.users.map g).map (·.username)).Nodup
    rw [List.map_map]
    refine (List.Nodup.of_map _ h.names).map_on fun a ha b hb hab => ?_
    exact h.names.eq ha hb (hname a ha b hb hab)
  · show ((s.users.map g).map (·.id)).Nodup
    rw [List.map_map]
    exact (List.map_congr_left fun user _ => hid user) ▸ h.ids
  · obtain ⟨old, hold, rfl⟩ := List.mem_map.1 huser
    rw [hid]
    exact h.lt_next old hold

omit [Bcrypt] in
theorem Api.AccountsIntact.createUser {s : Api} (h : s.AccountsIntact) {username hash : GoString}
    {role : ℤ} {users : List AdminUserRow}
    (hcreate : createAdminUser s.users s.nextUserID username hash role = some users) :
    AccountsIntact { s with users := users, nextUserID := s.nextUserID + 1 } := by
  unfold createAdminUser at hcreate
  split_ifs at hcreate with hok
  cases hcreate
  refine ⟨?_, ?_, fun user huser => ?_⟩
  · simp only [UniqueNames, List.map_append, List.map_cons, List.map_nil]
    refine nodup_concat_of_notMem h.names fun hmem => ?_
    obtain ⟨row, hrow, hname⟩ := List.mem_map.1 hmem
    exact hok.2.2.2 row hrow hname
  · simp only [List.map_append, List.map_cons, List.map_nil]
    refine nodup_concat_of_notMem h.ids fun hmem => ?_
    obtain ⟨row, hrow, hid⟩ := List.mem_map.1 hmem
    exact (h.lt_next row hrow).ne hid
  · rcases List.mem_append.1 huser with huser | hnew
    · exact (h.lt_next user huser).trans (Int.lt_succ _)
    · rw [List.mem_singleton.1 hnew]
      exact Int.lt_succ _

omit [Bcrypt] in
theorem Api.AccountsIntact.updateUser {s : Api} (h : s.AccountsIntact) {id role : ℤ}
    {username : GoString} {active : Bool} {users : List AdminUserRow}
    (hupdate : updateAdminUser s.users id username role active = some users) :
    AccountsIntact { s with users := users } := by
  unfold updateAdminUser at hupdate
  split_ifs at hupdate with hnone hok <;> cases hupdate
  · exact h
  refine h.map (fun user => by split_ifs <;> rfl) fun a ha b hb hab => ?_
  split_ifs at hab with ha' hb' hb'
  · have heq := List.inj_on_of_nodup_map h.ids ha hb (ha'.trans hb'.symm)
    rw [heq]
  · exact absurd (hok.2.2 b hb hab.symm) hb'
  · exact absurd (hok.2.2 a ha hab) ha'
  · exact hab

theorem Api.AccountsIntact.apply {s : Api} (h : s.AccountsIntact) (e : ApiEvent) :
    (e.apply s).AccountsIntact := by
  have hrecord : s.record.AccountsIntact := ⟨h.names, h.ids, h.lt_next⟩
  cases e with
  | tick d => exact ⟨h.names, h.ids, h.lt_next⟩
  | login username password =>
    rw [ApiEvent.apply]
    rcases s.record.login_cases username password with ⟨err, hlogin⟩ | ⟨user, -, -, hlogin⟩ <;>
      rw [hlogin]
    · exact hrecord
    · exact ⟨h.names, h.ids, h.lt_next⟩
  | request token route =>
    rw [ApiEvent.apply]
    rcases s.record.serve_cases token route with ⟨err, hserve⟩ | ⟨user, -, hserve⟩
    · rw [hserve]
      exact hrecord
    rw [hserve]
    cases route with
    | refreshToken => exact ⟨h.names, h.ids, h.lt_next⟩
    | view | manage => exact hrecord
    | createUser username hash role =>
      simp only [Api.handle]
      cases hcreate : createAdminUser s.record.users s.record.nextUserID username hash role with
      | none => exact hrecord
      | some users => exact hrecord.createUser hcreate
    | updateUser id username role active =>
      simp only [Api.handle]
      cases hupdate : updateAdminUser s.record.users id username role active with
      | none => exact hrecord
      | some users => exact hrecord.updateUser hupdate
    | deleteUser id =>
      refine hrecord.map (fun user => by split_ifs <;> rfl) fun a _ b _ hab => ?_
      split_ifs at hab <;> exact hab

/-! ### The portal next to the dashboard -/

/-- The accounts with the clock, and the resolver. -/
structure PortalSite where
  api : Api
  resolver : Resolver

inductive AccountEvent
  /-- Time passes, or a request to the dashboard; one whose queries fail changes nothing and
  is no event. -/
  | api (e : ApiEvent)
  /-- A request to `/auth`, and whether the query for its user fails. -/
  | auth (r : AuthRequest) (dbFails : Bool)
  | evictSessions
  /-- The endpoint `CreateRange`, after the database has taken the row. -/
  | addRange (ipRange : IPRange)

def AccountEvent.apply (sessionTTL : ℤ) (s : PortalSite) : AccountEvent → PortalSite
  | .api e => { s with api := e.apply s.api }
  | .auth r dbFails =>
      { s with
        resolver :=
          (handleAuth (dbAuthenticate s.api.users dbFails) sessionTTL s.resolver s.api.now r).1 }
  | .evictSessions => { s with resolver := (s.resolver.evictExpiredSessions s.api.now).1 }
  | .addRange ipRange => { s with resolver := s.resolver.addRange ipRange }

/-- The first state of a process. -/
def PortalSite.start (now : ℤ) (users : List AdminUserRow) (nextUserID : ℤ) (resolver : Resolver) :
    PortalSite := ⟨.start now users nextUserID, { resolver with sessions := ∅ }⟩

/-- The session that an event registers. -/
def AccountEvent.session (sessionTTL : ℤ) (s : PortalSite) : AccountEvent → Option Session
  | .auth r dbFails =>
      if r.method = "POST".toList then
        match dbAuthenticate s.api.users dbFails r.username r.password,
            splitHostPort r.remoteAddr with
        | some user, some (host, _) =>
            some (loginSession s.resolver s.api.now sessionTTL r user (parseIP host))
        | _, _ => none
      else none
  | _ => none

/-- What an event writes under an address, given in canonical form. -/
def AccountEvent.write (sessionTTL : ℤ) (k : IP) (s : PortalSite) (e : AccountEvent) :
    Option (Option Session) :=
  ((e.session sessionTTL s).filter fun session => session.clientIP.canonical = k).map some

theorem handleAuth_session (sessionTTL : ℤ) (s : PortalSite) (r : AuthRequest) (dbFails : Bool) :
    (handleAuth (dbAuthenticate s.api.users dbFails) sessionTTL s.resolver s.api.now r).1 =
      match (AccountEvent.auth r dbFails).session sessionTTL s with
      | some session => s.resolver.addSession session
      | none => s.resolver := by
  unfold handleAuth AccountEvent.session
  by_cases hmethod : r.method = "POST".toList
  · simp only [hmethod, not_true_eq_false, if_false, if_true, ne_eq]
    cases dbAuthenticate s.api.users dbFails r.username r.password with
    | none => rfl
    | some user => cases splitHostPort r.remoteAddr <;> rfl
  · simp only [hmethod, ne_eq, not_false_eq_true, if_true, if_false]

/-- A successful login at the portal: the user has an active account with this password, and
the group is that of the first range that contains the address. -/
structure LoginAt (sessionTTL : ℤ) (s : PortalSite) (r : AuthRequest) (session : Session) :
    Prop where
  method : r.method = "POST".toList
  account : MayLogIn s.api.users r.username r.password session.userID
  client : ∃ host port, splitHostPort r.remoteAddr = some (host, port) ∧
    parseIP host = session.clientIP
  username : session.username = r.username
  group : session.groupID = s.resolver.getRangeGroupID session.clientIP
  expires : session.expiresAt = s.api.now + sessionTTL

theorem session_eq_some_iff {sessionTTL : ℤ} {s : PortalSite} (hunique : UniqueNames s.api.users)
    {r : AuthRequest} {dbFails : Bool} {session : Session} :
    (AccountEvent.auth r dbFails).session sessionTTL s = some session ↔
      dbFails = false ∧ LoginAt sessionTTL s r session := by
  unfold AccountEvent.session
  constructor
  · intro h
    simp only at h
    split_ifs at h with hmethod
    cases hauth : dbAuthenticate s.api.users dbFails r.username r.password with
    | none => simp [hauth] at h
    | some user =>
      cases hsplit : splitHostPort r.remoteAddr with
      | none => simp [hauth, hsplit] at h
      | some peer =>
        simp only [hauth, hsplit, Option.some.injEq] at h
        obtain ⟨hfails, hmay, hgroup⟩ := (dbAuthenticate_eq_some hunique).1 hauth
        subst h
        refine ⟨hfails, hmethod, hmay, ⟨peer.1, peer.2, hsplit, rfl⟩, rfl, ?_, rfl⟩
        -- the authenticator has no group to offer when the range has none
        simp only [loginSession, hgroup]
        split_ifs with h0
        · exact h0.symm
        · rfl
  · rintro ⟨hfails, hmethod, hmay, ⟨host, port, hsplit, hclient⟩, husername, hgroup, hexpires⟩
    have hauth : dbAuthenticate s.api.users dbFails r.username r.password =
        some ⟨session.userID, 0⟩ := (dbAuthenticate_eq_some hunique).2 ⟨hfails, hmay, rfl⟩
    simp only [hmethod, if_true, hauth, hsplit, Option.some.injEq]
    obtain ⟨clientIP, userID, username, groupID, expiresAt⟩ := session
    simp only at hclient husername hgroup hexpires
    subst hclient husername hgroup hexpires
    simp only [loginSession, Session.mk.injEq, true_and, and_true]
    split_ifs with h0
    · exact h0.symm
    · rfl

/-! ### Runs -/

variable (sessionTTL : ℤ)

theorem now_le_accountEvent (s : PortalSite) (e : AccountEvent) :
    s.api.now ≤ (e.apply sessionTTL s).api.now := by
  cases e with
  | api e =>
    rcases apply_cases s.api e with ⟨-, hnow⟩ | ⟨user, -, hnow, -⟩
    · exact hnow
    · exact hnow.ge
  | _ => exact le_rfl

/-- The session seen under an address after an event, from then on. -/
theorem live_accountEvent (s : PortalSite) (e : AccountEvent) (k : IP) {t : ℤ}
    (ht : (e.apply sessionTTL s).api.now ≤ t) :
    Expiring.live Session.expiresAt (e.apply sessionTTL s).resolver.sessions t k =
      ((e.write sessionTTL k s).map (Option.filter fun b => t < b.expiresAt)).getD
        (Expiring.live Session.expiresAt s.resolver.sessions t k) := by
  cases e with
  | auth r dbFails =>
    simp only [AccountEvent.apply, AccountEvent.write, handleAuth_session]
    cases (AccountEvent.auth r dbFails).session sessionTTL s with
    | none => rfl
    | some session =>
      by_cases hk : session.clientIP.canonical = k
      · simp [Resolver.addSession, hk, Option.filter]
      · simp [Resolver.addSession, hk, Option.filter,
          Expiring.live_insert_of_ne _ _ _ (Ne.symm hk)]
  | evictSessions => exact Expiring.live_sweep s.resolver.sessions ht k
  | api e => rfl
  | addRange ipRange => rfl

/-- The event logs in nobody from the address. -/
def NoLoginFrom (ip : IP) (s : PortalSite) (e : AccountEvent) : Prop :=
  ∀ session, e.session sessionTTL s = some session → session.clientIP.canonical ≠ ip.canonical

/-- An event writes nothing under an address exactly when it logs in nobody from there. -/
theorem write_eq_none_iff {s : PortalSite} {e : AccountEvent} {ip : IP} :
    e.write sessionTTL ip.canonical s = none ↔ NoLoginFrom sessionTTL ip s e := by
  rw [AccountEvent.write, Option.map_eq_none_iff, Option.filter_eq_none_iff, NoLoginFrom]
  simp

theorem write_eq_some_iff {s : PortalSite} {e : AccountEvent} {ip : IP} {session : Session} :
    e.write sessionTTL ip.canonical s = some (some session) ↔
      e.session sessionTTL s = some session ∧ session.clientIP.canonical = ip.canonical := by
  rw [AccountEvent.write, Option.map_eq_some_iff]
  constructor
  · rintro ⟨session', h, heq⟩
    obtain rfl := Option.some.inj heq
    simpa [Option.filter_eq_some_iff] using h
  · rintro ⟨h, hip⟩
    exact ⟨session, by simpa [Option.filter_eq_some_iff] using ⟨h, hip⟩, rfl⟩

/-- **At the end of a run an address has a session exactly when its last login is less than the
TTL ago.  The session is that of a user who had an active account with the password given at
that moment, and its group that of the first range that contained the address then.  Whatever
has happened to the account, the ranges and the other addresses since, makes no difference.** -/
theorem session_in_force_iff {now : ℤ} {users : List AdminUserRow} {nextUserID : ℤ}
    (h : (Api.start now users nextUserID).AccountsIntact) (resolver : Resolver)
    (es : List AccountEvent) (ip : IP) (session : Session) :
    let apply := AccountEvent.apply sessionTTL
    let s₀ := PortalSite.start now users nextUserID resolver
    let s := run apply s₀ es
    s.resolver.activeSession s.api.now ip = some session ↔
      ∃ pre r post, es = pre ++ .auth r false :: post ∧
        LoginAt sessionTTL (run apply s₀ pre) r session ∧
        session.clientIP.canonical = ip.canonical ∧
        Along apply (NoLoginFrom sessionTTL ip) (run apply s₀ (pre ++ [.auth r false])) post ∧
        s.api.now < (run apply s₀ pre).api.now + sessionTTL := by
  intro apply s₀ s
  have hunique : ∀ pre, UniqueNames (run apply s₀ pre).api.users := by
    refine fun pre => (run_invariant (fun s : PortalSite => s.api.AccountsIntact) ?_ h pre).names
    intro s e hs
    cases e with
    | api e => exact hs.apply e
    | _ => exact hs
  have hlive := Expiring.live_run_iff (fun _ => True) (fun s : PortalSite => s.resolver.sessions)
    (fun k s e => AccountEvent.write sessionTTL k s e) (fun _ _ _ => trivial)
    (now_le_accountEvent sessionTTL) (fun s e k _ _ ht => live_accountEvent sessionTTL s e k ht)
    (s := s₀) trivial rfl es ip.canonical session le_rfl
  rw [Resolver.activeSession, hlive]
  constructor
  · rintro ⟨⟨pre, e, post, hes, hwrite, hpost⟩, hnow⟩
    obtain ⟨hsession, hip⟩ := (write_eq_some_iff sessionTTL).1 hwrite
    cases e with
    | auth r dbFails =>
      obtain ⟨rfl, hlogin⟩ := (session_eq_some_iff (hunique pre)).1 hsession
      simp only [write_eq_none_iff] at hpost
      exact ⟨pre, r, post, hes, hlogin, hip, hpost, hlogin.expires ▸ hnow⟩
    | _ => cases hsession
  · rintro ⟨pre, r, post, hes, hlogin, hip, hpost, hnow⟩
    refine ⟨⟨pre, .auth r false, post, hes, ?_, ?_⟩, hlogin.expires ▸ hnow⟩
    · exact (write_eq_some_iff sessionTTL).2
        ⟨(session_eq_some_iff (hunique pre)).2 ⟨rfl, hlogin⟩, hip⟩
    · simp only [write_eq_none_iff]
      exact hpost

end Accounts

/-! ### A session that stays -/

/-- `ana` logs in at the portal. -/
def anaAtPortal : AuthRequest where
  remoteAddr := "10.0.0.1:50000".toList
  username := "ana".toList
  password := "b".toList

/-- Her account is deactivated, and half an hour passes. -/
def deactivated : List AccountEvent :=
  [.api (.login "admin".toList "a".toList),
    .api (.request (some (newClaims 0 1 "admin".toList 0)) (.deleteUser 2)),
    .api (.tick (1800 * 1000000000))]

/-- Her session is still in force. -/
theorem session_in_force_deactivated :
    letI := plainBcrypt
    let s := run (AccountEvent.apply hour) (.start 0 twoAdmins 3 (.new 1))
      (.auth anaAtPortal false :: deactivated)
    s.resolver.activeSession s.api.now (.v4 0x0a000001#32) =
      some ⟨parseIP "10.0.0.1".toList, 2, "ana".toList, 1, hour⟩ := by
  let := plainBcrypt
  refine (session_in_force_iff hour ⟨by decide, by decide, by decide⟩ _ _ _ _).2
    ⟨[], anaAtPortal, deactivated, rfl, ?_, by decide +kernel, ?_, by decide +kernel⟩
  · refine ⟨rfl, ?_, ?_, rfl, rfl, by decide⟩
    · exact ⟨⟨2, "ana".toList, "b".toList, 0, true⟩,
        by simp [PortalSite.start, Api.start, twoAdmins], rfl, rfl, rfl, by decide⟩
    · exact ⟨"10.0.0.1".toList, "50000".toList, by decide +kernel, rfl⟩
  · exact ⟨by rintro _ ⟨⟩, by rintro _ ⟨⟩, by rintro _ ⟨⟩, trivial⟩

end DnsFilter
