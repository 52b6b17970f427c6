import DnsFilter.Api.RateLimit
import DnsFilter.Captive.Accounts
import DnsFilter.Filter.Categories
import DnsFilter.Lib.Noninterference
import DnsFilter.Store.Registers
import DnsFilter.Store.Rows

/-!
# Access control

The routes of `internal/api/router.go` with their handlers, next to everything else that goes
on in the process: queries, logins at the portal, the callback of the listener, the updater.
Handlers and callbacks go on in jobs, whose steps come in between all the rest.

* `Endpoint`, `Installation.respond`: the protected routes, with the limiter in front of them, and
  what their handlers do;
* `Installation.work`: a step of a job;
* `Installation.configuration`: what access control is there to protect;
* `access_control`: the requests that do not come from an administrator can be left out of any
  run, but for their load on the bucket that they share with one.
-/

namespace DnsFilter

open EventRun

/-! ### Accounts -/

/-- The clock, the accounts and the tokens of administrators. -/
structure AccountConfig where
  now : ℤ
  users : List AdminUserRow
  nextUserID : ℤ
  adminTokens : List Claims

def Api.config (s : Api) : AccountConfig where
  now := s.now
  users := s.users
  nextUserID := s.nextUserID
  adminTokens := s.issued.filter fun c => c.role = 0

section Accounts

variable {s s' : Api}

/-- The tokens of administrators decide who is an administrator. -/
theorem authMiddleware_of_config (h : s.config = s'.config) {token : Option Claims}
    {user : AuthUser} (huser : s.authMiddleware token = .ok user) (hrole : user.role = 0) :
    s'.authMiddleware token = .ok user := by
  simp only [Api.config, AccountConfig.mk.injEq] at h
  obtain ⟨hnow, -, -, htokens⟩ := h
  obtain ⟨c, hc, htoken, hlt, rfl⟩ := Api.authMiddleware_eq_ok.1 huser
  have hc' : c ∈ s'.issued.filter fun c => c.role = 0 := by
    rw [← htokens, List.mem_filter]
    exact ⟨hc, by simpa using hrole⟩
  exact Api.authMiddleware_eq_ok.2 ⟨c, List.mem_of_mem_filter hc', htoken, hnow ▸ hlt, rfl⟩

theorem config_handle (h : s.config = s'.config) (user : AuthUser) (route : Route) :
    (s.handle user route).map Api.config = (s'.handle user route).map Api.config := by
  obtain ⟨now, users, nextUserID, issued, past⟩ := s
  obtain ⟨now', users', nextUserID', issued', past'⟩ := s'
  simp only [Api.config, AccountConfig.mk.injEq] at h
  obtain ⟨rfl, rfl, rfl, htokens⟩ := h
  cases route with
  | refreshToken =>
    simp only [Api.handle, Except.map, Api.config, List.filter_append, htokens]
  | view | manage | deleteUser id => simp only [Api.handle, Except.map, Api.config, htokens]
  | createUser username hash role =>
    simp only [Api.handle]
    cases createAdminUser users nextUserID username hash role with
    | none => rfl
    | some users => simp only [Except.map, Api.config, htokens]
  | updateUser id username role active =>
    simp only [Api.handle]
    cases updateAdminUser users id username role active with
    | none => rfl
    | some users => simp only [Except.map, Api.config, htokens]

/-- The request of an administrator does the same whatever other tokens there are. -/
theorem config_serve (h : s.config = s'.config) {token : Option Claims} {user : AuthUser}
    (huser : s.authMiddleware token = .ok user) (hrole : user.role = 0) (route : Route) :
    (s.serve token route).map Api.config = (s'.serve token route).map Api.config := by
  have huser' := authMiddleware_of_config h huser hrole
  simp only [Api.serve, huser, huser', hrole, ne_eq, not_true_eq_false, and_false, if_false]
  exact config_handle h user route

/-- Anyone else gets no further than a token of their own. -/
theorem serve_unprivileged {token : Option Claims} {route : Route}
    (hrole : ∀ user, s.authMiddleware token = .ok user → user.role ≠ 0)
    (h : s.serve token route = .ok s') :
    route.isAdminOnly = false ∧ ∃ c ∈ s.issued, token = some c ∧ s.now < c.exp * second ∧
      (s' = s ∨ route = .refreshToken ∧
        s' = { s with issued := s.issued ++ [newClaims s.now c.userID c.username c.role] }) := by
  unfold Api.serve at h
  cases huser : s.authMiddleware token with
  | error err => simp [huser] at h
  | ok user =>
    simp only [huser, hrole user huser, ne_eq, not_false_eq_true, and_true] at h
    split_ifs at h with hroute
    simp only [Bool.not_eq_true] at hroute
    obtain ⟨c, hc, htoken, hlt, rfl⟩ := Api.authMiddleware_eq_ok.1 huser
    refine ⟨hroute, c, hc, htoken, hlt, ?_⟩
    cases route with
    | refreshToken =>
      cases h
      exact .inr ⟨rfl, rfl⟩
    | view =>
      cases h
      exact .inl rfl
    | createUser | updateUser | deleteUser | manage => cases hroute

theorem config_tick (h : s.config = s'.config) (d : ℕ) [Bcrypt] :
    ((ApiEvent.tick d).apply s).config = ((ApiEvent.tick d).apply s').config := by
  simp only [Api.config, AccountConfig.mk.injEq] at h
  simp only [ApiEvent.apply, Api.config, Api.record, h]

theorem config_login [Bcrypt] (h : s.config = s'.config) (username password : GoString) :
    ((ApiEvent.login username password).apply s).config =
      ((ApiEvent.login username password).apply s').config := by
  simp only [Api.config, AccountConfig.mk.injEq] at h
  simp only [ApiEvent.apply, Api.login, Api.record, h.2.1]
  cases authenticateAdmin s'.users username password with
  | none => simp only [Except.toOption, Option.getD_none, Api.config, h]
  | some user =>
    simp only [Except.toOption, Option.getD_some, Api.config, List.filter_append, h]

end Accounts

/-! ### Queries -/

/-- A reply to a query that does not pass. -/
def Reply.isRefusal (w : Reply) : Bool :=
  w.source = .identityError ∨ w.source = .captive ∨ w.source = .blocked

section Queries

variable [Miekg]

/-- The events of queries, and the eviction of old cache entries. -/
def SystemEvent.isTraffic : SystemEvent → Bool
  | .evict | .arrive _ | .lookup _ | .exchange _ _ => true
  | _ => false

/-- The clock, the handler but for its cache, and the queries refused, among how many. -/
structure PolicyConfig where
  now : ℤ
  handler : Handler
  calls : ℕ
  refusals : List Reply

def System.config (s : System) : PolicyConfig where
  now := s.now
  handler := { s.handler with cache := .new 0 0 }
  calls := s.calls
  refusals := s.replies.filter Reply.isRefusal

variable [Unicode]

/-- What becomes of a query that passes is none of the configuration. -/
theorem config_progress (s : System) {e : SystemEvent}
    (he : e.isConfig = false) (harrive : ∀ inc, e ≠ .arrive inc) :
    (e.apply s).config = s.config := by
  cases e with
  | tick | filter | identity | loadRanges => cases he
  | arrive inc => exact absurd rfl (harrive inc)
  | evict | invalidate => rfl
  | lookup call =>
    simp only [SystemEvent.apply]
    split
    · cases hout : (s.handler.lookup s.redis s.now _).1 with
      | none => rfl
      | some out =>
        obtain ⟨msg, -, rfl⟩ := Option.map_eq_some_iff.1 hout
        simp [System.config, System.write, Handler.lookup, Reply.isRefusal]
    · rfl
  | exchange call answers =>
    simp only [SystemEvent.apply]
    split
    · cases resolveUpstream answers <;>
        simp [System.config, System.write, Handler.finish, Reply.isRefusal]
    · rfl

/-- What becomes of the configuration depends on nothing else. -/
theorem config_apply {s s' : System} (h : s.config = s'.config) (e : SystemEvent) :
    (e.apply s).config = (e.apply s').config := by
  by_cases hprogress : e.isConfig = false ∧ ∀ inc, e ≠ .arrive inc
  · rw [config_progress s hprogress.1 hprogress.2, config_progress s' hprogress.1 hprogress.2, h]
  obtain ⟨now, ⟨cache, filter, identity, logger, blockIP, portalIP⟩, redis, calls, running,
    replies, entries, exchanges⟩ := s
  obtain ⟨now', ⟨cache', filter', identity', logger', blockIP', portalIP'⟩, redis', calls',
    running', replies', entries', exchanges'⟩ := s'
  simp only [System.config, PolicyConfig.mk.injEq, Handler.mk.injEq, true_and] at h
  obtain ⟨rfl, ⟨rfl, rfl, rfl, rfl, rfl⟩, rfl, hrefusals⟩ := h
  cases e with
  | tick | filter | identity | loadRanges => simp only [SystemEvent.apply, System.config, hrefusals]
  | arrive inc =>
    have hcache : Handler.arrive ⟨cache, filter, identity, logger, blockIP, portalIP⟩ now inc =
        Handler.arrive ⟨cache', filter, identity, logger, blockIP, portalIP⟩ now inc := rfl
    simp only [SystemEvent.apply, hcache]
    split_ifs
    · simp only [System.config, hrefusals]
    · split <;> simp only [System.config, System.write, List.filter_append, hrefusals]
  | evict | invalidate | lookup | exchange =>
    exact absurd ⟨rfl, fun inc hinc => by cases hinc⟩ hprogress

/-- An edit of the identity resolver. -/
def System.editIdentity (s : System) (edit : Resolver → Resolver) : System :=
  { s with handler := { s.handler with identity := edit s.handler.identity } }

omit [Unicode] in
theorem config_editIdentity {s s' : System} (h : s.config = s'.config)
    (edit : Resolver → Resolver) :
    (s.editIdentity edit).config = (s'.editIdentity edit).config := by
  simp only [System.editIdentity, System.config, PolicyConfig.mk.injEq, Handler.mk.injEq,
    true_and] at h ⊢
  obtain ⟨hnow, ⟨hfilter, hidentity, hrest⟩, hcalls, hrefusals⟩ := h
  exact ⟨hnow, ⟨hfilter, congrArg edit hidentity, hrest⟩, hcalls, hrefusals⟩

end Queries

/-! ### Routes and jobs -/

/-- A protected route, with what its handler reads from the request and with what the database
contributes: the ids of new rows, and whether queries fail. -/
inductive Endpoint
  | refreshToken
  | getDashboardStats
  | getMetrics
  | getLogs
  | invalidateCache (domain : GoString)
  | listUsers
  | createUser (username hash : GoString) (role : ℤ)
  | updateUser (id : ℤ) (username : GoString) (role : ℤ) (active : Bool)
  | deleteUser (id : ℤ)
  | listGroups
  | createGroup (id : ℤ) (name description : GoString)
  | updateGroup (id : ℤ) (name description : GoString)
  | deleteGroup (id : ℤ)
  | listCategories
  | getGroupPolicy (groupID : ℤ)
  | setGroupPolicy (groupID : ℤ) (categories : List ℤ)
  | listBlocklists
  | createBlocklist (name sourceURL : GoString) (listType : ℤ)
  | updateBlocklist (id : ℤ) (name : GoString) (active : Bool)
  | deleteBlocklist (id : ℤ)
  | addEntries (listID : ℤ) (domains : List GoString)
  | reloadLists (query : Except String (Arrival (GoString × ℤ)))
  | downloadLists (query : Except String (Arrival ℤ))
  | getBlocklistCategories (listID : ℤ)
  | setBlocklistCategories (listID : ℤ) (categories : List ℤ)
  | listRanges
  | createRange (id : ℤ) (cidr : GoString) (groupID authMode : ℤ) (description : GoString)
  | updateRange (id : ℤ) (cidr : GoString) (groupID authMode : ℤ) (description : GoString)
  | deleteRange (id : ℤ)

namespace Endpoint

/-- The route, as far as tokens and accounts are concerned. -/
def route : Endpoint → Route
  | .refreshToken => .refreshToken
  | .getDashboardStats | .getMetrics | .getLogs | .invalidateCache _ => .view
  | .createUser username hash role => .createUser username hash role
  | .updateUser id username role active => .updateUser id username role active
  | .deleteUser id => .deleteUser id
  | _ => .manage

/-- The operation of the store that a handler calls and does nothing else. -/
def storeOp : Endpoint → Option StoreOp
  | .createGroup id name description => some (.createGroup id name description)
  | .updateGroup id name description => some (.updateGroup id name description)
  | .deleteGroup id => some (.admin (.deleteGroup id))
  | .setGroupPolicy groupID categories => some (.admin (.setGroupPolicy groupID categories))
  | .createBlocklist name sourceURL listType =>
      some (.admin (.insertBlocklist name sourceURL listType))
  | .updateBlocklist id name active => some (.admin (.updateBlocklist id name active))
  | .deleteBlocklist id => some (.admin (.deleteBlocklist id))
  | .addEntries listID domains => some (.admin (.insertBlocklistEntries listID domains))
  | .setBlocklistCategories listID categories =>
      some (.admin (.setBlocklistCategories listID categories))
  | .updateRange id cidr groupID authMode description =>
      some (.updateIPRange id cidr groupID authMode description)
  | .deleteRange id => some (.deleteIPRange id)
  | _ => none

/-- The text in front of a database error. -/
def failure : Endpoint → String
  | .createGroup .. => "Erro ao criar grupo: "
  | _ => "Erro: "

end Endpoint

/-- A step of a job. -/
inductive JobStep
  /-- The transaction for an external list. -/
  | refresh (listID : ℤ)
  /-- The query for the lists; the callback goes on with the local files. -/
  | loadLists (withFiles : Bool)
  | loadCategories
  | loadPolicies
  | edit (step : ReloadStep)
  | addRange (ipRange : IPRange)

/-- The steps that are left of a job. -/
abbrev Job := List JobStep

/-- What a step of a job gets from outside the process. -/
structure JobInput where
  /-- The transaction for a list succeeds. -/
  commits : Bool := true
  /-- The domains that the server of an external list gives. -/
  fetched : List GoString := []
  lists : Except String (Arrival (GoString × ℤ)) := .ok .complete
  files : ListFiles := ⟨.missing, .missing⟩
  categories : Except String (Arrival (ℤ × GoString)) := .ok .complete
  /-- The order in which the map of the categories is ranged over. -/
  order : List (Σ _ : ℤ, List GoString) := []
  policies : Except String (Arrival (ℤ × ℤ)) := .ok .complete

/-- The transactions of `DownloadLists`, or of a round of the updater. -/
def refreshJob (lists : List ℤ) : Job := lists.map .refresh

/-- The callback of the listener. -/
def notifyJob : Job := [.loadLists true, .loadCategories, .loadPolicies]

section Access

variable [Unicode] [Miekg] [Bcrypt] [CidrType] [RealIP]

/-- The running program. -/
structure Installation where
  api : Api
  loginLimiter : RateLimiter
  apiLimiter : RateLimiter
  store : ConfigStore
  system : System
  /-- The notifications that the listener has not yet taken. -/
  pending : List Table
  callback : Job
  /-- The other jobs, those that have ended included. -/
  jobs : List Job

inductive InstallationEvent
  | tick (d : ℕ)
  | login (r : ApiRequest) (username password : GoString)
  | request (r : ApiRequest) (token : Option Claims) (endpoint : Endpoint)
  /-- The minute tickers of the limiters. -/
  | cleanupLogins
  | cleanupApi
  /-- A request to `/auth` of the portal, and whether its query for the account fails. -/
  | portal (r : AuthRequest) (dbFails : Bool)
  | evictSessions
  | takeNotification
  | callback (input : JobInput)
  | work (job : ℕ) (input : JobInput)
  /-- The updater starts a round. -/
  | update (query : Except String (Arrival ℤ))
  | traffic (e : SystemEvent) (h : e.isTraffic = true)

namespace Installation

/-- An operation of the store. -/
def execute (s : Installation) (op : StoreOp) (failure : String) : Except ApiError Installation :=
  match op.execute s.store with
  | none => .error ⟨failure, 500⟩
  | some (store, notes) => .ok { s with store := store, pending := s.pending ++ notes }

/-- A handler goes on with a job. -/
def start (s : Installation) (job : Job) : Installation := { s with jobs := s.jobs ++ [job] }

/-- What a handler does besides changing tokens and accounts. -/
def handle (s : Installation) : Endpoint → Except ApiError Installation
  | .invalidateCache domain =>
      .ok { s with system := (SystemEvent.invalidate domain).apply s.system }
  | .createRange id cidr groupID authMode description =>
      match parseCIDR cidr with
      | none => .error ⟨"CIDR inválido", 400⟩
      | some cidrNet =>
          (s.execute (.createIPRange id cidr groupID authMode description) "Erro: ").map
            fun s => s.start [.addRange ⟨cidrNet, groupID, authMode⟩]
  | .reloadLists query =>
      match Store.loadActiveBlocklistEntries (Store.answer query s.store.db.activeEntryRows) with
      | .error err => .error ⟨"Erro ao recarregar: " ++ err, 500⟩
      | .ok lists => .ok (s.start ((replaceSteps lists).map .edit))
  | .downloadLists query =>
      match Store.listExternal (Store.answer query (externalLists s.store.db)) with
      | .error err => .error ⟨"Erro: " ++ err, 500⟩
      | .ok [] => .ok s
      | .ok lists => .ok (s.start (refreshJob lists ++ [.loadLists false]))
  | endpoint =>
      match endpoint.storeOp with
      | some op => s.execute op endpoint.failure
      | none => .ok s

/-- A request to a protected route, behind the limiter: the other middleware, the part of the
handler that concerns tokens and accounts, and the rest of it. -/
def serve (s : Installation) (token : Option Claims) (endpoint : Endpoint) :
    Except ApiError Installation :=
  match s.api.serve token endpoint.route with
  | .error err => .error err
  | .ok api => { s with api := api }.handle endpoint

/-- A request to a protected route; one that fails leaves everything but the limiter as it is. -/
def respond (s : Installation) (r : ApiRequest) (token : Option Claims) (endpoint : Endpoint) :
    Option ApiError × Installation :=
  let (allowed, limiter) := s.apiLimiter.middleware s.api.now r
  let s := { s with apiLimiter := limiter }
  if allowed then
    match s.serve token endpoint with
    | .error err => (some err, s)
    | .ok s' => (none, s')
  else (some ⟨"Muitas requisições. Tente novamente em alguns segundos.", 429⟩, s)

/-- The next step of a job, and what is left of it afterwards. -/
def work (s : Installation) (input : JobInput) : Job → Installation × Job
  | [] => (s, [])
  | .refresh listID :: rest =>
      match (StoreOp.admin (.updateList listID input.fetched)).execute s.store with
      | some (store, notes) =>
          if input.commits then
            ({ s with store := store, pending := s.pending ++ notes }, rest)
          else (s, rest)
      | none => (s, rest)
  | .loadLists withFiles :: rest =>
      match Store.loadActiveBlocklistEntries
          (Store.answer input.lists s.store.db.activeEntryRows) with
      | .error _ => (s, [])
      | .ok lists =>
          let steps := replaceSteps lists ++ if withFiles then fileSteps input.files else []
          (s, steps.map .edit ++ rest)
  | .loadCategories :: rest =>
      match Store.loadCategoryDomains (Store.answer input.categories s.store.db.categoryRows) with
      | .error _ => (s, rest)
      | .ok catDomains =>
          if Enumerates input.order catDomains then
            (s, .edit (.loadCategories input.order) :: rest)
          else (s, .loadCategories :: rest)
  | .loadPolicies :: rest =>
      match Store.loadGroupPolicies (Store.answer input.policies s.store.db.policies) with
      | .error _ => (s, rest)
      | .ok policies => (s, .edit (.loadPolicies policies) :: rest)
  | .edit step :: rest =>
      ({ s with system := (SystemEvent.filter (.reload step)).apply s.system }, rest)
  | .addRange ipRange :: rest =>
      ({ s with system := s.system.editIdentity fun r => r.addRange ipRange }, rest)

end Installation

def InstallationEvent.apply (sessionTTL : ℤ) (s : Installation) : InstallationEvent → Installation
  | .tick d =>
      { s with
        api := (ApiEvent.tick d).apply s.api
        system := (SystemEvent.tick d).apply s.system }
  | .login r username password =>
      let (allowed, limiter) := s.loginLimiter.middleware s.api.now r
      { s with
        loginLimiter := limiter
        api := if allowed then (ApiEvent.login username password).apply s.api else s.api }
  | .request r token endpoint =>
      (Installation.respond { s with api := s.api.record } r token endpoint).2
  | .cleanupLogins => { s with loginLimiter := s.loginLimiter.cleanup s.api.now }
  | .cleanupApi => { s with apiLimiter := s.apiLimiter.cleanup s.api.now }
  | .portal r dbFails =>
      { s with
        system := s.system.editIdentity fun resolver =>
          (handleAuth (dbAuthenticate s.api.users dbFails) sessionTTL resolver s.api.now r).1 }
  | .evictSessions =>
      { s with
        system := (SystemEvent.identity (.evictExpiredSessions s.api.now)).apply s.system }
  | .takeNotification =>
      match s.callback, s.pending with
      | [], _ :: pending => { s with pending := pending, callback := notifyJob }
      | _, _ => s
  | .callback input =>
      let (s, job) := s.work input s.callback
      { s with callback := job }
  | .work i input =>
      match s.jobs[i]? with
      | none => s
      | some job =>
          let (s, job) := s.work input job
          { s with jobs := s.jobs.set i job }
  | .update query =>
      match Store.listExternal (Store.answer query (externalLists s.store.db)) with
      | .error _ => s
      | .ok lists => s.start (refreshJob lists)
  | .traffic e _ => { s with system := e.apply s.system }

/-! ### What is to be protected -/

/-- What access control is there to protect. -/
structure Configuration where
  accounts : AccountConfig
  loginLimiter : RateLimiter
  apiLimiter : RateLimiter
  store : ConfigStore
  policy : PolicyConfig
  pending : List Table
  callback : Job
  jobs : List Job

/-- Of the limiter of the API, only some buckets are protected. -/
def Installation.configuration (K : GoString → Bool) (s : Installation) : Configuration where
  accounts := s.api.config
  loginLimiter := s.loginLimiter
  apiLimiter := s.apiLimiter.restrict K
  store := s.store
  policy := s.system.config
  pending := s.pending
  callback := s.callback
  jobs := s.jobs

/-- The token is that of an administrator. -/
def Installation.isAdmin (s : Installation) (token : Option Claims) : Bool :=
  match s.api.authMiddleware token with
  | .ok user => user.role = 0
  | .error _ => false

/-- The requests of administrators have keys in `K`. -/
def AdminKeys (K : GoString → Bool) (s : Installation) : InstallationEvent → Prop
  | .request r token _ => s.isAdmin token = true → K (RateLimiter.ip r) = true
  | _ => True

/-- A request that is not an administrator's is left out or, if it has a key in `K`, loses its
token. -/
def anonymise (K : GoString → Bool) (s : Installation) (e : InstallationEvent) :
    Option InstallationEvent :=
  match e with
  | .request r token _ =>
      if s.isAdmin token then some e
      else if K (RateLimiter.ip r) then some (.request r none .getMetrics)
      else none
  | _ => some e

/-! ### Single events -/

section Steps

variable {K : GoString → Bool} {s s' : Installation}

omit [Unicode] [Bcrypt] [CidrType] [RealIP] in
/-- Equal configurations, part by part. -/
theorem configuration_eq_iff : s.configuration K = s'.configuration K ↔
    s.api.config = s'.api.config ∧ s.loginLimiter = s'.loginLimiter ∧
      s.apiLimiter.restrict K = s'.apiLimiter.restrict K ∧ s.store = s'.store ∧
      s.system.config = s'.system.config ∧ s.pending = s'.pending ∧ s.callback = s'.callback ∧
      s.jobs = s'.jobs := by
  simp only [Installation.configuration, Configuration.mk.injEq]

omit [Unicode] [Miekg] [Bcrypt] [CidrType] [RealIP] in
/-- What follows a handler. -/
theorem map_map_congr {α β γ : Type*} {f : α → β} {g : α → α} {x y : Except γ α}
    (hg : ∀ a b, f a = f b → f (g a) = f (g b)) (h : x.map f = y.map f) :
    (x.map g).map f = (y.map g).map f := by
  cases x with
  | error err => cases y with
    | error err' => exact h
    | ok b => cases h
  | ok a => cases y with
    | error err' => cases h
    | ok b => exact congrArg Except.ok (hg a b (Except.ok.inj h))

omit [Unicode] [Bcrypt] [RealIP] in
/-- An operation of the store reads nothing but the store. -/
theorem configuration_execute (h : s.configuration K = s'.configuration K) (op : StoreOp)
    (failure : String) : (s.execute op failure).map (Installation.configuration K) =
      (s'.execute op failure).map (Installation.configuration K) := by
  obtain ⟨hapi, hlogin, hlimiter, hstore, hsystem, hpending, hcallback, hjobs⟩ :=
    configuration_eq_iff.1 h
  simp only [Installation.execute, hstore]
  cases op.execute s'.store with
  | none => rfl
  | some r =>
    refine congrArg Except.ok (configuration_eq_iff.2 ?_)
    exact ⟨hapi, hlogin, hlimiter, rfl, hsystem, congrArg (· ++ r.2) hpending, hcallback, hjobs⟩

omit [Unicode] [Bcrypt] [CidrType] [RealIP] in
theorem configuration_start (h : s.configuration K = s'.configuration K) (job : Job) :
    (s.start job).configuration K = (s'.start job).configuration K := by
  obtain ⟨hapi, hlogin, hlimiter, hstore, hsystem, hpending, hcallback, hjobs⟩ :=
    configuration_eq_iff.1 h
  exact configuration_eq_iff.2 ⟨hapi, hlogin, hlimiter, hstore, hsystem, hpending, hcallback,
    congrArg (· ++ [job]) hjobs⟩

omit [Bcrypt] [RealIP] in
theorem configuration_handle (h : s.configuration K = s'.configuration K) (endpoint : Endpoint) :
    (s.handle endpoint).map (Installation.configuration K) =
      (s'.handle endpoint).map (Installation.configuration K) := by
  obtain ⟨hapi, hlogin, hlimiter, hstore, hsystem, hpending, hcallback, hjobs⟩ :=
    configuration_eq_iff.1 h
  have hok : (Except.ok s : Except ApiError Installation).map (Installation.configuration K) =
      (Except.ok s').map (Installation.configuration K) := congrArg Except.ok h
  cases endpoint with
  | invalidateCache domain =>
    exact congrArg Except.ok (configuration_eq_iff.2 ⟨hapi, hlogin, hlimiter, hstore,
      config_apply hsystem _, hpending, hcallback, hjobs⟩)
  | createRange id cidr groupID authMode description =>
    simp only [Installation.handle]
    cases parseCIDR cidr with
    | none => rfl
    | some cidrNet =>
      refine map_map_congr (g := fun s => s.start [.addRange ⟨cidrNet, groupID, authMode⟩]) ?_
        (configuration_execute h _ _)
      exact fun _ _ h => configuration_start h _
  | reloadLists query =>
    simp only [Installation.handle, hstore]
    split
    · rfl
    · exact congrArg Except.ok (configuration_start h _)
  | downloadLists query =>
    simp only [Installation.handle, hstore]
    split
    · rfl
    · exact hok
    · exact congrArg Except.ok (configuration_start h _)
  | createGroup | updateGroup | deleteGroup | setGroupPolicy | createBlocklist | updateBlocklist
  | deleteBlocklist | addEntries | setBlocklistCategories | updateRange =>
    exact configuration_execute h _ _
  | deleteRange id => exact configuration_execute h (.deleteIPRange id) "Erro: "
  | _ => exact hok

omit [Bcrypt] [RealIP] in
/-- An administrator's request does the same in installations with equal configurations. -/
theorem configuration_serve (h : s.configuration K = s'.configuration K) {token : Option Claims}
    (hadmin : s.isAdmin token = true) (endpoint : Endpoint) :
    (s.serve token endpoint).map (Installation.configuration K) =
      (s'.serve token endpoint).map (Installation.configuration K) := by
  obtain ⟨hapi, hlogin, hlimiter, hstore, hsystem, hpending, hcallback, hjobs⟩ :=
    configuration_eq_iff.1 h
  unfold Installation.isAdmin at hadmin
  cases huser : s.api.authMiddleware token with
  | error err => simp [huser] at hadmin
  | ok user =>
    have hserve := config_serve hapi huser (by simpa [huser] using hadmin) endpoint.route
    unfold Installation.serve
    cases hs : s.api.serve token endpoint.route with
    | error err =>
      cases hs' : s'.api.serve token endpoint.route with
      | error err' => simpa [hs, hs', Except.map] using hserve
      | ok api' => simp [hs, hs', Except.map] at hserve
    | ok api =>
      cases hs' : s'.api.serve token endpoint.route with
      | error err' => simp [hs, hs', Except.map] at hserve
      | ok api' =>
        have hconfig : api.config = api'.config := by simpa [hs, hs', Except.map] using hserve
        have heq : Installation.configuration K { s with api := api } =
            Installation.configuration K { s' with api := api' } :=
          configuration_eq_iff.2
            ⟨hconfig, hlogin, hlimiter, hstore, hsystem, hpending, hcallback, hjobs⟩
        exact configuration_handle heq endpoint

omit [Bcrypt] [RealIP] in
/-- A step of a job reads the store, and changes it or the handler. -/
theorem configuration_work (h : s.configuration K = s'.configuration K) (input : JobInput)
    (job : Job) :
    (s.work input job).1.configuration K = (s'.work input job).1.configuration K ∧
      (s.work input job).2 = (s'.work input job).2 := by
  obtain ⟨hapi, hlogin, hlimiter, hstore, hsystem, hpending, hcallback, hjobs⟩ :=
    configuration_eq_iff.1 h
  cases job with
  | nil => exact ⟨h, rfl⟩
  | cons step rest =>
    cases step with
    | refresh listID =>
      simp only [Installation.work, hstore]
      split
      · split_ifs
        · refine ⟨configuration_eq_iff.2 ?_, rfl⟩
          exact ⟨hapi, hlogin, hlimiter, rfl, hsystem, congrArg (· ++ _) hpending, hcallback, hjobs⟩
        · exact ⟨h, rfl⟩
      · exact ⟨h, rfl⟩
    | loadLists withFiles =>
      simp only [Installation.work, hstore]
      split <;> exact ⟨h, rfl⟩
    | loadCategories =>
      simp only [Installation.work, hstore]
      split
      · exact ⟨h, rfl⟩
      · split_ifs <;> exact ⟨h, rfl⟩
    | loadPolicies =>
      simp only [Installation.work, hstore]
      split <;> exact ⟨h, rfl⟩
    | edit step =>
      exact ⟨configuration_eq_iff.2 ⟨hapi, hlogin, hlimiter, hstore, config_apply hsystem _,
        hpending, hcallback, hjobs⟩, rfl⟩
    | addRange ipRange =>
      exact ⟨configuration_eq_iff.2 ⟨hapi, hlogin, hlimiter, hstore,
        config_editIdentity hsystem _, hpending, hcallback, hjobs⟩, rfl⟩

omit [Bcrypt] [RealIP] in
/-- A request that is served has passed the middleware. -/
theorem serve_eq_ok {token : Option Claims} {endpoint : Endpoint}
    (h : s.serve token endpoint = .ok s') :
    ∃ api, s.api.serve token endpoint.route = .ok api ∧
      Installation.handle { s with api := api } endpoint = .ok s' := by
  unfold Installation.serve at h
  cases hs : s.api.serve token endpoint.route with
  | error err => simp [hs] at h
  | ok api => exact ⟨api, rfl, by simpa only [hs] using h⟩

omit [Bcrypt] [RealIP] in
/-- What anyone else's request leaves behind: nothing, a token like the one it came with, or a
cache without the entries of a domain. -/
theorem serve_unprivileged_cases {token : Option Claims} {endpoint : Endpoint}
    (hadmin : s.isAdmin token = false) (h : s.serve token endpoint = .ok s') :
    ∃ c ∈ s.api.issued, token = some c ∧ c.role ≠ 0 ∧ s.api.now < c.exp * second ∧
      (s' = s ∨
        s' = { s with api := { s.api with
          issued := s.api.issued ++ [newClaims s.api.now c.userID c.username c.role] } } ∨
        ∃ domain, s' = { s with system := (SystemEvent.invalidate domain).apply s.system }) := by
  have hrole : ∀ user, s.api.authMiddleware token = .ok user → user.role ≠ 0 := by
    intro user huser hzero
    simp [Installation.isAdmin, huser, hzero] at hadmin
  obtain ⟨api, hs, hhandle⟩ := serve_eq_ok h
  obtain ⟨hroute, c, hc, htoken, hlt, hapi⟩ := serve_unprivileged hrole hs
  have hrole' : c.role ≠ 0 := hrole _ (Api.authMiddleware_eq_ok.2 ⟨c, hc, htoken, hlt, rfl⟩)
  refine ⟨c, hc, htoken, hrole', hlt, ?_⟩
  cases endpoint with
  | refreshToken =>
    cases hhandle
    rcases hapi with rfl | ⟨-, rfl⟩
    · exact .inl rfl
    · exact .inr (.inl rfl)
  | getDashboardStats | getMetrics | getLogs =>
    cases hhandle
    rcases hapi with rfl | ⟨hview, -⟩
    · exact .inl rfl
    · cases hview
  | invalidateCache domain =>
    cases hhandle
    rcases hapi with rfl | ⟨hview, -⟩
    · exact .inr (.inr ⟨domain, rfl⟩)
    · cases hview
  | _ => cases hroute

/-! ### Requests -/

/-- The load of a request on the limiter. -/
def Installation.charge (s : Installation) (r : ApiRequest) : Installation :=
  { s with apiLimiter := (s.apiLimiter.middleware s.api.now r).2 }

variable {r : ApiRequest} {token : Option Claims}

omit [Bcrypt] in
theorem respond_eq (s : Installation) (r : ApiRequest) (token : Option Claims)
    (endpoint : Endpoint) :
    (s.respond r token endpoint).2 =
      if (s.apiLimiter.middleware s.api.now r).1 then
        ((s.charge r).serve token endpoint).toOption.getD (s.charge r)
      else s.charge r := by
  unfold Installation.respond
  change (if (s.apiLimiter.middleware s.api.now r).1 then
    match (s.charge r).serve token endpoint with
    | .error err => (some err, s.charge r)
    | .ok s' => (none, s')
    else (some _, s.charge r) : Option ApiError × Installation).2 = _
  split_ifs
  · cases (s.charge r).serve token endpoint <;> rfl
  · rfl

omit [Bcrypt] in
/-- A request leaves its load on the limiter, or what serving it leaves. -/
theorem respond_cases (s : Installation) (r : ApiRequest) (token : Option Claims)
    (endpoint : Endpoint) :
    (s.respond r token endpoint).2 = s.charge r ∨
      ∃ s', (s.charge r).serve token endpoint = .ok s' ∧
        (s.respond r token endpoint).2 = s' := by
  rw [respond_eq]
  split_ifs
  · cases hserve : (s.charge r).serve token endpoint with
    | error err => exact .inl rfl
    | ok s' => exact .inr ⟨s', rfl, rfl⟩
  · exact .inl rfl

omit [Unicode] [Bcrypt] [CidrType] in
/-- The bucket of a key in `K` is used up alike. -/
theorem configuration_charge (h : s.configuration K = s'.configuration K)
    (hr : K (RateLimiter.ip r) = true) :
    (s.apiLimiter.middleware s.api.now r).1 = (s'.apiLimiter.middleware s'.api.now r).1 ∧
      (s.charge r).configuration K = (s'.charge r).configuration K := by
  obtain ⟨hapi, hlogin, hlimiter, hrest⟩ := configuration_eq_iff.1 h
  have hnow : s.api.now = s'.api.now := congrArg AccountConfig.now hapi
  rw [Installation.charge, Installation.charge, hnow]
  obtain ⟨hallowed, hbuckets⟩ := RateLimiter.middleware_congr hlimiter hr
  exact ⟨hallowed, configuration_eq_iff.2 ⟨hapi, hlogin, hbuckets, hrest⟩⟩

omit [Bcrypt] in
/-- The request of an administrator. -/
theorem configuration_respond (h : s.configuration K = s'.configuration K)
    (hadmin : s.isAdmin token = true) (hr : K (RateLimiter.ip r) = true) (endpoint : Endpoint) :
    (s.respond r token endpoint).2.configuration K =
      (s'.respond r token endpoint).2.configuration K := by
  obtain ⟨hallowed, hcharge⟩ := configuration_charge h hr
  rw [respond_eq, respond_eq, hallowed]
  split_ifs
  · have hadmin' : (s.charge r).isAdmin token = true := hadmin
    have hserve := configuration_serve hcharge hadmin' endpoint
    cases hs : (s.charge r).serve token endpoint <;>
      cases hs' : (s'.charge r).serve token endpoint <;> simp_all [Except.map, Except.toOption]
  · exact hcharge

omit [Bcrypt] in
/-- Any other request leaves the configuration as it is, but for its load. -/
theorem configuration_respond_unprivileged (hadmin : s.isAdmin token = false)
    (endpoint : Endpoint) :
    (s.respond r token endpoint).2.configuration K = (s.charge r).configuration K := by
  rcases respond_cases s r token endpoint with hcharge | ⟨s', hserve, hs'⟩
  · rw [hcharge]
  · rw [hs']
    obtain ⟨c, -, -, hc, -, rfl | rfl | ⟨domain, rfl⟩⟩ :=
      serve_unprivileged_cases (s := s.charge r) hadmin hserve
    · rfl
    · refine configuration_eq_iff.2 ⟨?_, rfl, rfl, rfl, rfl, rfl, rfl, rfl⟩
      simp [Api.config, newClaims, hc]
    · rfl

/-- The configuration after a request that is not an administrator's is that after a request
without a token. -/
theorem unwinding (sessionTTL : ℤ) (K : GoString → Bool) :
    Unwinding (InstallationEvent.apply sessionTTL) (AdminKeys K) (anonymise K)
      (Installation.configuration K) where
  replaces s s' e e' hfits hedit h := by
    obtain ⟨hapi, hlogin, hlimiter, hstore, hsystem, hpending, hcallback, hjobs⟩ :=
      configuration_eq_iff.1 h
    have hnow : s.api.now = s'.api.now := congrArg AccountConfig.now hapi
    cases e with
    | request r token endpoint =>
      have hrecord : Installation.configuration K { s with api := s.api.record } =
          Installation.configuration K { s' with api := s'.api.record } := h
      simp only [anonymise] at hedit
      split_ifs at hedit with hadmin hr <;> cases hedit
      · exact configuration_respond hrecord hadmin (hfits hadmin) endpoint
      · have hnobody : Installation.isAdmin { s' with api := s'.api.record } none = false := rfl
        have hadmin' : Installation.isAdmin { s with api := s.api.record } token = false :=
          Bool.not_eq_true _ ▸ hadmin
        exact (configuration_respond_unprivileged hadmin' endpoint).trans
          ((configuration_charge hrecord hr).2.trans
            (configuration_respond_unprivileged hnobody .getMetrics).symm)
    | tick d =>
      cases hedit
      exact configuration_eq_iff.2 ⟨config_tick hapi d, hlogin, hlimiter, hstore,
        config_apply hsystem _, hpending, hcallback, hjobs⟩
    | login r username password =>
      cases hedit
      simp only [InstallationEvent.apply, hnow, hlogin]
      refine configuration_eq_iff.2
        ⟨?_, rfl, hlimiter, hstore, hsystem, hpending, hcallback, hjobs⟩
      dsimp only
      split_ifs
      · exact config_login hapi username password
      · exact hapi
    | cleanupLogins =>
      cases hedit
      simp only [InstallationEvent.apply, hnow, hlogin]
      exact configuration_eq_iff.2
        ⟨hapi, rfl, hlimiter, hstore, hsystem, hpending, hcallback, hjobs⟩
    | cleanupApi =>
      cases hedit
      simp only [InstallationEvent.apply, hnow]
      refine configuration_eq_iff.2
        ⟨hapi, hlogin, ?_, hstore, hsystem, hpending, hcallback, hjobs⟩
      dsimp only
      rw [RateLimiter.restrict_cleanup, RateLimiter.restrict_cleanup, hlimiter]
    | portal r dbFails =>
      cases hedit
      have husers : s.api.users = s'.api.users := congrArg AccountConfig.users hapi
      simp only [InstallationEvent.apply, hnow, husers]
      exact configuration_eq_iff.2 ⟨hapi, hlogin, hlimiter, hstore,
        config_editIdentity hsystem _, hpending, hcallback, hjobs⟩
    | evictSessions =>
      cases hedit
      simp only [InstallationEvent.apply, hnow]
      exact configuration_eq_iff.2 ⟨hapi, hlogin, hlimiter, hstore, config_apply hsystem _,
        hpending, hcallback, hjobs⟩
    | takeNotification =>
      cases hedit
      simp only [InstallationEvent.apply, hcallback, hpending]
      split
      · exact configuration_eq_iff.2 ⟨hapi, hlogin, hlimiter, hstore, hsystem, rfl, rfl, hjobs⟩
      · exact h
    | callback input =>
      cases hedit
      obtain ⟨hwork, hjob⟩ := configuration_work h input s'.callback
      obtain ⟨hapi, hlogin, hlimiter, hstore, hsystem, hpending, -, hjobs⟩ :=
        configuration_eq_iff.1 hwork
      simp only [InstallationEvent.apply, hcallback]
      exact configuration_eq_iff.2
        ⟨hapi, hlogin, hlimiter, hstore, hsystem, hpending, hjob, hjobs⟩
    | work i input =>
      cases hedit
      simp only [InstallationEvent.apply, hjobs]
      cases s'.jobs[i]? with
      | none => exact h
      | some job =>
        obtain ⟨hwork, hjob⟩ := configuration_work h input job
        obtain ⟨hapi, hlogin, hlimiter, hstore, hsystem, hpending, hcallback, hjobs⟩ :=
          configuration_eq_iff.1 hwork
        exact configuration_eq_iff.2 ⟨hapi, hlogin, hlimiter, hstore, hsystem, hpending, hcallback,
          by dsimp only; rw [hjobs, hjob]⟩
    | update query =>
      cases hedit
      simp only [InstallationEvent.apply, hstore]
      split
      · exact h
      · exact configuration_start h _
    | traffic e he =>
      cases hedit
      exact configuration_eq_iff.2 ⟨hapi, hlogin, hlimiter, hstore, config_apply hsystem e,
        hpending, hcallback, hjobs⟩
  hides s e hfits hedit := by
    cases e with
    | request r token endpoint =>
      simp only [anonymise] at hedit
      split_ifs at hedit with hadmin hr
      have hadmin' : Installation.isAdmin { s with api := s.api.record } token = false :=
        Bool.not_eq_true _ ▸ hadmin
      refine (configuration_respond_unprivileged hadmin' endpoint).trans ?_
      refine configuration_eq_iff.2 ⟨rfl, rfl, ?_, rfl, rfl, rfl, rfl, rfl⟩
      exact RateLimiter.restrict_middleware (Bool.not_eq_true _ ▸ hr)
    | _ => cases hedit

end Steps

/-! ### Runs -/

/-- A request that does not come from an administrator leaves nothing behind but its load on the
limiter; or, with a token that is still valid, another token for the same user and role, or a cache
without the entries of some domain. -/
def LeavesBehind (s s' : Installation) (r : ApiRequest) (token : Option Claims) : Prop :=
  let charged := Installation.charge { s with api := s.api.record } r
  s' = charged ∨ ∃ c ∈ s.api.issued, token = some c ∧ c.role ≠ 0 ∧ s.api.now < c.exp * second ∧
    (s' = { charged with api := { charged.api with
        issued := charged.api.issued ++ [newClaims s.api.now c.userID c.username c.role] } } ∨
      ∃ domain, s' = { charged with system := (SystemEvent.invalidate domain).apply s.system })

/-- **Let `K` be keys of the limiter, among them those from which administrators send their
requests.  Then all other requests with a key in `K` can lose their tokens, and those with another
key can be left out: the accounts, the database, the jobs, the clock, the lists, policies, ranges
and sessions in memory, all refusals of queries and the buckets of `K` are the same.** -/
theorem access_control (sessionTTL : ℤ) (K : GoString → Bool) (s : Installation)
    (es : List InstallationEvent)
    (hK : Along (InstallationEvent.apply sessionTTL) (AdminKeys K) s es) :
    let apply := InstallationEvent.apply sessionTTL
    (run apply s es).configuration K =
        (run apply s (redact apply (anonymise K) s es)).configuration K ∧
      ∀ pre r token endpoint post, es = pre ++ .request r token endpoint :: post →
        (run apply s pre).isAdmin token = false →
        LeavesBehind (run apply s pre) (run apply s (pre ++ [.request r token endpoint]))
          r token := by
  intro apply
  refine ⟨(unwinding sessionTTL K).run_redact rfl hK, ?_⟩
  rintro pre r token endpoint post - hadmin
  rw [run_concat]
  generalize run apply s pre = s at *
  have hadmin' : Installation.isAdmin (.charge { s with api := s.api.record } r) token = false :=
    hadmin
  change LeavesBehind s (Installation.respond { s with api := s.api.record } r token endpoint).2
    r token
  rcases respond_cases { s with api := s.api.record } r token endpoint with
    hcharge | ⟨s', hserve, hs'⟩
  · exact .inl hcharge
  · rw [hs']
    obtain ⟨c, hc, htoken, hc0, hlt, rfl | rfl | ⟨domain, rfl⟩⟩ :=
      serve_unprivileged_cases hadmin' hserve
    · exact .inl rfl
    · exact .inr ⟨c, hc, htoken, hc0, hlt, .inl rfl⟩
    · exact .inr ⟨c, hc, htoken, hc0, hlt, .inr ⟨domain, rfl⟩⟩

end Access

/-- A new installation with an administrator and a viewer. -/
def withViewer : letI := plainMiekg; Installation :=
  letI := plainMiekg
  { api := .start 0
      [⟨1, "admin".toList, "a".toList, 0, true⟩, ⟨2, "viewer".toList, "b".toList, 1, true⟩] 3
    loginLimiter := .new 5 10
    apiLimiter := .new 30 60
    store := .migrated
    system := .start 0 openHandler
    pending := []
    callback := []
    jobs := [] }

/-- Both log in; the viewer tries to open the policy of the default group, then, through the port
of the administrator, invalidates a domain; the administrator creates a group. -/
def sharedRun : letI := plainMiekg; List InstallationEvent :=
  letI := plainMiekg
  let admin := some (newClaims 0 1 "admin".toList 0)
  let viewer := some (newClaims 0 2 "viewer".toList 1)
  [.login (loginFrom 2000) "viewer".toList "b".toList,
    .login (loginFrom 1000) "admin".toList "a".toList,
    .request (loginFrom 2000) viewer (.setGroupPolicy 1 []),
    .request (loginFrom 1000) viewer (.invalidateCache "a.com".toList),
    .request (loginFrom 1000) admin (.createGroup 2 "kids".toList [])]

/-- Of the requests of the viewer, only the load of the second one counts. -/
theorem access_control_viewer :
    letI := asciiTable; letI := plainMiekg; letI := plainBcrypt; letI := plainCidr
    letI := chiRealIP
    let apply := InstallationEvent.apply hour
    let K := fun k => decide (k = RateLimiter.ip (loginFrom 1000))
    (run apply withViewer sharedRun).configuration K =
      (run apply withViewer [.login (loginFrom 2000) "viewer".toList "b".toList,
        .login (loginFrom 1000) "admin".toList "a".toList,
        .request (loginFrom 1000) none .getMetrics,
        .request (loginFrom 1000) (some (newClaims 0 1 "admin".toList 0))
          (.createGroup 2 "kids".toList [])]).configuration K := by
  let := asciiTable
  let := plainMiekg
  let := plainBcrypt
  let := plainCidr
  let := chiRealIP
  intro apply K
  have hviewer : ∀ n ∈ [2, 3], (run apply withViewer (sharedRun.take n)).isAdmin
      (some (newClaims 0 2 "viewer".toList 1)) = false := by decide +kernel
  have h2 := hviewer 2 (by simp)
  have h3 := hviewer 3 (by simp)
  have h4 : (run apply withViewer (sharedRun.take 4)).isAdmin
      (some (newClaims 0 1 "admin".toList 0)) = true := by decide +kernel
  have hother : K (RateLimiter.ip (loginFrom 2000)) = false := by decide +kernel
  have hshared : K (RateLimiter.ip (loginFrom 1000)) = true := decide_eq_true rfl
  have hK : Along apply (AdminKeys K) withViewer sharedRun :=
    ⟨trivial, trivial, fun h => absurd (h2.symm.trans h) (by decide), fun _ => hshared,
      fun _ => hshared, trivial⟩
  simp only [sharedRun, List.take_succ_cons, List.take_zero, run_cons, run_nil] at h2 h3 h4
  have hredact : redact apply (anonymise K) withViewer sharedRun = [
      .login (loginFrom 2000) "viewer".toList "b".toList,
      .login (loginFrom 1000) "admin".toList "a".toList,
      .request (loginFrom 1000) none .getMetrics,
      .request (loginFrom 1000) (some (newClaims 0 1 "admin".toList 0))
        (.createGroup 2 "kids".toList [])] := by
    simp only [sharedRun, redact, anonymise, h2, h3, h4, hother, hshared]
    rfl
  rw [← hredact]
  exact (access_control hour K withViewer sharedRun hK).1

end DnsFilter
