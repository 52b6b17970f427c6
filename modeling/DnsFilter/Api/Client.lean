import DnsFilter.Api.Revocation

/-!
# The client of the dashboard

The response interceptor of `web/src/api/client.ts` beside the server.  On a 401 it asks
`/api/auth/refresh` for a new token, with the one that it holds; but the route is behind
`AuthMiddleware`, which answers 401 once that token has expired.  While one request waits for a
refresh, the 401 of another one goes straight to the login page.

* `Dashboard.serve`, `Dashboard.receive`: what the server and the client do with a message of one
  request; messages of different requests arrive in any order;
* `Doomed.apply`: with an expired token every request is on its way to the login page;
* `recovers_iff`: a run ends well exactly if there was no request.
-/

namespace DnsFilter

open EventRun

/-- What happens to a request at the moment. -/
inductive RequestStage
  /-- It is on its way, with the token in its header. -/
  | sent (token : Option Claims)
  /-- The status of the answer is on its way back. -/
  | answered (status : ℕ)
  /-- Its interceptor has asked for a new token. -/
  | refreshSent (token : Claims)
  /-- The answer to that is on its way back, with the new token unless it failed. -/
  | refreshAnswered (token : Option Claims)
  | resolved
  | rejected
  deriving DecidableEq

/-- A request of the client, with the mark `_retry` and the token of the retry. -/
structure ClientRequest where
  route : Route
  retry : Bool
  stage : RequestStage
  retriedWith : Option Claims

/-- The server, and the client with its `localStorage`, the flag of its interceptor and its
requests. -/
structure Dashboard where
  api : Api
  token : Option Claims
  isRefreshing : Bool
  /-- `window.location.href` was set to the login page. -/
  atLogin : Bool
  requests : ℕ → Option ClientRequest

namespace Dashboard

def update (d : Dashboard) (i : ℕ) (r : ClientRequest) : Dashboard :=
  { d with requests := Function.update d.requests i (some r) }

/-- The stored token is removed, and the user sent to the login page. -/
def toLogin (d : Dashboard) : Dashboard := { d with token := none, atLogin := true }

/-- The server handles a message of the request `i`. -/
def serve (d : Dashboard) (i : ℕ) : Dashboard :=
  match d.requests i with
  | none => d
  | some r =>
      match r.stage with
      | .sent token =>
          match d.api.serve token r.route with
          | .ok api => { d with api := api }.update i { r with stage := .answered 200 }
          | .error err => d.update i { r with stage := .answered err.status }
      | .refreshSent token =>
          match d.api.serve (some token) .refreshToken with
          | .ok api =>
              { d with api := api }.update i
                { r with stage := .refreshAnswered api.issued.getLast? }
          | .error _ => d.update i { r with stage := .refreshAnswered none }
      | _ => d

/-- The interceptor, on an answer to the request `i`. -/
def receive (d : Dashboard) (i : ℕ) : Dashboard :=
  match d.requests i with
  | none => d
  | some r =>
      match r.stage with
      | .answered status =>
          if status = 200 then d.update i { r with stage := .resolved }
          else if status = 401 ∧ r.retry = false then
            if d.isRefreshing then d.toLogin.update i { r with stage := .rejected }
            else
              match d.token with
              | none => d.toLogin.update i { r with retry := true, stage := .rejected }
              | some token =>
                  { d with isRefreshing := true }.update i
                    { r with retry := true, stage := .refreshSent token }
          else d.update i { r with stage := .rejected }
      | .refreshAnswered (some token) =>
          { d with token := some token, isRefreshing := false }.update i
            { r with stage := .sent (some token), retriedWith := some token }
      | .refreshAnswered none =>
          { d.toLogin with isRefreshing := false }.update i { r with stage := .rejected }
      | _ => d

/-- No message is on its way. -/
def Settled (d : Dashboard) : Prop :=
  ∀ i r, d.requests i = some r → r.stage = .resolved ∨ r.stage = .rejected

/-- The client has a token with which all the requests were retried, and has not left for the login
page. -/
structure Recovers (d : Dashboard) (ids : Finset ℕ) : Prop where
  retried : ∃ token, d.token = some token ∧
    ∀ i ∈ ids, ∃ r, d.requests i = some r ∧ r.retriedWith = some token
  stays : d.atLogin = false

end Dashboard

inductive DashboardEvent
  /-- Time passes, or the server handles something else. -/
  | api (e : ApiEvent)
  | serve (i : ℕ)
  | receive (i : ℕ)

def DashboardEvent.apply [Bcrypt] (d : Dashboard) : DashboardEvent → Dashboard
  | .api e => { d with api := e.apply d.api }
  | .serve i => d.serve i
  | .receive i => d.receive i

/-- A server with an active user whose token has expired. -/
structure ExpiredSession where
  api : Api
  token : Claims
  issued : token ∈ api.issued
  expired : token.exp * second ≤ api.now
  active : ∃ user ∈ api.users, user.id = token.userID ∧ user.active = true

/-- The client of the user has sent some requests. -/
def ExpiredSession.start (s : ExpiredSession) (ids : Finset ℕ) (route : ℕ → Route) : Dashboard where
  api := s.api
  token := some s.token
  isRefreshing := false
  atLogin := false
  requests i := if i ∈ ids then some ⟨route i, false, .sent (some s.token), none⟩ else none

/-! ### The way to the login page -/

theorem Api.serve_of_expired {s : Api} {token : Claims} (h : token.exp * second ≤ s.now)
    (route : Route) : s.serve (some token) route = .error ⟨"Token inválido", 401⟩ := by
  have hrejected : s.authMiddleware (some token) = .error ⟨"Token inválido", 401⟩ :=
    if_neg fun hvalid => absurd hvalid.2 (not_lt.2 h)
  rw [Api.serve, hrejected]

/-- The client has lost its token and left. -/
def Dashboard.Gone (d : Dashboard) : Prop := d.token = none ∧ d.atLogin = true

/-- A request that does not come back, sent with a token that has expired. -/
def ClientRequest.Lost (token : Claims) (gone : Prop) (r : ClientRequest) : Prop :=
  match r.stage with
  | .sent t => t = some token ∧ r.retry = false
  | .answered status => status = 401 ∧ r.retry = false
  | .refreshSent t => t = token
  | .refreshAnswered t => t = none
  | .resolved => False
  | .rejected => gone

theorem ClientRequest.Lost.mono {token : Claims} {gone gone' : Prop} {r : ClientRequest}
    (h : r.Lost token gone) (hgone : gone → gone') : r.Lost token gone' := by
  obtain ⟨route, retry, stage, retriedWith⟩ := r
  cases stage with
  | rejected => exact hgone h
  | _ => exact h

/-- All the requests are lost, and the client has its old token or has left for them. -/
structure Doomed (token : Claims) (ids : Finset ℕ) (d : Dashboard) : Prop where
  expired : token.exp * second ≤ d.api.now
  holds : (d.token = some token ∧ d.atLogin = false) ∨ (d.Gone ∧ ids.Nonempty)
  sent : ∀ i, (d.requests i).isSome ↔ i ∈ ids
  lost : ∀ i r, d.requests i = some r → r.Lost token d.Gone

variable {token : Claims} {ids : Finset ℕ} {d d' : Dashboard}

theorem ExpiredSession.doomed_start (s : ExpiredSession) (ids : Finset ℕ) (route : ℕ → Route) :
    Doomed s.token ids (s.start ids route) := by
  refine ⟨s.expired, .inl ⟨rfl, rfl⟩, fun i => ?_, fun i r hr => ?_⟩
  · by_cases hi : i ∈ ids <;> simp [start, hi]
  · simp only [start] at hr
    split_ifs at hr
    obtain rfl := Option.some.inj hr
    exact ⟨rfl, rfl⟩

/-- A new stage for one request; the server and the other requests stay. -/
theorem Doomed.update (h : Doomed token ids d) {i : ℕ} {r : ClientRequest} (hi : i ∈ ids)
    (hapi : d'.api = d.api) (hrequests : d'.requests = d.requests)
    (hholds : (d'.token = d.token ∧ d'.atLogin = d.atLogin) ∨ d'.Gone)
    (hr : r.Lost token d'.Gone) : Doomed token ids (d'.update i r) := by
  have hgone : d.Gone → d'.Gone := by
    rcases hholds with ⟨htoken, hlogin⟩ | hgone
    · exact fun hg => ⟨htoken.trans hg.1, hlogin.trans hg.2⟩
    · exact fun _ => hgone
  refine ⟨?_, ?_, fun j => ?_, fun j r' hr' => ?_⟩
  · show token.exp * second ≤ d'.api.now
    rw [hapi]
    exact h.expired
  · rcases hholds with ⟨htoken, hlogin⟩ | hgone
    · rcases h.holds with ⟨htoken', hlogin'⟩ | ⟨hg, hne⟩
      · exact .inl ⟨htoken.trans htoken', hlogin.trans hlogin'⟩
      · exact .inr ⟨hgone hg, hne⟩
    · exact .inr ⟨hgone, i, hi⟩
  · simp only [Dashboard.update, hrequests]
    by_cases hj : j = i
    · subst hj
      simp [hi]
    · rw [Function.update_of_ne hj]
      exact h.sent j
  · simp only [Dashboard.update, hrequests] at hr'
    by_cases hj : j = i
    · subst hj
      rw [Function.update_self] at hr'
      obtain rfl := Option.some.inj hr'
      exact hr
    · rw [Function.update_of_ne hj] at hr'
      exact (h.lost j r' hr').mono hgone

/-- The server answers every message with a 401. -/
theorem Doomed.serve (h : Doomed token ids d) (i : ℕ) : Doomed token ids (d.serve i) := by
  unfold Dashboard.serve
  cases hr : d.requests i with
  | none => exact h
  | some r =>
    have hi : i ∈ ids := (h.sent i).1 (by simp [hr])
    have hlost := h.lost i r hr
    obtain ⟨route, retry, stage, retriedWith⟩ := r
    cases stage with
    | sent t =>
      obtain ⟨rfl, hretry⟩ := hlost
      simp only [Api.serve_of_expired h.expired]
      exact h.update hi rfl rfl (.inl ⟨rfl, rfl⟩) ⟨rfl, hretry⟩
    | refreshSent t =>
      obtain rfl := hlost
      simp only [Api.serve_of_expired h.expired]
      exact h.update hi rfl rfl (.inl ⟨rfl, rfl⟩) rfl
    | _ => exact h

/-- The interceptor asks for a refresh, or gives up. -/
theorem Doomed.receive (h : Doomed token ids d) (i : ℕ) : Doomed token ids (d.receive i) := by
  unfold Dashboard.receive
  cases hr : d.requests i with
  | none => exact h
  | some r =>
    have hi : i ∈ ids := (h.sent i).1 (by simp [hr])
    have hlost := h.lost i r hr
    obtain ⟨route, retry, stage, retriedWith⟩ := r
    cases stage with
    | answered status =>
      obtain ⟨rfl, hretry⟩ := hlost
      obtain rfl : retry = false := hretry
      dsimp only
      rw [if_neg (by decide), if_pos ⟨rfl, rfl⟩]
      split_ifs with hrefreshing
      · exact h.update hi rfl rfl (.inr ⟨rfl, rfl⟩) ⟨rfl, rfl⟩
      · rcases h.holds with ⟨htoken, -⟩ | ⟨⟨htoken, -⟩, -⟩
        · simp only [htoken]
          exact h.update hi rfl rfl (.inl ⟨htoken.symm, rfl⟩) rfl
        · simp only [htoken]
          exact h.update hi rfl rfl (.inr ⟨rfl, rfl⟩) ⟨rfl, rfl⟩
    | refreshAnswered t =>
      obtain rfl : t = none := hlost
      exact h.update hi rfl rfl (.inr ⟨rfl, rfl⟩) ⟨rfl, rfl⟩
    | _ => exact h

/-- Once nothing is on its way, all requests are rejected. -/
theorem Doomed.recovers_iff_eq_empty (h : Doomed token ids d) (hsettled : d.Settled) :
    d.Recovers ids ↔ ids = ∅ := by
  constructor
  · intro hrecovers
    by_contra hne
    obtain ⟨i, hi⟩ := Finset.nonempty_iff_ne_empty.2 hne
    obtain ⟨r, hr⟩ := Option.isSome_iff_exists.1 ((h.sent i).2 hi)
    have hlost := h.lost i r hr
    have hgone : d.Gone := by
      obtain ⟨route, retry, stage, retriedWith⟩ := r
      rcases hsettled i _ hr with rfl | rfl
      · exact hlost.elim
      · exact hlost
    obtain ⟨token', htoken', -⟩ := hrecovers.retried
    rw [hgone.1] at htoken'
    cases htoken'
  · rintro rfl
    rcases h.holds with ⟨htoken, hlogin⟩ | ⟨-, hne⟩
    · exact ⟨⟨token, htoken, by simp⟩, hlogin⟩
    · exact absurd hne Finset.not_nonempty_empty

theorem Doomed.settled (h : Doomed token ids d)
    (hids : ∀ i ∈ ids, ∃ r, d.requests i = some r ∧ r.stage = .rejected) : d.Settled := by
  intro i r hr
  obtain ⟨r', hr', hstage⟩ := hids i ((h.sent i).1 (by simp [hr]))
  obtain rfl := Option.some.inj (hr.symm.trans hr')
  exact .inr hstage

section

variable [Bcrypt]

/-- Whatever happens, the token stays expired and the requests lost. -/
theorem Doomed.apply (h : Doomed token ids d) (e : DashboardEvent) :
    Doomed token ids (e.apply d) := by
  cases e with
  | api e =>
    have hnow : d.api.now ≤ (e.apply d.api).now := by
      rcases apply_cases d.api e with ⟨-, hle⟩ | ⟨-, -, heq, -⟩
      · exact hle
      · exact heq.ge
    exact ⟨h.expired.trans hnow, h.holds, h.sent, h.lost⟩
  | serve i => exact h.serve i
  | receive i => exact h.receive i

theorem ExpiredSession.doomed_run (s : ExpiredSession) (ids : Finset ℕ) (route : ℕ → Route)
    (es : List DashboardEvent) :
    Doomed s.token ids (run DashboardEvent.apply (s.start ids route) es) :=
  run_invariant (Doomed s.token ids) (fun _ e hd => hd.apply e) (s.doomed_start ids route) es

/-- **The client recovers from an expired token exactly if it has no request.** -/
theorem recovers_iff (s : ExpiredSession) (ids : Finset ℕ) (route : ℕ → Route)
    (es : List DashboardEvent)
    (h : (run DashboardEvent.apply (s.start ids route) es).Settled) :
    (run DashboardEvent.apply (s.start ids route) es).Recovers ids ↔ ids = ∅ := by
  exact (s.doomed_run ids route es).recovers_iff_eq_empty h

end

/-! ### An hour after the login -/

/-- The token of `admin` after an hour. -/
def adminExpired : ExpiredSession where
  api := { Api.start hour twoAdmins 3 with issued := [newClaims 0 1 "admin".toList 0] }
  token := newClaims 0 1 "admin".toList 0
  issued := List.mem_singleton_self _
  expired := by decide
  active := ⟨_, List.mem_cons_self, rfl, rfl⟩

/-- One request gets a 401, asks for a refresh and gets a 401 for that. -/
def refreshRun : List DashboardEvent := [.serve 0, .receive 0, .serve 0, .receive 0]

/-- The user is sent to the login page. -/
theorem refresh_fails :
    letI := plainBcrypt
    let d := run DashboardEvent.apply (adminExpired.start {0} fun _ => .view) refreshRun
    d.Settled ∧ d.token = none ∧ d.atLogin = true ∧ ¬ d.Recovers {0} := by
  let := plainBcrypt
  have hsettled := (adminExpired.doomed_run {0} (fun _ => .view) refreshRun).settled (by
    simp only [Finset.mem_singleton, forall_eq]
    exact ⟨⟨.view, true, .rejected, none⟩, rfl, rfl⟩)
  refine ⟨hsettled, rfl, rfl, fun h => ?_⟩
  obtain ⟨token, htoken, -⟩ := h.retried
  cases htoken

/-- Two requests get a 401; the second one does not wait for the refresh of the first. -/
theorem refresh_fails_twice :
    letI := plainBcrypt
    ¬ (run DashboardEvent.apply (adminExpired.start {0, 1} fun _ => .view)
      ([.serve 0, .serve 1, .receive 0, .receive 1] ++
        [.serve 0, .receive 0])).Recovers {0, 1} := by
  let := plainBcrypt
  intro h
  refine absurd ((recovers_iff adminExpired {0, 1} (fun _ => .view) _ ?_).1 h) (by simp)
  refine (adminExpired.doomed_run {0, 1} (fun _ => .view) _).settled ?_
  simp only [Finset.mem_insert, Finset.mem_singleton, forall_eq_or_imp, forall_eq]
  exact ⟨⟨⟨.view, true, .rejected, none⟩, rfl, rfl⟩, ⟨.view, false, .rejected, none⟩, rfl, rfl⟩

end DnsFilter
