import DnsFilter.Cache.Cache
import DnsFilter.Lib.Run
import DnsFilter.Store.Tables

/-!
# The admin API: tokens and accounts

`Login`, `AuthMiddleware`, `AdminOnly`, `RefreshToken` and the account handlers of
`internal/api/handlers.go`, behind the routes of `router.go`, over the table `admin_users`
of `internal/store/admin.go`.

* `Api.login`, `Api.serve`: a login, and a request to a protected route;
* `ApiEvent.apply`: the running API.  Tokens are unforgeable: the middleware accepts those
  that were issued, until they expire.

A state also keeps the clock and the accounts of all earlier states (`past`), which no
handler reads.
-/

namespace DnsFilter

open EventRun

def hour : ℤ := 3600 * second

/-- `Unix`: a time in seconds. -/
def unix (t : ℤ) : ℤ := t / second

/-- A row of `admin_users`; role `0` is the administrator, `1` the viewer. -/
structure AdminUserRow where
  id : ℤ
  username : GoString
  /-- The bcrypt hash. -/
  password : GoString
  role : ℤ
  active : Bool
  deriving DecidableEq

/-- The claims of a token; times are in seconds. -/
structure Claims where
  userID : ℤ
  username : GoString
  role : ℤ
  exp : ℤ
  iat : ℤ
  deriving DecidableEq

structure AuthUser where
  id : ℤ
  username : GoString
  role : ℤ
  deriving DecidableEq

structure ApiError where
  text : String
  status : ℕ
  deriving DecidableEq

/-- `CompareHashAndPassword` of the package `bcrypt`. -/
class Bcrypt where
  compareHashAndPassword : GoString → GoString → Bool

/-! ### Accounts -/

/-- `AuthenticateAdmin`. -/
def authenticateAdmin [Bcrypt] (users : List AdminUserRow) (username password : GoString) :
    Option AdminUserRow :=
  match users.find? fun user => user.username = username ∧ user.active with
  | none => none
  | some user =>
      if Bcrypt.compareHashAndPassword user.password password then some user else none

/-- `CreateAdminUser`, with the hash of the password; `none` where the database refuses the
row. -/
def createAdminUser (users : List AdminUserRow) (id : ℤ) (username hash : GoString) (role : ℤ) :
    Option (List AdminUserRow) :=
  if fitsVarchar 100 username ∧ fitsVarchar 255 hash ∧ fitsSmallint role ∧
      ∀ row ∈ users, row.username ≠ varchar 100 username then
    some (users ++ [⟨id, varchar 100 username, varchar 255 hash, role, true⟩])
  else none

/-- `UpdateAdminUser`, `none` where the database refuses the row. -/
def updateAdminUser (users : List AdminUserRow) (id : ℤ) (username : GoString) (role : ℤ)
    (active : Bool) : Option (List AdminUserRow) :=
  if ∀ row ∈ users, row.id ≠ id then some users
  else if fitsVarchar 100 username ∧ fitsSmallint role ∧
      ∀ row ∈ users, row.username = varchar 100 username → row.id = id then
    some (users.map fun row =>
      if row.id = id then
        { row with username := varchar 100 username, role := role, active := active }
      else row)
  else none

/-- `DeleteAdminUser` deactivates a user. -/
def deleteAdminUser (users : List AdminUserRow) (id : ℤ) : List AdminUserRow :=
  users.map fun row => if row.id = id then { row with active := false } else row

/-! ### Handlers -/

structure Api where
  now : ℤ
  users : List AdminUserRow
  /-- The sequence behind `admin_users.id`.  The values that failed insertions may use up, too,
  are not counted: they leave gaps between the ids and nothing else. -/
  nextUserID : ℤ
  issued : List Claims
  past : List (ℤ × List AdminUserRow)

/-- A protected route, with what its handler reads from the request. -/
inductive Route
  | refreshToken
  /-- Statistics, metrics, logs and the cache. -/
  | view
  | createUser (username hash : GoString) (role : ℤ)
  | updateUser (id : ℤ) (username : GoString) (role : ℤ) (active : Bool)
  | deleteUser (id : ℤ)
  /-- The other routes for administrators. -/
  | manage

/-- The routes behind `AdminOnly`. -/
def Route.isAdminOnly : Route → Bool
  | .refreshToken | .view => false
  | .createUser .. | .updateUser .. | .deleteUser _ | .manage => true

/-- The claims of a new token. -/
def newClaims (now : ℤ) (userID : ℤ) (username : GoString) (role : ℤ) : Claims where
  userID := userID
  username := username
  role := role
  exp := unix (now + hour)
  iat := unix now

namespace Api

/-- The first state of a process. -/
def start (now : ℤ) (users : List AdminUserRow) (nextUserID : ℤ) : Api :=
  ⟨now, users, nextUserID, [], []⟩

/-- `Login`. -/
def login [Bcrypt] (s : Api) (username password : GoString) : Except ApiError Api :=
  match authenticateAdmin s.users username password with
  | none => .error ⟨"Credenciais inválidas", 401⟩
  | some user =>
      .ok { s with issued := s.issued ++ [newClaims s.now user.id user.username user.role] }

/-- `AuthMiddleware`, on the claims of the token in the header. -/
def authMiddleware (s : Api) (token : Option Claims) : Except ApiError AuthUser :=
  match token with
  | none => .error ⟨"Token não fornecido", 401⟩
  | some claims =>
      if claims ∈ s.issued ∧ s.now < claims.exp * second then
        .ok ⟨claims.userID, claims.username, claims.role⟩
      else .error ⟨"Token inválido", 401⟩

/-- The handler of a route; the text of a database error goes on with its cause. -/
def handle (s : Api) (user : AuthUser) : Route → Except ApiError Api
  | .refreshToken =>
      .ok { s with issued := s.issued ++ [newClaims s.now user.id user.username user.role] }
  | .view | .manage => .ok s
  | .createUser username hash role =>
      match createAdminUser s.users s.nextUserID username hash role with
      | none => .error ⟨"Erro ao criar usuário: ", 500⟩
      | some users => .ok { s with users := users, nextUserID := s.nextUserID + 1 }
  | .updateUser id username role active =>
      match updateAdminUser s.users id username role active with
      | none => .error ⟨"Erro: ", 500⟩
      | some users => .ok { s with users := users }
  | .deleteUser id => .ok { s with users := deleteAdminUser s.users id }

/-- A request to a protected route. -/
def serve (s : Api) (token : Option Claims) (route : Route) : Except ApiError Api :=
  match s.authMiddleware token with
  | .error err => .error err
  | .ok user =>
      if route.isAdminOnly ∧ user.role ≠ 0 then
        .error ⟨"Acesso negado — apenas administradores", 403⟩
      else s.handle user route

/-- The clock and the accounts, now and before. -/
def moments (s : Api) : List (ℤ × List AdminUserRow) := s.past ++ [(s.now, s.users)]

/-- The state, remembered. -/
def record (s : Api) : Api := { s with past := s.moments }

end Api

inductive ApiEvent
  | tick (d : ℕ)
  | login (username password : GoString)
  | request (token : Option Claims) (route : Route)

/-- A request that fails leaves everything as it is. -/
def ApiEvent.apply [Bcrypt] (s : Api) : ApiEvent → Api
  | .tick d => { s.record with now := s.now + d }
  | .login username password => (s.record.login username password).toOption.getD s.record
  | .request token route => (s.record.serve token route).toOption.getD s.record

/-! ### What the handlers change -/

namespace Api

theorem login_cases [Bcrypt] (s : Api) (username password : GoString) :
    (∃ err, s.login username password = .error err) ∨
      ∃ user ∈ s.users, user.active = true ∧ s.login username password =
        .ok { s with issued := s.issued ++ [newClaims s.now user.id user.username user.role] } := by
  unfold login authenticateAdmin
  cases h : s.users.find? fun user => user.username = username ∧ user.active with
  | none => exact .inl ⟨_, rfl⟩
  | some user =>
    by_cases hhash : Bcrypt.compareHashAndPassword user.password password
    · have hactive := List.find?_some h
      simp only [decide_eq_true_eq] at hactive
      exact .inr ⟨user, List.mem_of_find?_eq_some h, hactive.2, by simp [hhash]⟩
    · exact .inl ⟨⟨"Credenciais inválidas", 401⟩, by simp [hhash]⟩

/-- A user is let through with the claims of a token that was issued and has not expired. -/
theorem authMiddleware_eq_ok {s : Api} {token : Option Claims} {user : AuthUser} :
    s.authMiddleware token = .ok user ↔
      ∃ c ∈ s.issued, token = some c ∧ s.now < c.exp * second ∧
        user = ⟨c.userID, c.username, c.role⟩ := by
  cases token with
  | none => simp [authMiddleware]
  | some c =>
    simp only [authMiddleware, Option.some.injEq]
    split_ifs with h
    · simp only [Except.ok.injEq]
      constructor
      · rintro rfl
        exact ⟨c, h.1, rfl, h.2, rfl⟩
      · rintro ⟨c', -, rfl, -, rfl⟩
        rfl
    · simp only [false_iff]
      rintro ⟨c', hmem, rfl, hlt, -⟩
      exact h ⟨hmem, hlt⟩

/-- A handler changes neither the clock nor the past, and only `RefreshToken` issues tokens. -/
theorem handle_eq_ok {s s' : Api} {user : AuthUser} {route : Route}
    (h : s.handle user route = .ok s') :
    s'.now = s.now ∧ s'.past = s.past ∧ (route ≠ .refreshToken → s'.issued = s.issued) := by
  cases route with
  | refreshToken =>
    cases h
    exact ⟨rfl, rfl, fun h => absurd rfl h⟩
  | view | manage | deleteUser id =>
    cases h
    exact ⟨rfl, rfl, fun _ => rfl⟩
  | createUser username hash role =>
    simp only [handle] at h
    split at h <;> cases h
    exact ⟨rfl, rfl, fun _ => rfl⟩
  | updateUser id username role active =>
    simp only [handle] at h
    split at h <;> cases h
    exact ⟨rfl, rfl, fun _ => rfl⟩

/-- A request fails, or is handled for a user who is let through. -/
theorem serve_cases (s : Api) (token : Option Claims) (route : Route) :
    (∃ err, s.serve token route = .error err) ∨
      ∃ user, s.authMiddleware token = .ok user ∧ s.serve token route = s.handle user route := by
  unfold serve
  cases h : s.authMiddleware token with
  | error err => exact .inl ⟨err, rfl⟩
  | ok user =>
    dsimp only
    split_ifs
    · exact .inl ⟨_, rfl⟩
    · exact .inr ⟨user, rfl, rfl⟩

end Api

end DnsFilter
