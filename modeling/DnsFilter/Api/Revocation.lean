import DnsFilter.Api.Auth

/-!
# Revocation

A user whose rights are taken away keeps them as long as the tokens issued to him, and
`RefreshToken` issues new ones from old ones without a look at the accounts.

* `RightsRecent`: whom the middleware lets through had the role of his token within the last
  hour;
* `Justified`: a token that can only be used so;
* `revocation_iff`: rights are recent, whatever the tokens issued are used for, exactly when
  no token is refreshed for a user who has lost its role.
-/

namespace DnsFilter

open EventRun

/-- An active account with this role. -/
def ActiveAs (users : List AdminUserRow) (id role : ℤ) : Prop :=
  ∃ row ∈ users, row.id = id ∧ row.active = true ∧ row.role = role

instance (users : List AdminUserRow) (id role : ℤ) : Decidable (ActiveAs users id role) :=
  inferInstanceAs (Decidable (∃ row ∈ users, _))

/-- The user was active with this role at some moment from `t` on. -/
def Api.ActiveSince (s : Api) (t id role : ℤ) : Prop :=
  ∃ m ∈ s.moments, t ≤ m.1 ∧ ActiveAs m.2 id role

instance (s : Api) (t id role : ℤ) : Decidable (s.ActiveSince t id role) :=
  inferInstanceAs (Decidable (∃ m ∈ s.moments, _))

/-- A user whom the middleware lets through was active with the role of the token within the
last hour. -/
def RightsRecent (s : Api) : ApiEvent → Prop
  | .request token _ => ∀ user, s.authMiddleware token = .ok user →
      s.ActiveSince (s.now - hour) user.id user.role
  | _ => True

/-- A user who gets a token refreshed is active with its role, or was when the current second
began. -/
def Vouched (s : Api) : ApiEvent → Prop
  | .request token .refreshToken => ∀ user, s.authMiddleware token = .ok user →
      s.ActiveSince (unix (s.now + hour) * second - 1 - hour) user.id user.role
  | _ => True

/-- Time passes, or issued tokens are used, without any change. -/
def ApiEvent.isQuiet : ApiEvent → Bool
  | .tick _ => true
  | .request _ .view => true
  | _ => false

/-- Whenever a token is used before it expires, its user was active with its role within the
hour before. -/
def Justified (s : Api) (c : Claims) : Prop :=
  s.ActiveSince (c.exp * second - 1 - hour) c.userID c.role

/-- All tokens that can still be used are justified. -/
def AllJustified (s : Api) : Prop := ∀ c ∈ s.issued, s.now < c.exp * second → Justified s c

/-! ### Steps -/

theorem Api.ActiveSince.mono {s s' : Api} {t t' id role : ℤ} (h : s.ActiveSince t id role)
    (hsub : s.moments ⊆ s'.moments) (ht : t' ≤ t) : s'.ActiveSince t' id role := by
  obtain ⟨m, hm, hle, hactive⟩ := h
  exact ⟨m, hsub hm, ht.trans hle, hactive⟩

theorem Api.activeSince_now {s : Api} {t id role : ℤ} (ht : t ≤ s.now)
    (h : ActiveAs s.users id role) : s.ActiveSince t id role :=
  ⟨(s.now, s.users), List.mem_append_right _ (List.mem_singleton_self _), ht, h⟩

section Runs

variable [Bcrypt]

theorem past_apply (s : Api) (e : ApiEvent) : (e.apply s).past = s.moments := by
  cases e with
  | tick d => rfl
  | login username password =>
    rcases s.record.login_cases username password with ⟨err, h⟩ | ⟨user, -, -, h⟩ <;>
      rw [ApiEvent.apply, h] <;> rfl
  | request token route =>
    rw [ApiEvent.apply]
    cases h : s.record.serve token route with
    | error err => rfl
    | ok s' =>
      rcases s.record.serve_cases token route with ⟨err, herr⟩ | ⟨user, -, hserve⟩
      · cases h.symm.trans herr
      · exact (Api.handle_eq_ok (hserve.symm.trans h)).2.1

theorem moments_apply (s : Api) (e : ApiEvent) :
    (e.apply s).moments = s.moments ++ [((e.apply s).now, (e.apply s).users)] := by
  rw [Api.moments, past_apply]

theorem moments_subset_apply (s : Api) (e : ApiEvent) : s.moments ⊆ (e.apply s).moments := by
  rw [moments_apply]
  exact List.subset_append_left ..

/-- The log of moments is that of the states before. -/
theorem mem_moments_run (s : Api) (hs : s.past = []) (es : List ApiEvent)
    (m : ℤ × List AdminUserRow) :
    m ∈ (run ApiEvent.apply s es).moments ↔
      ∃ pre, pre <+: es ∧
        m = ((run ApiEvent.apply s pre).now, (run ApiEvent.apply s pre).users) := by
  induction es using List.reverseRecOn with
  | nil => simp [Api.moments, hs]
  | append_singleton es e ih =>
    rw [run_concat, moments_apply, List.mem_append, ih, List.mem_singleton]
    simp only [List.prefix_concat_iff, or_and_right, exists_or, exists_eq_left, run_concat]
    exact or_comm

/-- A user whom a login or a refresh gives a new token. -/
def Issues (s : Api) (e : ApiEvent) (user : AuthUser) : Prop :=
  ActiveAs s.users user.id user.role ∨
    ∃ token, e = .request token .refreshToken ∧ s.authMiddleware token = .ok user

/-- An event issues no token, or one and changes nothing else. -/
theorem apply_cases (s : Api) (e : ApiEvent) :
    ((e.apply s).issued = s.issued ∧ s.now ≤ (e.apply s).now) ∨
      ∃ user, Issues s e user ∧ (e.apply s).now = s.now ∧
        (e.apply s).issued = s.issued ++ [newClaims s.now user.id user.username user.role] := by
  cases e with
  | tick d => exact .inl ⟨rfl, by simp [ApiEvent.apply, Api.record]⟩
  | login username password =>
    rw [ApiEvent.apply]
    rcases s.record.login_cases username password with ⟨err, h⟩ | ⟨user, huser, hactive, h⟩
    · rw [h]
      exact .inl ⟨rfl, le_rfl⟩
    · rw [h]
      exact .inr ⟨⟨user.id, user.username, user.role⟩, .inl ⟨user, huser, rfl, hactive, rfl⟩,
        rfl, rfl⟩
  | request token route =>
    rw [ApiEvent.apply]
    rcases s.record.serve_cases token route with ⟨err, h⟩ | ⟨user, huser, h⟩
    · rw [h]
      exact .inl ⟨rfl, le_rfl⟩
    · rw [h]
      by_cases hroute : route = .refreshToken
      · subst hroute
        exact .inr ⟨user, .inr ⟨token, rfl, huser⟩, rfl, rfl⟩
      · cases hs' : s.record.handle user route with
        | error err => exact .inl ⟨rfl, le_rfl⟩
        | ok s' =>
          obtain ⟨hnow, -, hissued⟩ := Api.handle_eq_ok hs'
          exact .inl ⟨hissued hroute, hnow.ge⟩

/-- A token is refreshed for whoever is let through. -/
theorem refresh_apply {s : Api} {token : Option Claims} {user : AuthUser}
    (h : s.authMiddleware token = .ok user) :
    (ApiEvent.request token .refreshToken).apply s =
      { s.record with
        issued := s.issued ++ [newClaims s.now user.id user.username user.role] } := by
  have hrecord : s.record.authMiddleware token = .ok user := h
  simp only [ApiEvent.apply, Api.serve, hrecord]
  rfl

/-! ### Lifetimes -/

omit [Bcrypt] in
theorem unix_mul_le (t : ℤ) : unix t * second ≤ t := by
  unfold unix second
  omega

omit [Bcrypt] in
theorem lt_unix_mul (t : ℤ) : t - second < unix t * second := by
  unfold unix second
  omega

omit [Bcrypt] in
theorem lt_exp_newClaims (now id role : ℤ) (username : GoString) :
    now < (newClaims now id username role).exp * second := by
  have hlt := lt_unix_mul (now + hour)
  have hsecond : second ≤ hour := by decide
  show now < unix (now + hour) * second
  omega

/-- No token lives longer than an hour. -/
def Bounded (s : Api) : Prop := ∀ c ∈ s.issued, c.exp * second ≤ s.now + hour

theorem Bounded.apply {s : Api} (h : Bounded s) (e : ApiEvent) : Bounded (e.apply s) := by
  intro c hc
  rcases apply_cases s e with ⟨hissued, hnow⟩ | ⟨user, -, hnow, hissued⟩
  · rw [hissued] at hc
    exact (h c hc).trans (by omega)
  · rw [hissued, List.mem_append, List.mem_singleton] at hc
    rw [hnow]
    rcases hc with hc | rfl
    · exact h c hc
    · exact unix_mul_le _

/-! ### Tokens that are justified -/

/-- What is left to show for a step is about the token that it issues. -/
theorem AllJustified.apply {s : Api} (h : AllJustified s) (e : ApiEvent)
    (hnew : ∀ user, Issues s e user →
      s.ActiveSince (unix (s.now + hour) * second - 1 - hour) user.id user.role) :
    AllJustified (e.apply s) := by
  intro c hc hlive
  refine Api.ActiveSince.mono ?_ (moments_subset_apply s e) le_rfl
  rcases apply_cases s e with ⟨hissued, hnow⟩ | ⟨user, huser, hnow, hissued⟩
  · rw [hissued] at hc
    exact h c hc (hnow.trans_lt hlive)
  · rw [hissued, List.mem_append, List.mem_singleton] at hc
    rw [hnow] at hlive
    rcases hc with hc | rfl
    · exact h c hc hlive
    · exact hnew user huser

/-- The exact condition for a step to keep all tokens justified. -/
theorem allJustified_apply {s : Api} (h : AllJustified s) (e : ApiEvent) :
    AllJustified (e.apply s) ↔ Vouched s e := by
  constructor
  · intro hall
    cases e with
    | request token route =>
      cases route with
      | refreshToken =>
        intro user huser
        have happly := refresh_apply huser
        have hnew := hall (newClaims s.now user.id user.username user.role)
          (by rw [happly]; simp) (by rw [happly]; exact lt_exp_newClaims ..)
        refine hnew.mono ?_ le_rfl
        rw [happly]
        simp [Api.moments, Api.record]
      | _ => trivial
    | _ => trivial
  · intro hvouched
    refine h.apply e ?_
    rintro user (hactive | ⟨token, rfl, huser⟩)
    · refine Api.activeSince_now ?_ hactive
      have hle := unix_mul_le (s.now + hour)
      omega
    · exact hvouched user huser

omit [Bcrypt] in
theorem AllJustified.rightsRecent {s : Api} (h : AllJustified s) (e : ApiEvent) :
    RightsRecent s e := by
  cases e with
  | request token route =>
    intro user huser
    obtain ⟨c, hc, -, hlive, rfl⟩ := Api.authMiddleware_eq_ok.1 huser
    exact (h c hc hlive).mono (List.Subset.refl _) (by omega)
  | _ => trivial

/-- While all refreshes are vouched for, rights stay recent. -/
theorem AllJustified.along {s : Api} (h : AllJustified s) {es : List ApiEvent}
    (hes : Along ApiEvent.apply Vouched s es) : Along ApiEvent.apply RightsRecent s es := by
  induction es generalizing s with
  | nil => trivial
  | cons e es ih => exact ⟨h.rightsRecent e, ih ((allJustified_apply h e).2 hes.1) hes.2⟩

theorem along_vouched_of_isQuiet {s : Api} {ws : List ApiEvent}
    (h : ∀ e ∈ ws, e.isQuiet = true) : Along ApiEvent.apply Vouched s ws := by
  induction ws generalizing s with
  | nil => trivial
  | cons e ws ih =>
    refine ⟨?_, ih fun e' he' => h e' (List.mem_cons_of_mem e he')⟩
    have he := h e List.mem_cons_self
    cases e with
    | request token route =>
      cases route with
      | refreshToken => cases he
      | _ => trivial
    | _ => trivial

/-- A token that is not justified can be used too late: just before it expires. -/
theorem allJustified_of_along {s : Api} (hbound : Bounded s)
    (h : ∀ ws, (∀ e ∈ ws, ApiEvent.isQuiet e = true) → Along ApiEvent.apply RightsRecent s ws) :
    AllJustified s := by
  intro c hc hlive
  -- wait for the last nanosecond of the token, and use it
  let d := (c.exp * second - 1 - s.now).toNat
  have hd : s.now + d = c.exp * second - 1 := by omega
  obtain ⟨-, hrecent, -⟩ := h [.tick d, .request (some c) .view] (by simp [ApiEvent.isQuiet])
  obtain ⟨m, hm, hle, hactive⟩ := hrecent ⟨c.userID, c.username, c.role⟩
    (Api.authMiddleware_eq_ok.2 ⟨c, hc, rfl, by simp only [ApiEvent.apply]; omega, rfl⟩)
  rw [moments_apply, List.mem_append, List.mem_singleton] at hm
  simp only [ApiEvent.apply, hd] at hle hm
  rcases hm with hm | rfl
  · exact ⟨m, hm, hle, hactive⟩
  · -- the accounts have not changed while waiting
    refine Api.activeSince_now ?_ hactive
    have := hbound c hc
    omega

/-! ### Revocation -/

/-- **Whatever the tokens of a run are used for, now or while nothing changes any more, whom
the middleware lets through had the role of his token within the last hour: this holds at all
points of a run exactly when no token in it is refreshed for a user who has lost its role.** -/
theorem revocation_iff (now : ℤ) (users : List AdminUserRow) (nextUserID : ℤ)
    (es : List ApiEvent) :
    (∀ fs ws, fs <+: es → (∀ e ∈ ws, ApiEvent.isQuiet e = true) →
        Along ApiEvent.apply RightsRecent (Api.start now users nextUserID) (fs ++ ws)) ↔
      Along ApiEvent.apply Vouched (Api.start now users nextUserID) es := by
  have h0 : AllJustified (Api.start now users nextUserID) := by simp [AllJustified, Api.start]
  have hbound : Bounded (Api.start now users nextUserID) := by simp [Bounded, Api.start]
  constructor
  · intro h
    rw [along_iff AllJustified (fun s e h => allJustified_apply h e) h0]
    intro fs hfs
    refine allJustified_of_along (run_invariant Bounded (fun s e hs => hs.apply e) hbound fs) ?_
    intro ws hws
    exact ((along_append _ _ _).1 (h fs ws hfs hws)).2
  · rintro h fs ws ⟨rest, rfl⟩ hws
    have hfs := ((along_append _ _ _).1 h).1
    exact h0.along ((along_append _ _ _).2 ⟨hfs, along_vouched_of_isQuiet hws⟩)

end Runs

/-! ### A user who stays -/

/-- Passwords that are their own hashes. -/
@[reducible] def plainBcrypt : Bcrypt := ⟨fun hash password => hash = password⟩

/-- Two administrators. -/
def twoAdmins : List AdminUserRow :=
  [⟨1, "admin".toList, "a".toList, 0, true⟩, ⟨2, "ana".toList, "b".toList, 0, true⟩]

/-- `ana` is deactivated, refreshes her token 50 minutes later and uses the new one after another
50 minutes. -/
def outlivedRun : List ApiEvent :=
  [.login "admin".toList "a".toList, .login "ana".toList "b".toList,
    .request (some (newClaims 0 1 "admin".toList 0)) (.deleteUser 2),
    .tick (3000 * 1000000000), .request (some (newClaims 0 2 "ana".toList 0)) .refreshToken,
    .tick (3000 * 1000000000),
    .request (some (newClaims (3000 * second) 2 "ana".toList 0)) .manage]

/-- She is let through as an administrator. -/
theorem rights_outlive_revocation :
    letI := plainBcrypt
    ¬ Along ApiEvent.apply RightsRecent (Api.start 0 twoAdmins 3) outlivedRun := by
  let := plainBcrypt
  rintro ⟨-, -, -, -, -, -, h, -⟩
  -- the last event: nobody who was active within the hour before is `ana`
  have hrecent := h ⟨2, "ana".toList, 0⟩ rfl
  revert hrecent
  decide

end DnsFilter
