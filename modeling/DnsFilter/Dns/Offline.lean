import DnsFilter.Api.Access
import DnsFilter.Filter.Changes

/-!
# Without a database

When PostgreSQL cannot be reached, `main` starts all the same: the lists come from the local files,
there are no ranges, categories, policies, log pipeline, API, listener or updater, and the portal
has no users.

* `StaticCredentials.authenticate`: the authenticator of this case;
* `offlineStart`, `OfflineEvent.apply`: the process and what can happen in it;
* `offline_run`: the files decide about every query.
-/

namespace DnsFilter

open Blacklist Engine EventRun

/-- `StaticUser`. -/
structure StaticUser where
  password : GoString
  userID : ℤ
  groupID : ℤ

/-- `StaticCredentials`. -/
structure StaticCredentials where
  users : Finmap fun _ : GoString => StaticUser

def StaticCredentials.authenticate (s : StaticCredentials) : Authenticator :=
  fun username password =>
    match s.users.lookup username with
    | none => none
    | some user =>
        if user.password ≠ password then none
        else some { userID := user.userID, groupID := user.groupID }

/-- A name is covered by `blocklist.txt`, and not by `allowlist.txt`. -/
def ListFiles.Blocks [Unicode] (files : ListFiles) (name : GoString) : Prop :=
  (∃ d ∈ files.blocklist.domains, Covers d name) ∧ ¬ ∃ d ∈ files.allowlist.domains, Covers d name

section Offline

variable [Unicode] [Miekg]

/-- What `main` sets up without a database. -/
def offlineStart (now : ℤ) (h : Handler) (files : ListFiles) : System :=
  .start now { h with filter := startup files none none none, identity := .new 1, logger := false }

inductive OfflineEvent
  | tick (d : ℕ)
  | portal (r : AuthRequest)
  | evictSessions
  | traffic (e : SystemEvent) (h : e.isTraffic = true)

def OfflineEvent.apply (sessionTTL : ℤ) (s : System) : OfflineEvent → System
  | .tick d => (SystemEvent.tick d).apply s
  | .portal r =>
      s.editIdentity fun resolver =>
        (handleAuth (StaticCredentials.mk ∅).authenticate sessionTTL resolver s.now r).1
  | .evictSessions => (SystemEvent.identity (.evictExpiredSessions s.now)).apply s
  | .traffic e _ => e.apply s

/-! ### Decisions -/

omit [Miekg] in
/-- Without categories only the lists block. -/
theorem evaluateForGroup_files (files : ListFiles) (name : GoString) (groupID : ℤ) :
    ((startup files none none none).evaluateForGroup name groupID).action = .block ↔
      files.Blocks name := by
  have hpolicy : (startup files none none none).policyCheck name groupID = none := by
    refine Option.eq_none_iff_forall_ne_some.2 fun c hc => ?_
    obtain ⟨-, hfind, -⟩ := policyCheck_eq_some_iff.1 hc
    obtain ⟨k, -, hk⟩ := List.exists_of_findSome?_eq_some hfind
    simp [startup, Engine.loadTables, Engine.new] at hk
  have hblack : (startup files none none none).blacklist.contains name ↔
      ∃ d ∈ files.blocklist.domains, Covers d name := by
    simp [startup, Engine.loadTables, Engine.new, contains_addAll]
  have hwhite : (startup files none none none).whitelist.contains name ↔
      ∃ d ∈ files.allowlist.domains, Covers d name := by
    simp [startup, Engine.loadTables, Engine.new, contains_addAll]
  rw [action_eq_block, hblack, hwhite, hpolicy, ListFiles.Blocks, and_comm]
  simp

omit [Unicode] [Miekg] in
/-- Nobody logs in. -/
theorem authenticate_empty (username password : GoString) :
    (StaticCredentials.mk ∅).authenticate username password = none := by
  simp [StaticCredentials.authenticate]

omit [Unicode] [Miekg] in
theorem resolve_new (now : ℤ) (clientIP : IP) :
    (Resolver.new 1).resolve now clientIP = .ok { groupID := 1, authMode := authNone } := by
  simp [Resolver.resolve, Resolver.activeSession, Resolver.matchRange, Resolver.new, Expiring.live]

/-- The memory stays as it is at the start; the queries that are refused, and only these, are those
that the files block; nothing is logged. -/
structure FilesDecide (files : ListFiles) (s : System) : Prop where
  filter : s.handler.filter = startup files none none none
  identity : s.handler.identity = .new 1
  logger : s.handler.logger = false
  running : ∀ call q st, s.running call = some (q, st) → ¬ files.Blocks q.incoming.question.name
  replies : ∀ w ∈ s.replies,
    (w.isRefusal ↔ files.Blocks w.incoming.question.name) ∧ (w.isRefusal → w.source = .blocked)
  entries : s.entries = []

variable {files : ListFiles} {s : System}

/-- Another cache, and a query that goes on or ends. -/
theorem FilesDecide.progress (h : FilesDecide files s) {handler : Handler} {redis : Redis}
    (hhandler : ∃ cache, handler = { s.handler with cache := cache }) (calls : ℕ) (call : ℕ)
    (next : Option (Query × Stage))
    (hnext : ∀ q st, next = some (q, st) → ¬ files.Blocks q.incoming.question.name)
    (exchanges : List Exchange) :
    FilesDecide files { s with
      handler := handler
      redis := redis
      calls := calls
      running := Function.update s.running call next
      exchanges := exchanges } := by
  obtain ⟨cache, rfl⟩ := hhandler
  refine ⟨h.filter, h.identity, h.logger, fun call' q st hq => ?_, h.replies, h.entries⟩
  by_cases hc : call' = call
  · subst hc
    simp only [Function.update_self] at hq
    exact hnext q st hq
  · simp only [Function.update_of_ne hc] at hq
    exact h.running call' q st hq

/-- A reply that the files ask for. -/
theorem FilesDecide.write (h : FilesDecide files s) {out : Output} (hentry : out.entry = none)
    (hreply : (out.reply.isRefusal ↔ files.Blocks out.reply.incoming.question.name) ∧
      (out.reply.isRefusal → out.reply.source = .blocked)) : FilesDecide files (s.write out) := by
  refine ⟨h.filter, h.identity, h.logger, h.running, fun w hw => ?_, ?_⟩
  · rcases List.mem_append.1 hw with hw | hw
    · exact h.replies w hw
    · rw [List.mem_singleton.1 hw]
      exact hreply
  · simp [System.write, h.entries, hentry]

theorem FilesDecide.arrive (h : FilesDecide files s) (inc : Incoming) :
    FilesDecide files ((SystemEvent.arrive inc).apply s) := by
  have hdecision := evaluateForGroup_files files inc.question.name 1
  simp only [SystemEvent.apply]
  split_ifs
  · exact h
  · simp only [Handler.arrive, Handler.admission, h.identity, resolve_new, h.filter]
    have hcaptive : ¬ authNone = authCaptivePortal := by decide
    rw [if_neg hcaptive]
    have hcalls : FilesDecide files { s with calls := s.calls + 1 } :=
      ⟨h.filter, h.identity, h.logger, h.running, h.replies, h.entries⟩
    split_ifs with hblock
    · exact hcalls.write (by simp [Handler.log, h.logger])
        (by simp [Reply.isRefusal, Handler.sendBlockResponse, hdecision.1 hblock])
    · refine h.progress ⟨s.handler.cache, rfl⟩ (s.calls + 1) inc.call _ ?_ s.exchanges
      rintro q st hq
      cases hq
      exact fun hfiles => hblock (hdecision.2 hfiles)

theorem FilesDecide.lookup (h : FilesDecide files s) (call : ℕ) :
    FilesDecide files ((SystemEvent.lookup call).apply s) := by
  simp only [SystemEvent.apply]
  split
  · rename_i q hrun
    have hq := h.running call q .lookup hrun
    have hhandler : ∃ cache, (s.handler.lookup s.redis s.now q).2.1 =
        { s.handler with cache := cache } := ⟨_, rfl⟩
    split
    · rename_i out hout
      obtain ⟨msg, hget, rfl⟩ := Option.map_eq_some_iff.1 hout
      refine (h.progress hhandler s.calls call none (by simp) s.exchanges).write ?_ ?_
      · simp [Handler.log, h.logger]
      · simp [Reply.isRefusal, hq]
    · refine h.progress hhandler s.calls call _ ?_ s.exchanges
      rintro q' st hq'
      cases hq'
      exact hq
  · exact h

theorem FilesDecide.exchange (h : FilesDecide files s) (call : ℕ)
    (answers : List (Option Received)) :
    FilesDecide files ((SystemEvent.exchange call answers).apply s) := by
  simp only [SystemEvent.apply]
  split
  · rename_i q hrun
    have hq := h.running call q .upstream hrun
    cases resolveUpstream answers with
    | none =>
      refine (h.progress ⟨s.handler.cache, rfl⟩ s.calls call none (by simp) _).write rfl ?_
      simp [Handler.finish, Reply.isRefusal, hq]
    | some m =>
      refine (h.progress ⟨_, rfl⟩ s.calls call none (by simp) _).write ?_ ?_
      · simp [Handler.finish, Handler.log, h.logger]
      · simp [Handler.finish, Reply.isRefusal, hq]
  · exact h

theorem FilesDecide.apply (h : FilesDecide files s) (sessionTTL : ℤ) (e : OfflineEvent) :
    FilesDecide files (e.apply sessionTTL s) := by
  cases e with
  | tick d => exact ⟨h.filter, h.identity, h.logger, h.running, h.replies, h.entries⟩
  | portal r =>
    have hnobody : ∀ resolver,
        (handleAuth (StaticCredentials.mk ∅).authenticate sessionTTL resolver s.now r).1 =
          resolver := fun resolver => handleAuth_of_not_logsIn fun user clientIP hlogs => by
      have hnone := authenticate_empty r.username r.password
      rw [hlogs.authenticated] at hnone
      cases hnone
    exact ⟨h.filter, (hnobody _).trans h.identity, h.logger, h.running, h.replies, h.entries⟩
  | evictSessions =>
    refine ⟨h.filter, ?_, h.logger, h.running, h.replies, h.entries⟩
    have hsessions : Expiring.sweep Session.expiresAt (Resolver.new 1).sessions s.now = ∅ :=
      Finmap.ext_lookup fun k => by simp [Expiring.sweep, Resolver.new]
    simp only [OfflineEvent.apply, SystemEvent.apply, IdentityEvent.apply, h.identity,
      Resolver.evictExpiredSessions, hsessions]
    rfl
  | traffic e he =>
    cases e with
    | tick | filter | identity | loadRanges | invalidate => cases he
    | evict => exact ⟨h.filter, h.identity, h.logger, h.running, h.replies, h.entries⟩
    | arrive inc => exact h.arrive inc
    | lookup call => exact h.lookup call
    | exchange call answers => exact h.exchange call answers

/-- **Without a database, and whatever happens, every query whose name `blocklist.txt` covers and
`allowlist.txt` does not is blocked, no other query is refused, and nobody is sent to the portal or
logged in.** -/
theorem offline_run (files : ListFiles) (now sessionTTL : ℤ) (h : Handler)
    (es : List OfflineEvent) :
    FilesDecide files (run (OfflineEvent.apply sessionTTL) (offlineStart now h files) es) :=
  run_invariant (FilesDecide files) (fun _ e hs => hs.apply sessionTTL e)
    ⟨rfl, rfl, rfl, by simp [offlineStart, System.start], by simp [offlineStart, System.start], rfl⟩
    es

end Offline

end DnsFilter
