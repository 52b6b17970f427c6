import DnsFilter.Dns.System

/-!
# The audit trail

What one call of `ServeDNS` logs, compared with the decision that it takes.

* `Handler.decision`: the decision, from what the identity, the engine, the cache and the
  upstreams say;
* `AuditMatches`: the reply and the log entry of the call agree with it;
* `audit_matches_iff`: they do exactly unless the policy of a category blocks the name or no
  upstream answers.
-/

namespace DnsFilter

/-- How a query is decided. -/
inductive Decision
  | portal
  | blacklist
  | category (c : ℤ)
  | cached
  | upstream
  | failed
  deriving DecidableEq

/-- The kind of reply that goes with a decision. -/
def Decision.source : Decision → Source
  | .portal => .captive
  | .blacklist | .category _ => .blocked
  | .cached => .cache
  | .upstream => .upstream
  | .failed => .upstreamError

/-- The log entry states the decision. -/
def Entry.Records (e : Entry) : Decision → Prop
  | .portal => e.action = .blocked
  | .blacklist => e.action = .blocked ∧ e.blockReason = .blacklist
  | .category c => e.action = .blocked ∧ e.blockReason = .category ∧ e.categoryID = some c
  | .cached => e.action = .cached
  | .upstream => e.action = .allowed
  | .failed => True

/-- The log entry is about the query. -/
structure Entry.Describes (e : Entry) (now : ℤ) (inc : Incoming) : Prop where
  queriedAt : e.queriedAt = now
  clientIP : e.clientIP = inc.clientIP
  domain : e.domain = inc.question.name
  queryType : e.queryType = inc.question.qtype

section Audit

variable [Unicode] [Miekg]

/-- The decision that a call of `ServeDNS` takes. -/
def Handler.decision (h : Handler) (redis : Redis) (now : ℤ) (inc : Incoming)
    (answers : List (Option Msg)) : Decision :=
  match h.identity.resolve now inc.clientIP with
  | .error _ => .failed
  | .ok id =>
      if id.authMode = authCaptivePortal then .portal
      else
        let result := h.filter.evaluateForGroup inc.question.name id.groupID
        if result.action = .block then
          if result.reason = "category" then .category result.categoryID else .blacklist
        else if (h.cache.get redis now inc.question.name inc.question.qtype).1.isSome then .cached
        else if (resolveUpstream answers).isSome then .upstream else .failed

/-- The call writes a reply to the request's identifier and first question and logs one
entry, both according to the decision. -/
def AuditMatches (h : Handler) (redis : Redis) (now : ℤ) (inc : Incoming)
    (answers : List (Option Msg)) : Prop :=
  let out := (h.serveDNS redis now inc answers).1
  let decision := h.decision redis now inc answers
  out.reply.msg.id = inc.request.id ∧ out.reply.msg.question.head? = some inc.question ∧
    out.reply.source = decision.source ∧
    ∃ e, out.entry = some e ∧ e.Describes now inc ∧ e.Records decision

/-- The client needs no login, and its group blocks a category of the name. -/
def BlockedByCategory (h : Handler) (now : ℤ) (inc : Incoming) : Prop :=
  ∃ id, h.identity.resolve now inc.clientIP = .ok id ∧ id.authMode ≠ authCaptivePortal ∧
    h.filter.whitelist.contains inc.question.name = false ∧
    h.filter.blacklist.contains inc.question.name = false ∧
    h.filter.policyCheck inc.question.name id.groupID ≠ none

/-- The query passes, misses the cache, and every upstream fails. -/
def Unanswered (h : Handler) (redis : Redis) (now : ℤ) (inc : Incoming)
    (answers : List (Option Msg)) : Prop :=
  ∃ id, h.admission now inc.clientIP inc.question.name = .pass id ∧
    (h.cache.get redis now inc.question.name inc.question.qtype).1 = none ∧ ∀ a ∈ answers, a = none

/-! ### Replies and entries -/

/-- The message carries the identifier and the first question of the request. -/
def Msg.RepliesTo (m : Msg) (inc : Incoming) : Prop :=
  m.id = inc.request.id ∧ m.question.head? = some inc.question

omit [Unicode] in
theorem repliesTo_setReply (m : Msg) (inc : Incoming) :
    (Miekg.setReply m inc.request).RepliesTo inc := by
  have hechoes := Miekg.setReply_echoes m inc.request
  have hne : inc.request.question ≠ [] := by
    intro h
    simpa [h] using inc.first
  exact ⟨hechoes.id, by rw [hechoes.question hne, List.head?_take, if_neg one_ne_zero, inc.first]⟩

omit [Unicode] in
theorem repliesTo_localReply (inc : Incoming) (qName : GoString) (qType : UInt16) (ttl : UInt32)
    (ip : IP) : (localReply inc.request qName qType ttl ip).RepliesTo inc := by
  have hreply := repliesTo_setReply {} inc
  unfold localReply
  split_ifs <;> exact hreply

omit [Unicode] [Miekg] in
/-- With a pipeline attached, an entry about the query is sent. -/
theorem exists_log {h : Handler} (hlog : h.logger = true) (start : ℤ) (inc : Incoming)
    (id : Identity) (action : LogAction) (reason : BlockReason) (ip : IP) (upstream : String) :
    ∃ e, h.log start inc id action reason ip upstream = some e ∧ e.Describes start inc ∧
      e.action = action ∧ e.blockReason = reason ∧ e.categoryID = none :=
  ⟨_, if_pos hlog, ⟨rfl, rfl, rfl, rfl⟩, rfl, rfl, rfl⟩

/-! ### The exits of `ServeDNS` -/

variable {h : Handler} {redis : Redis} {now : ℤ} {inc : Incoming} {answers : List (Option Msg)}
  {id : Identity}

/-- Before the portal. -/
theorem audit_portal (hlog : h.logger = true) (hid : h.identity.resolve now inc.clientIP = .ok id)
    (hcap : id.authMode = authCaptivePortal) : AuditMatches h redis now inc answers := by
  have hdecision : h.decision redis now inc answers = .portal := by
    simp only [Handler.decision, hid, hcap, if_true]
  have hserve : h.serveDNS redis now inc answers =
      (⟨h.sendCaptiveResponse inc, h.log now inc id .blocked .policy .nil "captive"⟩, h,
        redis) := by
    simp only [Handler.serveDNS, Handler.arrive, Handler.admission, hid, hcap, if_true]
  obtain ⟨e, he, hdescribes, haction, -, -⟩ :=
    exists_log hlog now inc id .blocked .policy .nil "captive"
  obtain ⟨hrid, hquestion⟩ := repliesTo_localReply inc inc.question.name inc.question.qtype 10
    h.portalIP
  rw [AuditMatches, hdecision, hserve]
  exact ⟨hrid, hquestion, rfl, e, he, hdescribes, haction⟩

/-- On a block the reason in the log is always the blacklist. -/
theorem audit_block (hlog : h.logger = true) (hid : h.identity.resolve now inc.clientIP = .ok id)
    (hcap : id.authMode ≠ authCaptivePortal)
    (hblock : (h.filter.evaluateForGroup inc.question.name id.groupID).action = .block) :
    AuditMatches h redis now inc answers ↔
      (h.filter.evaluateForGroup inc.question.name id.groupID).reason ≠ "category" := by
  have hserve : h.serveDNS redis now inc answers =
      (⟨h.sendBlockResponse inc, h.log now inc id .blocked .blacklist .nil "blocked"⟩, h,
        redis) := by
    simp only [Handler.serveDNS, Handler.arrive, Handler.admission, hid, hcap, if_false, hblock,
      if_true]
  obtain ⟨e, he, hdescribes, haction, hreason, -⟩ :=
    exists_log hlog now inc id .blocked .blacklist .nil "blocked"
  obtain ⟨hrid, hquestion⟩ := repliesTo_localReply inc inc.question.name inc.question.qtype 60
    h.blockIP
  rw [AuditMatches, hserve]
  simp only [Handler.decision, hid, hcap, if_false, hblock, if_true]
  split_ifs with hcat
  · refine iff_of_false ?_ (not_not.2 hcat)
    rintro ⟨-, -, -, e', he', -, -, hreason', -⟩
    obtain rfl := Option.some.inj (he.symm.trans he')
    rw [hreason] at hreason'
    cases hreason'
  · exact iff_of_true ⟨hrid, hquestion, rfl, e, he, hdescribes, haction, hreason⟩ hcat

/-- From the cache. -/
theorem audit_cached (hlog : h.logger = true)
    (hpass : h.admission now inc.clientIP inc.question.name = .pass id) {msg : Msg}
    (hcached : (h.cache.get redis now inc.question.name inc.question.qtype).1 = some msg) :
    AuditMatches h redis now inc answers := by
  obtain ⟨hid, hcap, hallow⟩ := Handler.admission_eq_pass.1 hpass
  have harrive : h.arrive now inc = .inr ⟨inc, now, id⟩ :=
    Handler.arrive_eq_inr.2 ⟨rfl, rfl, hpass⟩
  have hdecision : h.decision redis now inc answers = .cached := by
    simp only [Handler.decision, hid, hcap, if_false, hallow, reduceCtorEq, hcached,
      Option.isSome_some, if_true]
  let reply := Miekg.setReply msg inc.request
  have hserve : (h.serveDNS redis now inc answers).1 = ⟨⟨.cache, inc, reply, some msg⟩,
      h.log now inc id .cached .none (extractAnswerIP reply) "cache"⟩ := by
    rw [Handler.serveDNS, harrive]
    simp only [Handler.lookup, hcached, Option.map_some]
    rfl
  obtain ⟨e, he, hdescribes, haction, -, -⟩ :=
    exists_log hlog now inc id .cached .none (extractAnswerIP reply) "cache"
  obtain ⟨hrid, hquestion⟩ := repliesTo_setReply msg inc
  rw [AuditMatches, hdecision, hserve]
  exact ⟨hrid, hquestion, rfl, e, he, hdescribes, haction⟩

/-- From the upstreams, or after their failure. -/
theorem audit_upstream (hlog : h.logger = true)
    (hpass : h.admission now inc.clientIP inc.question.name = .pass id)
    (hmiss : (h.cache.get redis now inc.question.name inc.question.qtype).1 = none) :
    AuditMatches h redis now inc answers ↔ (resolveUpstream answers).isSome := by
  obtain ⟨hid, hcap, hallow⟩ := Handler.admission_eq_pass.1 hpass
  have harrive : h.arrive now inc = .inr ⟨inc, now, id⟩ :=
    Handler.arrive_eq_inr.2 ⟨rfl, rfl, hpass⟩
  let h' := { h with cache := (h.cache.get redis now inc.question.name inc.question.qtype).2.1 }
  have hserve : (h.serveDNS redis now inc answers).1 =
      (h'.finish (h.cache.get redis now inc.question.name inc.question.qtype).2.2 now ⟨inc, now, id⟩
        (resolveUpstream answers)).1 := by
    rw [Handler.serveDNS, harrive]
    simp only [Handler.lookup, hmiss, Option.map_none]
    rfl
  have hdecision : h.decision redis now inc answers =
      if (resolveUpstream answers).isSome then .upstream else .failed := by
    simp only [Handler.decision, hid, hcap, if_false, hallow, reduceCtorEq, hmiss,
      Option.isSome_none, Bool.false_eq_true]
  rw [AuditMatches, hdecision, hserve]
  cases hresp : resolveUpstream answers with
  | none =>
    refine iff_of_false ?_ (by simp)
    rintro ⟨-, -, -, e, he, -⟩
    cases he
  | some resp =>
    let reply := Miekg.setReply resp inc.request
    obtain ⟨e, he, hdescribes, haction, -, -⟩ :=
      exists_log (h := h') hlog now inc id .allowed .none (extractAnswerIP reply) "upstream"
    obtain ⟨hrid, hquestion⟩ := repliesTo_setReply resp inc
    exact iff_of_true ⟨hrid, hquestion, rfl, e, he, hdescribes, haction⟩ rfl

omit [Miekg] in
/-- A block has the reason `category` exactly when the policy of the group blocks the name
and neither list has it. -/
theorem reason_eq_category_iff (e : Engine) (domain : GoString) (groupID : ℤ) :
    (e.evaluateForGroup domain groupID).reason = "category" ↔
      e.whitelist.contains domain = false ∧ e.blacklist.contains domain = false ∧
        e.policyCheck domain groupID ≠ none := by
  unfold Engine.evaluateForGroup
  cases e.whitelist.contains domain <;> cases e.blacklist.contains domain <;>
    cases e.policyCheck domain groupID <;> simp

/-- **The reply and the log entry of a call match its decision exactly unless the name is
blocked by a category or no upstream answers.** -/
theorem audit_matches_iff (h : Handler) (redis : Redis) (now : ℤ) (inc : Incoming)
    (answers : List (Option Msg)) :
    AuditMatches { h with logger := true } redis now inc answers ↔
      ¬ BlockedByCategory h now inc ∧ ¬ Unanswered h redis now inc answers := by
  obtain ⟨id, hid⟩ := h.identity.resolve_isOk now inc.clientIP
  have hcategory : BlockedByCategory h now inc ↔ id.authMode ≠ authCaptivePortal ∧
      (h.filter.evaluateForGroup inc.question.name id.groupID).reason = "category" := by
    simp only [BlockedByCategory, hid, Except.ok.injEq, exists_eq_left', reason_eq_category_iff]
  by_cases hcap : id.authMode = authCaptivePortal
  · refine iff_of_true (audit_portal rfl hid hcap) ⟨fun hc => (hcategory.1 hc).1 hcap, ?_⟩
    rintro ⟨id', hpass, -⟩
    obtain ⟨hid', hcap', -⟩ := Handler.admission_eq_pass.1 hpass
    obtain rfl := Except.ok.inj (hid.symm.trans hid')
    exact hcap' hcap
  cases hact : (h.filter.evaluateForGroup inc.question.name id.groupID).action with
  | block =>
    refine (audit_block (h := { h with logger := true }) rfl hid hcap hact).trans ?_
    rw [hcategory, and_iff_left]
    · simp [hcap]
    · rintro ⟨id', hpass, -⟩
      obtain ⟨hid', -, hallow⟩ := Handler.admission_eq_pass.1 hpass
      obtain rfl := Except.ok.inj (hid.symm.trans hid')
      rw [hact] at hallow
      cases hallow
  | allow =>
    have hpass : h.admission now inc.clientIP inc.question.name = .pass id :=
      Handler.admission_eq_pass.2 ⟨hid, hcap, hact⟩
    have hnot : ¬ BlockedByCategory h now inc := by
      rw [hcategory, reason_eq_category_iff]
      rintro ⟨-, hw, hb, hne⟩
      rcases (h.filter.evaluateForGroup_action _ _).1 hact with hw' | ⟨-, hnone⟩
      · rw [hw] at hw'
        cases hw'
      · exact hne hnone
    cases hget : (h.cache.get redis now inc.question.name inc.question.qtype).1 with
    | some msg =>
      refine iff_of_true (audit_cached (h := { h with logger := true }) rfl hpass hget) ⟨hnot, ?_⟩
      rintro ⟨-, -, hmiss, -⟩
      rw [hget] at hmiss
      cases hmiss
    | none =>
      refine (audit_upstream (h := { h with logger := true }) rfl hpass hget).trans ?_
      rw [and_iff_right hnot, Option.isSome_iff_ne_none, not_iff_not]
      simp only [resolveUpstream, List.findSome?_eq_none_iff, id_eq, Unanswered, hpass, hget,
        true_and, Admission.pass.injEq, exists_eq_left']

end Audit

/-- A handler whose default group blocks category 5, that of `a.com.`. -/
def policedHandler : Handler :=
  { openHandler with
    logger := true
    filter :=
      { Engine.new .new .new with
        domainCategories := Finmap.singleton "a.com.".toList 5
        groupPolicies := Finmap.singleton 1 {5} }
    identity := .new 1 }

/-- The block of a category is logged as one of the blacklist, and a query that no upstream
answers is not logged. -/
theorem audit_mismatch :
    letI := asciiTable
    letI := plainMiekg
    ¬ AuditMatches policedHandler ∅ 0 (askFor 0 (questionIn classINET)) [] ∧
      ¬ AuditMatches { openHandler with logger := true } ∅ 0 (askFor 0 (questionIn classINET))
        [] := by
  have hcategory : (@Handler.decision asciiTable plainMiekg policedHandler ∅ 0
      (askFor 0 (questionIn classINET)) []) = .category 5 := by decide +kernel
  have hentry : (@Handler.serveDNS asciiTable plainMiekg policedHandler ∅ 0
      (askFor 0 (questionIn classINET)) []).1.entry.map (·.categoryID) = some none := by
    decide +kernel
  have hnone : (@Handler.serveDNS asciiTable plainMiekg { openHandler with logger := true } ∅ 0
      (askFor 0 (questionIn classINET)) []).1.entry = none := by decide +kernel
  constructor
  · rintro ⟨-, -, -, e, he, -, hrecords⟩
    rw [hcategory] at hrecords
    rw [he, Option.map_some, hrecords.2.2] at hentry
    cases hentry
  · rintro ⟨-, -, -, e, he, -⟩
    rw [hnone] at he
    cases he

end DnsFilter
