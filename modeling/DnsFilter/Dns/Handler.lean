import DnsFilter.Cache.Cache
import DnsFilter.Filter.Engine
import DnsFilter.Identity.Resolver
import DnsFilter.Logging.Pipeline

/-!
# The query handler

`Handler.ServeDNS` of `internal/dns/handler.go`, cut where other goroutines can come in
between:

* `admission`: identity, captive portal and policy, which decide whether the query may be
  answered at all;
* `lookup`: the cache;
* `finish`: the answer of the upstreams, stored and sent.

`serveDNS` puts the three together.
-/

namespace DnsFilter

structure Handler where
  cache : Cache
  filter : Engine
  identity : Resolver
  /-- Whether a log pipeline is attached. -/
  logger : Bool
  blockIP : IP
  portalIP : IP

/-- A call of `ServeDNS` with its serial number.  The request has at least one question. -/
structure Incoming where
  call : ℕ
  clientIP : IP
  request : Msg
  question : Question
  first : request.question.head? = some question

/-- A request with one question. -/
def askFor (call : ℕ) (q : Question) : Incoming where
  call := call
  clientIP := .nil
  request := { question := [q] }
  question := q
  first := rfl

/-- A query that may be answered, with the variables of its `ServeDNS` call. -/
structure Query where
  incoming : Incoming
  start : ℤ
  id : Identity

/-- Where `ServeDNS` takes its reply from. -/
inductive Source
  | identityError
  | captive
  | blocked
  | cache
  | upstream
  | upstreamError
  deriving DecidableEq

/-- A message written to a client.  `origin` is the message that was turned into the reply,
if it is not made up locally. -/
structure Reply where
  source : Source
  incoming : Incoming
  msg : Msg
  origin : Option Msg

/-- What a call writes and logs. -/
structure Output where
  reply : Reply
  entry : Option Entry

/-- The outcome of the first three steps. -/
inductive Admission
  | fail
  | captive (id : Identity)
  | block (id : Identity) (result : Result)
  | pass (id : Identity)

/-- The first `A` record of a response. -/
def extractAnswerIP (msg : Msg) : IP :=
  (msg.answer.findSome? fun rr =>
    match rr.data with
    | .a address => some address
    | _ => none).getD .nil

/-- The response of the first upstream whose exchange does not fail. -/
def resolveUpstream {α : Type*} (answers : List (Option α)) : Option α := answers.findSome? id

theorem resolveUpstream_map {α β : Type*} (f : α → β) (answers : List (Option α)) :
    resolveUpstream (answers.map (Option.map f)) = (resolveUpstream answers).map f := by
  induction answers with
  | nil => rfl
  | cons a answers ih =>
    cases a with
    | some a => rfl
    | none => simpa [resolveUpstream] using ih

/-- A local reply that points `A` queries to an address and `AAAA` queries nowhere. -/
def localReply [Miekg] (r : Msg) (qName : GoString) (qType : UInt16) (ttl : UInt32) (ip : IP) :
    Msg :=
  let msg := { Miekg.setReply {} r with authoritative := true }
  if qType = typeA then
    { msg with answer := msg.answer ++ [⟨qName, typeA, classINET, ttl, .a ip⟩] }
  else if qType = typeAAAA then
    { msg with answer := msg.answer ++ [⟨qName, typeAAAA, classINET, ttl, .aaaa (.v6 0)⟩] }
  else msg

namespace Handler

/-- The log entry of a query, if a pipeline is attached. -/
def log (h : Handler) (start : ℤ) (inc : Incoming) (id : Identity) (action : LogAction)
    (reason : BlockReason) (responseIP : IP) (upstream : String) : Option Entry :=
  if h.logger then
    some
      { queriedAt := start
        clientIP := inc.clientIP
        userID := if id.userID ≠ 0 then some id.userID else none
        groupID := id.groupID
        domain := inc.question.name
        queryType := inc.question.qtype
        action := action
        blockReason := reason
        categoryID := none
        responseIP := responseIP
        upstream := upstream.toList }
  else none

/-- With a pipeline attached, every call of `log` yields an entry. -/
theorem log_isSome {h : Handler} (hlog : h.logger = true) (start : ℤ) (inc : Incoming)
    (id : Identity) (action : LogAction) (reason : BlockReason) (responseIP : IP)
    (upstream : String) :
    (h.log start inc id action reason responseIP upstream).isSome = true := by
  rw [log, if_pos hlog, Option.isSome_some]

section Serve

variable [Unicode]

/-- Steps 1 to 3: identity, captive portal, policy. -/
def admission (h : Handler) (now : ℤ) (clientIP : IP) (qName : GoString) : Admission :=
  match h.identity.resolve now clientIP with
  | .error _ => .fail
  | .ok id =>
      if id.authMode = authCaptivePortal then .captive id
      else
        let result := h.filter.evaluateForGroup qName id.groupID
        if result.action = .block then .block id result else .pass id

variable [Miekg]

def sendBlockResponse (h : Handler) (inc : Incoming) : Reply :=
  ⟨.blocked, inc, localReply inc.request inc.question.name inc.question.qtype 60 h.blockIP, none⟩

def sendCaptiveResponse (h : Handler) (inc : Incoming) : Reply :=
  ⟨.captive, inc, localReply inc.request inc.question.name inc.question.qtype 10 h.portalIP, none⟩

/-- The reply of a query that may not be answered, or the query to go on with. -/
def arrive (h : Handler) (now : ℤ) (inc : Incoming) : Output ⊕ Query :=
  match h.admission now inc.clientIP inc.question.name with
  | .fail => .inl ⟨⟨.identityError, inc, inc.request.setRcode rcodeServerFailure, none⟩, none⟩
  | .captive id =>
      .inl ⟨h.sendCaptiveResponse inc, h.log now inc id .blocked .policy .nil "captive"⟩
  | .block id _ =>
      .inl ⟨h.sendBlockResponse inc, h.log now inc id .blocked .blacklist .nil "blocked"⟩
  | .pass id => .inr ⟨inc, now, id⟩

/-- Step 4: the cache. -/
def lookup (h : Handler) (redis : Redis) (now : ℤ) (q : Query) :
    Option Output × Handler × Redis :=
  let inc := q.incoming
  let (cached, cache, redis) := h.cache.get redis now inc.question.name inc.question.qtype
  (cached.map fun msg =>
      let reply := Miekg.setReply msg inc.request
      ⟨⟨.cache, inc, reply, some msg⟩,
        h.log q.start inc q.id .cached .none (extractAnswerIP reply) "cache"⟩,
    { h with cache := cache }, redis)

/-- Steps 5 to 7: the response of the upstreams is stored and sent. -/
def finish (h : Handler) (redis : Redis) (now : ℤ) (q : Query) (resp : Option Msg) :
    Output × Handler × Redis :=
  let inc := q.incoming
  match resp with
  | none =>
      (⟨⟨.upstreamError, inc, inc.request.setRcode rcodeServerFailure, none⟩, none⟩, h, redis)
  | some resp =>
      let (cache, redis) := h.cache.set redis now inc.question.name inc.question.qtype (some resp)
      let reply := Miekg.setReply resp inc.request
      (⟨⟨.upstream, inc, reply, some resp⟩,
          h.log q.start inc q.id .allowed .none (extractAnswerIP reply) "upstream"⟩,
        { h with cache := cache }, redis)

/-- `ServeDNS`, undisturbed: `answers` are the outcomes of the exchanges with the upstreams,
in their order. -/
def serveDNS (h : Handler) (redis : Redis) (now : ℤ) (inc : Incoming)
    (answers : List (Option Msg)) : Output × Handler × Redis :=
  match h.arrive now inc with
  | .inl out => (out, h, redis)
  | .inr q =>
      match h.lookup redis now q with
      | (some out, h, redis) => (out, h, redis)
      | (none, h, redis) => h.finish redis now q (resolveUpstream answers)

/-! ### What the steps decide -/

omit [Miekg] in
/-- A query passes exactly when its client is resolved to an identity that needs no login and
the engine allows the name for its group. -/
theorem admission_eq_pass {h : Handler} {now : ℤ} {clientIP : IP} {qName : GoString}
    {id : Identity} :
    h.admission now clientIP qName = .pass id ↔
      h.identity.resolve now clientIP = .ok id ∧ id.authMode ≠ authCaptivePortal ∧
        (h.filter.evaluateForGroup qName id.groupID).action = .allow := by
  unfold admission
  cases h.identity.resolve now clientIP with
  | error e => simp
  | ok id' =>
    by_cases hcap : id'.authMode = authCaptivePortal
    · simp only [hcap, if_true, reduceCtorEq, Except.ok.injEq, false_iff]
      rintro ⟨rfl, hne, -⟩
      exact hne hcap
    · simp only [hcap, if_false, Except.ok.injEq]
      cases hact : (h.filter.evaluateForGroup qName id'.groupID).action with
      | block =>
        simp only [if_true, reduceCtorEq, false_iff]
        rintro ⟨rfl, -, hallow⟩
        rw [hact] at hallow
        cases hallow
      | allow =>
        simp only [reduceCtorEq, if_false, Admission.pass.injEq]
        refine ⟨?_, fun hid => hid.1⟩
        rintro rfl
        exact ⟨rfl, hcap, hact⟩

/-- A query goes on exactly when it passes. -/
theorem arrive_eq_inr {h : Handler} {now : ℤ} {inc : Incoming} {q : Query} :
    h.arrive now inc = .inr q ↔
      q.incoming = inc ∧ q.start = now ∧
        h.admission now inc.clientIP inc.question.name = .pass q.id := by
  unfold arrive
  obtain ⟨inc', start, id⟩ := q
  cases h.admission now inc.clientIP inc.question.name with
  | pass id' =>
    simp only [Sum.inr.injEq, Query.mk.injEq, Admission.pass.injEq]
    tauto
  | _ => simp

/-- The reply of a query that does not go on is made up locally. -/
theorem origin_of_arrive {h : Handler} {now : ℤ} {inc : Incoming} {out : Output}
    (ho : h.arrive now inc = .inl out) :
    out.reply.origin = none ∧ out.reply.source ≠ .cache ∧ out.reply.source ≠ .upstream := by
  unfold arrive at ho
  split at ho <;> cases ho <;> simp [sendCaptiveResponse, sendBlockResponse]

/-- With a pipeline attached, a query that does not go on is logged. -/
theorem entry_of_arrive {h : Handler} {now : ℤ} {inc : Incoming} {out : Output}
    (hlog : h.logger = true) (ho : h.arrive now inc = .inl out) : out.entry.isSome = true := by
  unfold arrive at ho
  split at ho
  · rename_i hfail
    -- identity resolution has no error path
    obtain ⟨id, hid⟩ := h.identity.resolve_isOk now inc.clientIP
    simp only [admission, hid] at hfail
    split_ifs at hfail
  · cases ho
    exact log_isSome hlog ..
  · cases ho
    exact log_isSome hlog ..
  · cases ho

end Serve
end Handler
end DnsFilter
