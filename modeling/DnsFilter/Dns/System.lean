import DnsFilter.Dns.Handler
import DnsFilter.Reload.Paths
import DnsFilter.Identity.Ranges

/-!
# The running system

Any number of queries in progress over one handler, whose lists, categories, policies,
ranges, sessions and cache change between their steps.  Identity and policy are evaluated in
one step (`arrive`); the cache (`lookup`) and the upstreams (`exchange`) come in later steps.

* `System`, `SystemEvent.apply`;
* `run_serveDNS`: the three steps of a query that nothing interrupts are `ServeDNS`;
* `Provenance`: every answer written, and every message cached, came from an exchange with
  an upstream that was made for a query that passed.
-/

namespace DnsFilter

open EventRun

/-- The next step of a query in progress. -/
inductive Stage
  | lookup
  | upstream
  deriving DecidableEq

/-- An edit of the filter engine while queries are served. -/
inductive FilterEdit
  | reload (step : ReloadStep)
  | remove (l : ListKind) (domain : GoString)

/-- A handler that lets every query through. -/
def openHandler : Handler :=
  { cache := Cache.new second second
    filter := Engine.new Blacklist.new Blacklist.new
    identity := Resolver.new 0
    logger := false
    blockIP := .nil
    portalIP := .nil }

section System

variable [Unicode] [Miekg]

def FilterEdit.apply (e : Engine) : FilterEdit → Engine
  | .reload step => step.apply e
  | .remove .black domain => { e with blacklist := e.blacklist.remove domain }
  | .remove .white domain => { e with whitelist := e.whitelist.remove domain }

/-- A response that an upstream gave for a query. -/
structure Exchange where
  query : Query
  response : Received

structure System where
  now : ℤ
  handler : Handler
  redis : Redis
  /-- How many calls of `ServeDNS` there have been. -/
  calls : ℕ
  /-- The calls in progress. -/
  running : ℕ → Option (Query × Stage)
  replies : List Reply
  entries : List Entry
  exchanges : List Exchange

inductive SystemEvent
  | tick (d : ℕ)
  | filter (edit : FilterEdit)
  | identity (e : IdentityEvent)
  | loadRanges (ranges : List IPRange)
  | evict
  | invalidate (name : GoString)
  | arrive (inc : Incoming)
  | lookup (call : ℕ)
  | exchange (call : ℕ) (answers : List (Option Received))

/-- Write a reply and log the query. -/
def System.write (s : System) (out : Output) : System :=
  { s with replies := s.replies ++ [out.reply], entries := s.entries ++ out.entry.toList }

/-- One event; calls arrive in the order of their numbers, and an event for a call that is not
waiting for it does nothing. -/
def SystemEvent.apply (s : System) : SystemEvent → System
  | .tick d => { s with now := s.now + d }
  | .filter edit => { s with handler := { s.handler with filter := edit.apply s.handler.filter } }
  | .identity e =>
      { s with handler := { s.handler with identity := e.apply s.handler.identity } }
  | .loadRanges ranges =>
      { s with handler := { s.handler with identity := s.handler.identity.loadRanges ranges } }
  | .evict => { s with handler := { s.handler with cache := s.handler.cache.evict s.now } }
  | .invalidate name =>
      { s with handler := { s.handler with cache := (s.handler.cache.invalidate name).1 } }
  | .arrive inc =>
      if inc.call ≠ s.calls then s
      else
        let s := { s with calls := s.calls + 1 }
        match s.handler.arrive s.now inc with
        | .inl out => s.write out
        | .inr q => { s with running := Function.update s.running inc.call (some (q, .lookup)) }
  | .lookup call =>
      match s.running call with
      | some (q, .lookup) =>
          let (out, handler, redis) := s.handler.lookup s.redis s.now q
          let s := { s with handler := handler, redis := redis }
          match out with
          | some out => { s with running := Function.update s.running call none }.write out
          | none => { s with running := Function.update s.running call (some (q, .upstream)) }
      | _ => s
  | .exchange call answers =>
      match s.running call with
      | some (q, .upstream) =>
          let resp := resolveUpstream answers
          let (out, handler, redis) := s.handler.finish s.redis s.now q (resp.map Received.msg)
          { s with
            handler := handler
            redis := redis
            running := Function.update s.running call none
            exchanges := s.exchanges ++ resp.toList.map (Exchange.mk q) }.write out
      | _ => s

/-- A freshly started handler, its cache and an attached Redis server empty. -/
def System.start (t : ℤ) (h : Handler) : System :=
  ⟨t, { h with cache := { h.cache with entries := ∅ } }, ∅, 0, fun _ => none, [], [], []⟩

/-! ### Configuration -/

/-- The events that change the clock, the policy or the identities. -/
def SystemEvent.isConfig : SystemEvent → Bool
  | .tick _ | .filter _ | .identity _ | .loadRanges _ => true
  | .evict | .invalidate _ | .arrive _ | .lookup _ | .exchange _ _ => false

/-- Queries, evictions and invalidations change nothing of the handler but its cache. -/
theorem SystemEvent.frame (s : System) {e : SystemEvent} (he : ¬ e.isConfig) :
    (e.apply s).now = s.now ∧ ∃ cache, (e.apply s).handler = { s.handler with cache := cache } := by
  cases e with
  | tick | filter | identity | loadRanges => exact absurd rfl he
  | evict | invalidate => exact ⟨rfl, _, rfl⟩
  | arrive inc =>
    simp only [SystemEvent.apply]
    split_ifs
    · exact ⟨rfl, _, rfl⟩
    · split <;> exact ⟨rfl, _, rfl⟩
  | lookup call =>
    simp only [SystemEvent.apply]
    split
    · split <;> exact ⟨rfl, _, rfl⟩
    · exact ⟨rfl, _, rfl⟩
  | exchange call answers =>
    simp only [SystemEvent.apply]
    split
    · cases resolveUpstream answers <;> exact ⟨rfl, _, rfl⟩
    · exact ⟨rfl, _, rfl⟩

/-! ### Undisturbed queries -/

section Undisturbed

variable {s : System} {inc : Incoming} {q : Query} {out : Output} {handler handler' : Handler}
  {redis redis' : Redis}

/-- A query that passes and is in the cache. -/
theorem run_hit (hcall : inc.call = s.calls)
    (hpass : s.handler.arrive s.now inc = .inr q)
    (hhit : s.handler.lookup s.redis s.now q = (some out, handler, redis)) :
    run SystemEvent.apply s [.arrive inc, .lookup inc.call] =
      { s with
        calls := s.calls + 1
        handler := handler
        redis := redis
        running := Function.update s.running inc.call none }.write out := by
  simp [SystemEvent.apply, hcall, hpass, hhit]

/-- A query that passes, is not in the cache and gets a response from the first upstream. -/
theorem run_miss {m : Received} (hcall : inc.call = s.calls)
    (hpass : s.handler.arrive s.now inc = .inr q)
    (hmiss : s.handler.lookup s.redis s.now q = (none, handler, redis))
    (hfinish : handler.finish redis s.now q (some m.msg) = (out, handler', redis')) :
    run SystemEvent.apply s [.arrive inc, .lookup inc.call, .exchange inc.call [some m]] =
      { s with
        calls := s.calls + 1
        handler := handler'
        redis := redis'
        running := Function.update s.running inc.call none
        exchanges := s.exchanges ++ [Exchange.mk q m] }.write out := by
  simp [SystemEvent.apply, hcall, hpass, hmiss, hfinish, resolveUpstream]

end Undisturbed

/-- The steps of one query that nothing interrupts perform `ServeDNS`. -/
theorem run_serveDNS (s : System) (inc : Incoming) (answers : List (Option Received))
    (hcall : inc.call = s.calls) (hidle : s.running inc.call = none) :
    let s' := run SystemEvent.apply s [.arrive inc, .lookup inc.call, .exchange inc.call answers]
    let r := s.handler.serveDNS s.redis s.now inc (answers.map (Option.map Received.msg))
    s'.replies = s.replies ++ [r.1.reply] ∧ s'.entries = s.entries ++ r.1.entry.toList ∧
      s'.handler = r.2.1 ∧ s'.redis = r.2.2 ∧ s'.running inc.call = none := by
  simp only [run_cons, run_nil, SystemEvent.apply, hcall, ne_eq, not_true_eq_false, if_false,
    Handler.serveDNS, resolveUpstream_map]
  rw [hcall] at hidle
  cases h : s.handler.arrive s.now inc with
  | inl out => simp [System.write, hidle]
  | inr q =>
    simp only [Function.update_self]
    cases hl : s.handler.lookup s.redis s.now q with
    | mk out r =>
      obtain ⟨handler, redis⟩ := r
      cases out with
      | some out => simp [System.write]
      | none => simp [System.write]

/-! ### Provenance -/

/-- The cache key of a question. -/
def Question.key (q : Question) : GoString := DnsFilter.key q.name q.qtype

/-- An exchange made for a question with this key brought this message. -/
def FromExchange (xs : List Exchange) (k : GoString) (msg : Msg) : Prop :=
  ∃ x ∈ xs, x.query.incoming.question.key = k ∧ x.response.msg = msg

/-- A reply taken from an upstream, now or through the cache. -/
def Reply.isAnswer (w : Reply) : Prop := w.source = .cache ∨ w.source = .upstream

/-- Queries in progress, answered or forwarded satisfy `P`, and every message cached or sent
as an answer came from an exchange for a question with the same key. -/
structure Provenance (P : Query → Prop) (s : System) : Prop where
  running : ∀ call q st, s.running call = some (q, st) → P q
  exchanges : ∀ x ∈ s.exchanges, P x.query
  cache : s.handler.cache.Holds (FromExchange s.exchanges) s.redis
  answers : ∀ w ∈ s.replies, w.isAnswer → ∃ q msg, P q ∧ q.incoming = w.incoming ∧
    w.origin = some msg
  origins : ∀ w ∈ s.replies, ∀ msg, w.origin = some msg →
    w.msg = Miekg.setReply msg w.incoming.request ∧
      FromExchange s.exchanges w.incoming.question.key msg

theorem FromExchange.mono {xs xs' : List Exchange} {k : GoString} {msg : Msg}
    (h : FromExchange xs k msg) (hsub : xs ⊆ xs') : FromExchange xs' k msg := by
  obtain ⟨x, hx, rest⟩ := h
  exact ⟨x, hsub hx, rest⟩

variable {P P' : Query → Prop} {s : System}

theorem provenance_start (P : Query → Prop) (t : ℤ) (h : Handler) :
    Provenance P (System.start t h) := by
  refine ⟨?_, ?_, ⟨?_, ?_⟩, ?_, ?_⟩ <;> simp [System.start]

theorem Provenance.mono (h : Provenance P s) (hP : ∀ q, P q → P' q) : Provenance P' s where
  running call q st hq := hP q (h.running call q st hq)
  exchanges x hx := hP _ (h.exchanges x hx)
  cache := h.cache
  answers w hw ha := by
    obtain ⟨q, msg, hq, rest⟩ := h.answers w hw ha
    exact ⟨q, msg, hP q hq, rest⟩
  origins := h.origins

/-- A change that keeps the cache sound and touches neither the queries nor what was sent. -/
theorem Provenance.handler (h : Provenance P s) (now : ℤ) (calls : ℕ) {handler : Handler}
    {redis : Redis} (hcache : handler.cache.Holds (FromExchange s.exchanges) redis) :
    Provenance P { s with now := now, calls := calls, handler := handler, redis := redis } :=
  ⟨h.running, h.exchanges, hcache, h.answers, h.origins⟩

/-- A new stage for a query that satisfies `P`, or none. -/
theorem Provenance.update (h : Provenance P s) (call : ℕ) (next : Option (Query × Stage))
    (hnext : ∀ q st, next = some (q, st) → P q) :
    Provenance P { s with running := Function.update s.running call next } := by
  refine ⟨fun call' q st hq => ?_, h.exchanges, h.cache, h.answers, h.origins⟩
  by_cases hc : call' = call
  · subst hc
    simp only [Function.update_self] at hq
    exact hnext q st hq
  · simp only [Function.update_of_ne hc] at hq
    exact h.running call' q st hq

/-- A reply made up locally. -/
theorem Provenance.write_local (h : Provenance P s) {out : Output}
    (horigin : out.reply.origin = none) (hsource : ¬ out.reply.isAnswer) :
    Provenance P (s.write out) := by
  refine ⟨h.running, h.exchanges, h.cache, fun w hw ha => ?_, fun w hw msg hm => ?_⟩
  · rcases List.mem_append.1 hw with hw | hw
    · exact h.answers w hw ha
    · rw [List.mem_singleton.1 hw] at ha
      exact absurd ha hsource
  · rcases List.mem_append.1 hw with hw | hw
    · exact h.origins w hw msg hm
    · rw [List.mem_singleton.1 hw, horigin] at hm
      cases hm

/-- An answer made from a message with the right provenance. -/
theorem Provenance.write_answer (h : Provenance P s) {out : Output} {q : Query} {msg : Msg}
    (hq : P q) (hinc : q.incoming = out.reply.incoming) (horigin : out.reply.origin = some msg)
    (hmsg : out.reply.msg = Miekg.setReply msg out.reply.incoming.request)
    (hfrom : FromExchange s.exchanges out.reply.incoming.question.key msg) :
    Provenance P (s.write out) := by
  refine ⟨h.running, h.exchanges, h.cache, fun w hw ha => ?_, fun w hw msg' hm => ?_⟩
  · rcases List.mem_append.1 hw with hw | hw
    · exact h.answers w hw ha
    · rw [List.mem_singleton.1 hw]
      exact ⟨q, msg, hq, hinc, horigin⟩
  · rcases List.mem_append.1 hw with hw | hw
    · exact h.origins w hw msg' hm
    · rw [List.mem_singleton.1 hw] at hm ⊢
      obtain rfl := Option.some.inj (horigin.symm.trans hm)
      exact ⟨hmsg, hfrom⟩

/-- One more exchange. -/
theorem Provenance.exchange (h : Provenance P s) {x : Exchange} (hx : P x.query) :
    Provenance P { s with exchanges := s.exchanges ++ [x] } := by
  have hsub : s.exchanges ⊆ s.exchanges ++ [x] := List.subset_append_left ..
  refine ⟨h.running, fun y hy => ?_, h.cache.mono fun _ _ hf => hf.mono hsub, h.answers,
    fun w hw msg hm => ?_⟩
  · rcases List.mem_append.1 hy with hy | hy
    · exact h.exchanges y hy
    · rw [List.mem_singleton.1 hy]
      exact hx
  · obtain ⟨hmsg, hfrom⟩ := h.origins w hw msg hm
    exact ⟨hmsg, hfrom.mono hsub⟩

theorem Provenance.lookup (h : Provenance P s) (call : ℕ) :
    Provenance P ((SystemEvent.lookup call).apply s) := by
  simp only [SystemEvent.apply]
  split
  · rename_i q hrun
    obtain ⟨hcache, hmsg⟩ := h.cache.get s.now q.incoming.question.name q.incoming.question.qtype
    have hq := h.running call q .lookup hrun
    have hs : Provenance P { s with
        handler := (s.handler.lookup s.redis s.now q).2.1
        redis := (s.handler.lookup s.redis s.now q).2.2 } := h.handler s.now s.calls hcache
    split
    · rename_i out hout
      obtain ⟨msg, hget, rfl⟩ := Option.map_eq_some_iff.1 hout
      exact (hs.update call none (by simp)).write_answer hq rfl rfl rfl (hmsg msg hget)
    · exact hs.update call (some (q, .upstream)) fun q' st heq => by cases heq; exact hq
  · exact h

theorem Provenance.exchanged (h : Provenance P s) (call : ℕ) (answers : List (Option Received)) :
    Provenance P ((SystemEvent.exchange call answers).apply s) := by
  simp only [SystemEvent.apply]
  split
  · rename_i q hrun
    have hq := h.running call q .upstream hrun
    cases resolveUpstream answers with
    | none =>
      refine Provenance.write_local ?_ rfl (by simp [Handler.finish, Reply.isAnswer])
      simpa [Handler.finish] using h.update call none (by simp)
    | some m =>
      have hfrom : FromExchange (s.exchanges ++ [⟨q, m⟩]) q.incoming.question.key m.msg :=
        ⟨⟨q, m⟩, by simp, rfl, rfl⟩
      have hx := h.exchange (x := ⟨q, m⟩) hq
      refine Provenance.write_answer ?_ hq rfl rfl rfl hfrom
      exact (hx.handler s.now s.calls (hx.cache.set s.now _ _ m hfrom)).update call none (by simp)
  · exact h

theorem Provenance.arrive (h : Provenance P s) {inc : Incoming}
    (hP : ∀ q, inc.call = s.calls → s.handler.arrive s.now inc = .inr q → P q) :
    Provenance P ((SystemEvent.arrive inc).apply s) := by
  simp only [SystemEvent.apply]
  split_ifs with hcall
  · exact h
  · have hs : Provenance P { s with calls := s.calls + 1 } := h.handler s.now _ h.cache
    cases ho : s.handler.arrive s.now inc with
    | inl out =>
      obtain ⟨horigin, hcache, hupstream⟩ := Handler.origin_of_arrive ho
      exact hs.write_local horigin (not_or.2 ⟨hcache, hupstream⟩)
    | inr q =>
      have hq : P q := hP q (not_not.1 hcall) ho
      exact hs.update inc.call (some (q, .lookup)) fun q' st heq => by cases heq; exact hq

/-- One event keeps the provenance of all answers. -/
theorem Provenance.apply (h : Provenance P s) (e : SystemEvent)
    (hP : ∀ inc q, e = .arrive inc → inc.call = s.calls → s.handler.arrive s.now inc = .inr q →
      P q) :
    Provenance P (e.apply s) := by
  cases e with
  | tick d => exact h.handler _ s.calls h.cache
  | filter edit => exact h.handler s.now s.calls h.cache
  | identity e => exact h.handler s.now s.calls h.cache
  | loadRanges ranges => exact h.handler s.now s.calls h.cache
  | evict => exact h.handler s.now s.calls (h.cache.evict s.now)
  | invalidate name => exact h.handler s.now s.calls (h.cache.invalidate name)
  | arrive inc => exact h.arrive fun q => hP inc q rfl
  | lookup call => exact h.lookup call
  | exchange call answers => exact h.exchanged call answers

/-- The provenance of all answers of a run, with a property `P` of the queries that may speak
about the events so far. -/
theorem provenance_trace (P : List SystemEvent → Query → Prop) (t : ℤ) (h : Handler)
    (hmono : ∀ es e q, P es q → P (es ++ [e]) q)
    (hP : ∀ es inc q, let s := run SystemEvent.apply (System.start t h) es
      inc.call = s.calls → s.handler.arrive s.now inc = .inr q → P (es ++ [.arrive inc]) q)
    (es : List SystemEvent) :
    Provenance (P es) (run SystemEvent.apply (System.start t h) es) := by
  refine trace_invariant (fun es s => Provenance (P es) s) (provenance_start _ t h) ?_ es
  intro es e hs
  refine (hs.mono (hmono es e)).apply e fun inc q he hcall hq => ?_
  subst he
  exact hP es inc q hcall hq

theorem provenance_run (t : ℤ) (h : Handler) (es : List SystemEvent) :
    Provenance (fun _ => True) (run SystemEvent.apply (System.start t h) es) :=
  provenance_trace (fun _ _ => True) t h (fun _ _ _ _ => trivial) (fun _ _ _ _ _ => trivial) es

end System
end DnsFilter
