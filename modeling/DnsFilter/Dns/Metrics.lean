import DnsFilter.Dns.System

/-!
# Metrics

The counters behind `GetMetrics`: those of the cache, and those that the deferred function of
`ServeDNS` in `internal/dns/handler.go` goes on to change, one after the other, when the reply
has long been written.

* `waiting`: how many calls are at a stage;
* `Metered`, `MeteredEvent.apply`: the running system with its counters;
* `metrics_run`: what the counters say in every reachable state.
-/

namespace DnsFilter

open EventRun

/-! ### Calls in progress -/

/-- A call waits for the step. -/
def AtStage (st : Stage) (call : Option (Query × Stage)) : Prop := call.map Prod.snd = some st

instance (st : Stage) (call : Option (Query × Stage)) : Decidable (AtStage st call) :=
  inferInstanceAs (Decidable (_ = _))

/-- How many of the first calls wait for the step. -/
def waiting (st : Stage) (calls : ℕ) (running : ℕ → Option (Query × Stage)) : ℕ :=
  ((Finset.range calls).filter fun call => AtStage st (running call)).card

theorem waiting_zero (st : Stage) (running : ℕ → Option (Query × Stage)) :
    waiting st 0 running = 0 := rfl

/-- A call that has been accepted goes on. -/
theorem waiting_update (st : Stage) {calls call : ℕ} (running : ℕ → Option (Query × Stage))
    (hcall : call < calls) (next : Option (Query × Stage)) :
    waiting st calls (Function.update running call next) +
        (if AtStage st (running call) then 1 else 0) =
      waiting st calls running + if AtStage st next then 1 else 0 := by
  have hsplit : ∀ f : ℕ → Option (Query × Stage), waiting st calls f =
      (if AtStage st (f call) then 1 else 0) +
        ∑ c ∈ (Finset.range calls).erase call, if AtStage st (f c) then 1 else 0 := by
    intro f
    rw [waiting, Finset.card_filter,
      Finset.add_sum_erase _ (fun c => if AtStage st (f c) then 1 else 0)
        (Finset.mem_range.2 hcall)]
  have hothers : ∑ c ∈ (Finset.range calls).erase call,
      (if AtStage st (Function.update running call next c) then 1 else 0) =
        ∑ c ∈ (Finset.range calls).erase call, if AtStage st (running c) then 1 else 0 :=
    Finset.sum_congr rfl fun c hc => by rw [Function.update_of_ne (Finset.ne_of_mem_erase hc)]
  rw [hsplit running, hsplit (Function.update running call next), hothers, Function.update_self]
  ring

/-- One more call. -/
theorem waiting_succ (st : Stage) (calls : ℕ) (running : ℕ → Option (Query × Stage))
    (next : Option (Query × Stage)) :
    waiting st (calls + 1) (Function.update running calls next) =
      waiting st calls running + if AtStage st next then 1 else 0 := by
  have hothers : (Finset.range calls).filter
      (fun c => AtStage st (Function.update running calls next c)) =
        (Finset.range calls).filter fun c => AtStage st (running c) :=
    Finset.filter_congr fun c hc => by
      rw [Function.update_of_ne (Finset.mem_range.1 hc).ne]
  rw [waiting, Finset.range_add_one, Finset.filter_insert, hothers, Function.update_self]
  split_ifs with hst
  · rw [Finset.card_insert_of_notMem (by simp)]
    rfl
  · rfl

/-! ### Replies and the counters of the cache -/

/-- The reply to a query that was looked up in the cache and not found. -/
def Reply.isMiss (w : Reply) : Bool := w.source = .upstream ∨ w.source = .upstreamError

def Reply.isHit (w : Reply) : Bool := w.source = .cache

section Tally

variable [Unicode] [Miekg]

/-- Calls are waiting or have their reply, and the cache has counted what they have found. -/
structure Tally (hits misses : ℕ) (s : System) : Prop where
  accepted : ∀ call, s.running call ≠ none → call < s.calls
  started : ∀ call q st, s.running call = some (q, st) → q.start ≤ s.now
  calls : s.replies.length + waiting .lookup s.calls s.running +
    waiting .upstream s.calls s.running = s.calls
  hits : s.handler.cache.hits = hits + s.replies.countP Reply.isHit
  misses : s.handler.cache.misses =
    misses + s.replies.countP Reply.isMiss + waiting .upstream s.calls s.running

theorem set_counters (c : Cache) (redis : Redis) (now : ℤ) (name : GoString) (qtype : UInt16)
    (msg : Option Msg) : (c.set redis now name qtype msg).1.hits = c.hits ∧
      (c.set redis now name qtype msg).1.misses = c.misses := by
  cases msg with
  | none => exact ⟨rfl, rfl⟩
  | some msg =>
    rw [Cache.set_spec]
    split_ifs <;> exact ⟨rfl, rfl⟩

/-- A `Get` counts a hit or a miss. -/
theorem get_counters (c : Cache) (redis : Redis) (now : ℤ) (name : GoString) (qtype : UInt16) :
    (∃ msg, (c.get redis now name qtype).1 = some msg ∧
        (c.get redis now name qtype).2.1.hits = c.hits + 1 ∧
        (c.get redis now name qtype).2.1.misses = c.misses) ∨
      ((c.get redis now name qtype).1 = none ∧
        (c.get redis now name qtype).2.1.hits = c.hits ∧
        (c.get redis now name qtype).2.1.misses = c.misses + 1) := by
  rcases c.get_spec redis now name qtype with ⟨e, -, hget⟩ | ⟨l2, e, msg, -, -, -, -, hget⟩ |
    ⟨-, hget⟩
  · rw [hget]
    exact .inl ⟨e.msg, rfl, rfl, rfl⟩
  · rw [hget]
    obtain ⟨hhits, hmisses⟩ := set_counters c redis now name qtype (some msg)
    exact .inl ⟨msg, rfl, by rw [hhits], hmisses⟩
  · rw [hget]
    exact .inr ⟨rfl, rfl, rfl⟩

variable {hits misses : ℕ} {s : System}

omit [Unicode] in
theorem tally_start (t : ℤ) (h : Handler) :
    Tally h.cache.hits h.cache.misses (System.start t h) := by
  refine ⟨?_, ?_, ?_, ?_, ?_⟩ <;> simp [System.start, waiting_zero]

omit [Unicode] [Miekg] in
/-- A reply that was found without the cache. -/
theorem countP_local (replies : List Reply) {w : Reply}
    (h : w.source = .identityError ∨ w.source = .captive ∨ w.source = .blocked) :
    (replies ++ [w]).countP Reply.isHit = replies.countP Reply.isHit ∧
      (replies ++ [w]).countP Reply.isMiss = replies.countP Reply.isMiss := by
  rcases h with h | h | h <;> simp [Reply.isHit, Reply.isMiss, h]

theorem source_of_arrive {h : Handler} {now : ℤ} {inc : Incoming} {out : Output}
    (ho : h.arrive now inc = .inl out) : out.reply.source = .identityError ∨
      out.reply.source = .captive ∨ out.reply.source = .blocked := by
  unfold Handler.arrive at ho
  split at ho <;> cases ho <;> simp [Handler.sendCaptiveResponse, Handler.sendBlockResponse]

theorem Tally.arrive (h : Tally hits misses s) (inc : Incoming) :
    Tally hits misses ((SystemEvent.arrive inc).apply s) := by
  simp only [SystemEvent.apply]
  split_ifs with hcall
  · exact h
  simp only [ne_eq, not_not] at hcall
  have hlt : ∀ call, s.running call ≠ none → call < s.calls + 1 :=
    fun call hrun => (h.accepted call hrun).trans (Nat.lt_succ_self _)
  split
  · rename_i out hout
    obtain ⟨hhit, hmiss⟩ := countP_local s.replies (source_of_arrive hout)
    have hidle : s.running s.calls = none := by
      by_contra hrun
      exact absurd (h.accepted _ hrun) (lt_irrefl _)
    have hwaiting : ∀ st, waiting st (s.calls + 1) s.running = waiting st s.calls s.running := by
      intro st
      have hsucc := waiting_succ st s.calls s.running none
      rw [← hidle, Function.update_eq_self] at hsucc
      simpa [AtStage, hidle] using hsucc
    refine ⟨hlt, h.started, ?_, ?_, ?_⟩
    · simp only [System.write, List.length_append, List.length_singleton, hwaiting]
      have hcalls := h.calls
      omega
    · simp only [System.write, hhit]
      exact h.hits
    · simp only [System.write, hmiss, hwaiting]
      exact h.misses
  · rename_i q hpass
    obtain ⟨-, hstart, -⟩ := Handler.arrive_eq_inr.1 hpass
    rw [hcall]
    refine ⟨fun call hrun => ?_, fun call q' st hrun => ?_, ?_, h.hits, ?_⟩
    · by_cases hc : call = s.calls
      · rw [hc]
        exact Nat.lt_succ_self _
      · simp only [Function.update_of_ne hc] at hrun
        exact hlt call hrun
    · by_cases hc : call = s.calls
      · subst hc
        simp only [Function.update_self, Option.some.injEq, Prod.mk.injEq] at hrun
        rw [← hrun.1, hstart]
      · simp only [Function.update_of_ne hc] at hrun
        exact h.started call q' st hrun
    · simp only [waiting_succ, AtStage, Option.map_some, Option.some.injEq, if_true,
        reduceCtorEq, if_false]
      have hcalls := h.calls
      omega
    · simp only [waiting_succ, AtStage, Option.map_some, Option.some.injEq, reduceCtorEq, if_false]
      exact h.misses

omit [Unicode] in
/-- A call goes on to another stage, or ends. -/
theorem Tally.progress (h : Tally hits misses s) {call : ℕ} {q : Query} {st : Stage}
    (hrun : s.running call = some (q, st)) (next : Option (Query × Stage))
    (hnext : ∀ q' st', next = some (q', st') → q' = q) :
    (∀ c, Function.update s.running call next c ≠ none → c < s.calls) ∧
      ∀ c q' st', Function.update s.running call next c = some (q', st') → q'.start ≤ s.now := by
  have hlt := h.accepted call (by simp [hrun])
  refine ⟨fun c hc => ?_, fun c q' st' hc => ?_⟩
  · by_cases heq : c = call
    · exact heq ▸ hlt
    · rw [Function.update_of_ne heq] at hc
      exact h.accepted c hc
  · by_cases heq : c = call
    · rw [heq, Function.update_self] at hc
      rw [hnext q' st' hc]
      exact h.started call q st hrun
    · rw [Function.update_of_ne heq] at hc
      exact h.started c q' st' hc

theorem Tally.lookup (h : Tally hits misses s) (call : ℕ) :
    Tally hits misses ((SystemEvent.lookup call).apply s) := by
  simp only [SystemEvent.apply]
  split
  · rename_i q hrun
    have hlt := h.accepted call (by simp [hrun])
    have hcalls := h.calls
    have hhits := h.hits
    have hmisses := h.misses
    rcases get_counters s.handler.cache s.redis s.now q.incoming.question.name
      q.incoming.question.qtype with ⟨msg, hget, hhit, hmiss⟩ | ⟨hget, hhit, hmiss⟩
    · obtain ⟨haccepted, hstarted⟩ := h.progress hrun none (by simp)
      have hlookup := waiting_update .lookup s.running hlt none
      have hupstream := waiting_update .upstream s.running hlt none
      simp only [hrun, AtStage, Option.map_some, Option.map_none, Option.some.injEq, reduceCtorEq,
        if_true, if_false] at hlookup hupstream
      simp only [Handler.lookup, hget, Option.map_some]
      refine ⟨haccepted, hstarted, ?_, ?_, ?_⟩
      · simp only [System.write, List.length_append, List.length_singleton]
        omega
      · simp [System.write, Reply.isHit, hhit]
        omega
      · simp [System.write, Reply.isMiss, hmiss]
        omega
    · obtain ⟨haccepted, hstarted⟩ := h.progress hrun (some (q, .upstream)) (by simp)
      have hlookup := waiting_update .lookup s.running hlt
        (some (q, .upstream))
      have hupstream := waiting_update .upstream s.running hlt
        (some (q, .upstream))
      simp only [hrun, AtStage, Option.map_some, Option.some.injEq, reduceCtorEq, if_true,
        if_false] at hlookup hupstream
      simp only [Handler.lookup, hget, Option.map_none]
      refine ⟨haccepted, hstarted, ?_, hhit.trans hhits, hmiss.trans ?_⟩
      · simp only
        omega
      · simp only
        omega
  · exact h

theorem Tally.exchange (h : Tally hits misses s) (call : ℕ) (answers : List (Option Received)) :
    Tally hits misses ((SystemEvent.exchange call answers).apply s) := by
  simp only [SystemEvent.apply]
  split
  · rename_i q hrun
    have hlt := h.accepted call (by simp [hrun])
    have hcalls := h.calls
    have hhits := h.hits
    have hmisses := h.misses
    obtain ⟨haccepted, hstarted⟩ := h.progress hrun none (by simp)
    have hlookup := waiting_update .lookup s.running hlt none
    have hupstream := waiting_update .upstream s.running hlt none
    simp only [hrun, AtStage, Option.map_some, Option.map_none, Option.some.injEq, reduceCtorEq,
      if_true, if_false] at hlookup hupstream
    cases resolveUpstream answers with
    | none =>
      refine ⟨haccepted, hstarted, ?_, ?_, ?_⟩
      · simp only [Option.map_none, Handler.finish, System.write, List.length_append,
          List.length_singleton]
        omega
      · simp [Handler.finish, System.write, Reply.isHit, hhits]
      · simp [Handler.finish, System.write, Reply.isMiss]
        omega
    | some m =>
      obtain ⟨hhit, hmiss⟩ := set_counters s.handler.cache s.redis s.now q.incoming.question.name
        q.incoming.question.qtype (some m.msg)
      refine ⟨haccepted, hstarted, ?_, ?_, ?_⟩
      · simp only [Option.map_some, Handler.finish, System.write, List.length_append,
          List.length_singleton]
        omega
      · simp [Handler.finish, System.write, Reply.isHit, hhit, hhits]
      · simp [Handler.finish, System.write, Reply.isMiss, hmiss]
        omega
  · exact h

theorem Tally.apply (h : Tally hits misses s) (e : SystemEvent) :
    Tally hits misses (e.apply s) := by
  cases e with
  | tick d =>
    refine ⟨h.accepted, fun call q st hrun => (h.started call q st hrun).trans ?_, h.calls, h.hits,
      h.misses⟩
    exact Int.le_add_of_nonneg_right (Int.natCast_nonneg d)
  | filter | identity | loadRanges | evict | invalidate =>
    exact ⟨h.accepted, h.started, h.calls, h.hits, h.misses⟩
  | arrive inc => exact h.arrive inc
  | lookup call => exact h.lookup call
  | exchange call answers => exact h.exchange call answers

/-! ### The counters of the handler -/

/-- The start of the call that an event brings to its end. -/
def SystemEvent.returns (s : System) : SystemEvent → Option ℤ
  | .arrive inc =>
      if inc.call ≠ s.calls then none
      else match s.handler.arrive s.now inc with
        | .inl _ => some s.now
        | .inr _ => none
  | .lookup call =>
      match s.running call with
      | some (q, .lookup) => (s.handler.lookup s.redis s.now q).1.map fun _ => q.start
      | _ => none
  | .exchange call _ =>
      match s.running call with
      | some (q, .upstream) => some q.start
      | _ => none
  | _ => none

/-- A call ends with its reply. -/
theorem replies_length_apply (s : System) (e : SystemEvent) :
    (e.apply s).replies.length = s.replies.length + (e.returns s).toList.length := by
  cases e with
  | tick | filter | identity | loadRanges | evict | invalidate => rfl
  | arrive inc =>
    simp only [SystemEvent.apply, SystemEvent.returns]
    split_ifs
    · rfl
    · cases s.handler.arrive s.now inc <;> simp [System.write]
  | lookup call =>
    simp only [SystemEvent.apply, SystemEvent.returns]
    rcases s.running call with _ | ⟨q, _ | _⟩
    · rfl
    · cases hout : (s.handler.lookup s.redis s.now q).1 <;> simp [System.write, hout]
    · rfl
  | exchange call answers =>
    simp only [SystemEvent.apply, SystemEvent.returns]
    rcases s.running call with _ | ⟨q, _ | _⟩
    · rfl
    · rfl
    · cases resolveUpstream answers <;> simp [System.write]

theorem Tally.start_le (h : Tally hits misses s) {e : SystemEvent} {start : ℤ}
    (hreturns : e.returns s = some start) : start ≤ s.now := by
  cases e with
  | tick | filter | identity | loadRanges | evict | invalidate => cases hreturns
  | arrive inc =>
    simp only [SystemEvent.returns] at hreturns
    split_ifs at hreturns
    split at hreturns <;> cases hreturns
    exact le_rfl
  | lookup call =>
    simp only [SystemEvent.returns] at hreturns
    split at hreturns
    · rename_i q hrun
      obtain ⟨out, -, rfl⟩ := Option.map_eq_some_iff.1 hreturns
      exact h.started call q .lookup hrun
    · cases hreturns
  | exchange call answers =>
    simp only [SystemEvent.returns] at hreturns
    split at hreturns
    · rename_i q hrun
      cases hreturns
      exact h.started call q .upstream hrun
    · cases hreturns

theorem now_le_systemEvent (s : System) (e : SystemEvent) : s.now ≤ (e.apply s).now := by
  by_cases he : e.isConfig = true
  · cases e with
    | tick d => exact Int.le_add_of_nonneg_right (Int.natCast_nonneg d)
    | filter | identity | loadRanges => exact le_rfl
    | _ => cases he
  · exact (SystemEvent.frame s he).1.ge

end Tally

section Metered

variable [Miekg]

/-- The system with the counters of its handler, which are atomic.  The deferred function of a
call runs in two steps after the call has returned. -/
structure Metered where
  system : System
  queryCount : UInt64
  totalLatNs : Int64
  /-- The starts of the calls whose deferred functions have not begun. -/
  returned : List ℤ
  /-- The starts of those that are counted and have not yet added their latency. -/
  counted : List ℤ
  /-- The latencies that were added. -/
  latencies : List ℤ

inductive MeteredEvent
  | system (e : SystemEvent)
  /-- `h.queryCount.Add(1)`. -/
  | count (i : ℕ)
  /-- `h.totalLatNs.Add(time.Since(start).Nanoseconds())`. -/
  | addLatency (i : ℕ)

variable [Unicode]

def MeteredEvent.apply (s : Metered) : MeteredEvent → Metered
  | .system e =>
      { s with system := e.apply s.system, returned := s.returned ++ (e.returns s.system).toList }
  | .count i =>
      match s.returned[i]? with
      | some start =>
          { s with
            queryCount := s.queryCount + 1
            returned := s.returned.eraseIdx i
            counted := s.counted ++ [start] }
      | none => s
  | .addLatency i =>
      match s.counted[i]? with
      | some start =>
          { s with
            totalLatNs := s.totalLatNs + Int64.ofInt (s.system.now - start)
            counted := s.counted.eraseIdx i
            latencies := s.latencies ++ [s.system.now - start] }
      | none => s

/-- A freshly started handler. -/
def Metered.start (t : ℤ) (h : Handler) : Metered := ⟨.start t h, 0, 0, [], [], []⟩

/-! ### What the counters say -/

/-- Every call has replied or is in progress, and every one that has replied is counted or about
to be; the latencies are those of calls that are counted, and none is negative; and every query
that was looked up is a hit or a miss of the cache. -/
structure MetricsTrue (h : Handler) (s : Metered) : Prop where
  tally : Tally h.cache.hits h.cache.misses s.system
  queries : s.queryCount = UInt64.ofNat (s.counted.length + s.latencies.length)
  replies : s.returned.length + s.counted.length + s.latencies.length = s.system.replies.length
  latency : s.totalLatNs = Int64.ofInt s.latencies.sum
  nonneg : ∀ l ∈ s.latencies, 0 ≤ l
  started : ∀ start ∈ s.returned ++ s.counted, start ≤ s.system.now

omit [Unicode] in
theorem metricsTrue_start (t : ℤ) (h : Handler) : MetricsTrue h (.start t h) := by
  refine ⟨tally_start t h, ?_, ?_, ?_, ?_, ?_⟩ <;> simp [Metered.start, System.start]

theorem MetricsTrue.apply {h : Handler} {s : Metered} (hs : MetricsTrue h s) (e : MeteredEvent) :
    MetricsTrue h (e.apply s) := by
  obtain ⟨htally, hqueries, hreplies, hlatency, hnonneg, hstarted⟩ := hs
  cases e with
  | system e =>
    refine ⟨htally.apply e, hqueries, ?_, hlatency, hnonneg, fun start hmem => ?_⟩
    · simp only [MeteredEvent.apply, replies_length_apply, List.length_append]
      omega
    · refine le_trans ?_ (now_le_systemEvent s.system e)
      simp only [MeteredEvent.apply, List.mem_append, Option.mem_toList] at hmem
      rcases hmem with (hold | hnew) | hold
      · exact hstarted start (List.mem_append_left _ hold)
      · exact htally.start_le hnew
      · exact hstarted start (List.mem_append_right _ hold)
  | count i =>
    simp only [MeteredEvent.apply]
    split
    · rename_i start hstart
      obtain ⟨hi, hget⟩ := List.getElem?_eq_some_iff.1 hstart
      refine ⟨htally, ?_, ?_, hlatency, hnonneg, fun start' hmem => hstarted start' ?_⟩
      · rw [List.length_append, List.length_singleton, Nat.add_right_comm, UInt64.ofNat_add,
          ← hqueries]
        rfl
      · simp only [List.length_eraseIdx, hi, if_true, List.length_append, List.length_singleton]
        omega
      · simp only [List.mem_append, List.mem_singleton] at hmem ⊢
        rcases hmem with hmem | hmem | rfl
        · exact .inl (List.mem_of_mem_eraseIdx hmem)
        · exact .inr hmem
        · exact .inl (List.mem_of_getElem? hstart)
    · exact ⟨htally, hqueries, hreplies, hlatency, hnonneg, hstarted⟩
  | addLatency i =>
    simp only [MeteredEvent.apply]
    split
    · rename_i start hstart
      obtain ⟨hi, hget⟩ := List.getElem?_eq_some_iff.1 hstart
      have hmem : start ∈ s.counted := List.mem_of_getElem? hstart
      have hle : start ≤ s.system.now := hstarted start (List.mem_append_right _ hmem)
      refine ⟨htally, ?_, ?_, ?_, fun l hl => ?_, fun start' hmem => hstarted start' ?_⟩
      · have hlength : (s.counted.eraseIdx i).length +
            (s.latencies ++ [s.system.now - start]).length =
              s.counted.length + s.latencies.length := by
          simp only [List.length_eraseIdx, hi, if_true, List.length_append, List.length_singleton]
          omega
        rw [hlength, hqueries]
      · simp only [List.length_eraseIdx, hi, if_true, List.length_append, List.length_singleton]
        omega
      · simp only [hlatency, List.sum_append, List.sum_singleton, Int64.ofInt_add]
      · rcases List.mem_append.1 hl with hl | hl
        · exact hnonneg l hl
        · rw [List.mem_singleton.1 hl]
          exact Int.sub_nonneg.2 hle
      · simp only [List.mem_append] at hmem ⊢
        exact hmem.imp_right List.mem_of_mem_eraseIdx
    · exact ⟨htally, hqueries, hreplies, hlatency, hnonneg, hstarted⟩

omit [Miekg] [Unicode] in
theorem countP_lookup (replies : List Reply) :
    replies.countP Reply.isHit + replies.countP Reply.isMiss =
      replies.countP fun w => w.isHit || w.isMiss := by
  induction replies with
  | nil => rfl
  | cons w replies ih =>
    have hone : (if w.isHit then 1 else 0) + (if w.isMiss then 1 else 0) =
        if w.isHit || w.isMiss then 1 else 0 := by
      cases hsource : w.source <;> simp [Reply.isHit, Reply.isMiss, hsource]
    simp only [List.countP_cons, ← ih]
    omega

/-- **Whatever queries, changes and deferred functions have run in whatever order: the handler
has counted all queries but those in progress and those that have just returned, and has added
up the latencies, none of them negative, of the counted ones but those whose latency is still to
be added; the cache has counted a hit for every reply taken from it and a miss for every query
that was, or is about to be, sent to the upstreams.** -/
theorem metrics_run (t : ℤ) (h : Handler) (es : List MeteredEvent) :
    let s := run MeteredEvent.apply (.start t h) es
    let inProgress := waiting .lookup s.system.calls s.system.running +
      waiting .upstream s.system.calls s.system.running
    MetricsTrue h s ∧
      s.queryCount + UInt64.ofNat (s.returned.length + inProgress) =
        UInt64.ofNat s.system.calls ∧
      s.system.handler.cache.hits + s.system.handler.cache.misses =
        h.cache.hits + h.cache.misses +
          s.system.replies.countP (fun w => w.isHit || w.isMiss) +
            waiting .upstream s.system.calls s.system.running := by
  intro s inProgress
  have hs : MetricsTrue h s :=
    run_invariant (MetricsTrue h) (fun _ e hs => hs.apply e) (metricsTrue_start t h) es
  refine ⟨hs, ?_, ?_⟩
  · rw [hs.queries, ← UInt64.ofNat_add]
    have hcalls := hs.tally.calls
    have hreplies := hs.replies
    congr 1
    omega
  · rw [hs.tally.hits, hs.tally.misses, ← countP_lookup]
    omega

end Metered

end DnsFilter
