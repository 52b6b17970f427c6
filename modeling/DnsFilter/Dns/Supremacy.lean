import DnsFilter.Dns.System

/-!
# Policy supremacy

One cache serves clients under different and changing policies.

* `answers_pass`, `cache_from_passed`: what is answered from the cache or an upstream was
  allowed when the query arrived, and the cache holds nothing but upstream responses to
  allowed queries;
* `arrive_run_eq`: whether a query is redirected, blocked or let through depends on the
  changes of the configuration alone, not on the queries of others;
* `policy_supremacy` puts the three together.
-/

namespace DnsFilter

open EventRun

section Supremacy

variable [Unicode] [Miekg]

/-- In this state the client is resolved to an identity that needs no login, and the engine
allows the name for its group. -/
def PassesIn (s : System) (inc : Incoming) : Prop :=
  ∃ id, s.handler.identity.resolve s.now inc.clientIP = .ok id ∧
    id.authMode ≠ authCaptivePortal ∧
    (s.handler.filter.evaluateForGroup inc.question.name id.groupID).action = .allow

/-- The call arrived after the first events `pre` of a run, as the one with its number. -/
def ArrivedAfter (s : System) (es pre : List SystemEvent) (inc : Incoming) : Prop :=
  pre ++ [.arrive inc] <+: es ∧ (run SystemEvent.apply s pre).calls = inc.call

/-- The call arrived during the run, and passed in the state at that moment. -/
def PassedDuring (s : System) (es : List SystemEvent) (inc : Incoming) : Prop :=
  ∃ pre, ArrivedAfter s es pre inc ∧ PassesIn (run SystemEvent.apply s pre) inc

theorem PassedDuring.append {s : System} {es : List SystemEvent} {inc : Incoming}
    (h : PassedDuring s es inc) (fs : List SystemEvent) : PassedDuring s (es ++ fs) inc := by
  obtain ⟨pre, ⟨hpre, hcall⟩, hpass⟩ := h
  exact ⟨pre, ⟨hpre.trans (List.prefix_append es fs), hcall⟩, hpass⟩

/-! ### Arrivals -/

theorem calls_le_apply (s : System) (e : SystemEvent) : s.calls ≤ (e.apply s).calls := by
  cases e with
  | tick | filter | identity | loadRanges | evict | invalidate => exact le_rfl
  | arrive inc =>
    simp only [SystemEvent.apply]
    split_ifs
    · exact le_rfl
    · split <;> exact Nat.le_succ _
  | lookup call =>
    simp only [SystemEvent.apply]
    split
    · split <;> exact le_rfl
    · exact le_rfl
  | exchange call answers =>
    simp only [SystemEvent.apply]
    split <;> exact le_rfl

theorem lt_calls_arrive {s : System} {inc : Incoming} (h : s.calls = inc.call) :
    s.calls < ((SystemEvent.arrive inc).apply s).calls := by
  rw [SystemEvent.apply, if_neg (not_not.2 h.symm)]
  dsimp only
  split <;> exact Nat.lt_succ_self _

/-- A call arrives once. -/
theorem ArrivedAfter.unique {s : System} {es pre pre' : List SystemEvent} {inc inc' : Incoming}
    (h : ArrivedAfter s es pre inc) (h' : ArrivedAfter s es pre' inc')
    (hcall : inc.call = inc'.call) : pre = pre' := by
  refine eq_of_counter calls_le_apply s h.1 h'.1 ?_ ?_ ?_
  · rw [run_concat]
    exact lt_calls_arrive h.2
  · rw [run_concat]
    exact lt_calls_arrive h'.2
  · rw [h.2, h'.2, hcall]

theorem provenance_passed (t : ℤ) (h : Handler) (es : List SystemEvent) :
    Provenance (fun q => PassedDuring (System.start t h) es q.incoming)
      (run SystemEvent.apply (System.start t h) es) := by
  refine provenance_trace (fun es q => PassedDuring (System.start t h) es q.incoming) t h
    (fun es e q hq => hq.append [e]) (fun es inc q hcall hq => ?_) es
  obtain ⟨rfl, -, hadmission⟩ := Handler.arrive_eq_inr.1 hq
  exact ⟨es, ⟨List.prefix_rfl, hcall.symm⟩, q.id, Handler.admission_eq_pass.1 hadmission⟩

/-! ### Supremacy -/

/-- Answers from the cache or an upstream go to queries that passed when they arrived. -/
theorem answers_pass (t : ℤ) (h : Handler) (es : List SystemEvent) {w : Reply}
    (hw : w ∈ (run SystemEvent.apply (System.start t h) es).replies) (hans : w.isAnswer) :
    ∃ pre, ArrivedAfter (System.start t h) es pre w.incoming ∧
      PassesIn (run SystemEvent.apply (System.start t h) pre) w.incoming ∧
      ∀ pre', ArrivedAfter (System.start t h) es pre' w.incoming → pre' = pre := by
  obtain ⟨q, -, hq, hinc, -⟩ := (provenance_passed t h es).answers w hw hans
  obtain ⟨pre, harr, hpass⟩ := hinc ▸ hq
  exact ⟨pre, harr, hpass, fun pre' harr' => harr'.unique harr rfl⟩

/-- Both levels of the cache hold responses of upstreams to queries that passed. -/
theorem cache_from_passed (t : ℤ) (h : Handler) (es : List SystemEvent) :
    let s := run SystemEvent.apply (System.start t h) es
    s.handler.cache.Holds (fun k msg => ∃ x ∈ s.exchanges,
      x.query.incoming.question.key = k ∧ x.response.msg = msg ∧
        PassedDuring (System.start t h) es x.query.incoming) s.redis := by
  have hprov := provenance_passed t h es
  refine hprov.cache.mono ?_
  rintro k msg ⟨x, hx, hkey, hmsg⟩
  exact ⟨x, hx, hkey, hmsg, hprov.exchanges x hx⟩

/-! ### Isolation -/

/-- What the decision about a query depends on: the clock, and the handler but for its
cache. -/
def System.policyView (s : System) : ℤ × Handler :=
  (s.now, { s.handler with cache := Cache.new 0 0 })

/-- The effect of an event on the view. -/
def SystemEvent.onView (v : ℤ × Handler) : SystemEvent → ℤ × Handler
  | .tick d => (v.1 + d, v.2)
  | .filter edit => (v.1, { v.2 with filter := edit.apply v.2.filter })
  | .identity e => (v.1, { v.2 with identity := e.apply v.2.identity })
  | .loadRanges ranges => (v.1, { v.2 with identity := v.2.identity.loadRanges ranges })
  | _ => v

theorem policyView_of_isConfig (s : System) (e : SystemEvent) (he : e.isConfig) :
    (e.apply s).policyView = e.onView s.policyView := by
  cases e with
  | tick | filter | identity | loadRanges => rfl
  | _ => cases he

/-- Queries, and whatever happens to the cache, leave the view alone. -/
theorem policyView_of_not_isConfig (s : System) (e : SystemEvent) (he : ¬ e.isConfig) :
    (e.apply s).policyView = s.policyView := by
  obtain ⟨hnow, cache, hhandler⟩ := SystemEvent.frame s he
  simp only [System.policyView, hnow, hhandler]

/-- Runs with the same changes of the configuration treat a query alike: the same redirect,
the same block reply, or no objection in both. -/
theorem arrive_run_eq (s : System) {es es' : List SystemEvent}
    (h : es.filter SystemEvent.isConfig = es'.filter SystemEvent.isConfig) (inc : Incoming) :
    let s₁ := run SystemEvent.apply s es
    let s₂ := run SystemEvent.apply s es'
    s₁.handler.arrive s₁.now inc = s₂.handler.arrive s₂.now inc := by
  have hview : ∀ es : List SystemEvent, (run SystemEvent.apply s es).policyView =
      run SystemEvent.onView s.policyView (es.filter SystemEvent.isConfig) := by
    intro es
    simpa using run_project policyView_of_isConfig policyView_of_not_isConfig s es
  have harrive : ∀ s' : System,
      s'.handler.arrive s'.now inc = s'.policyView.2.arrive s'.policyView.1 inc := fun _ => rfl
  intro s₁ s₂
  rw [harrive, harrive, hview es, hview es', h]

/-- **Policy supremacy and isolation.**  Answers from the cache or an upstream go to queries
that passed when they arrived; the cache holds upstream responses to queries that passed;
and runs that differ in queries only decide alike about a query that arrives next. -/
theorem policy_supremacy (t : ℤ) (h : Handler) (es : List SystemEvent) :
    let s := run SystemEvent.apply (System.start t h) es
    (∀ w ∈ s.replies, w.isAnswer →
        ∃ pre, ArrivedAfter (System.start t h) es pre w.incoming ∧
          PassesIn (run SystemEvent.apply (System.start t h) pre) w.incoming ∧
          ∀ pre', ArrivedAfter (System.start t h) es pre' w.incoming → pre' = pre) ∧
      s.handler.cache.Holds (fun k msg => ∃ x ∈ s.exchanges,
        x.query.incoming.question.key = k ∧ x.response.msg = msg ∧
          PassedDuring (System.start t h) es x.query.incoming) s.redis ∧
      ∀ es' inc, es.filter SystemEvent.isConfig = es'.filter SystemEvent.isConfig →
        let s' := run SystemEvent.apply (System.start t h) es'
        s.handler.arrive s.now inc = s'.handler.arrive s'.now inc :=
  ⟨fun _ hw hans => answers_pass t h es hw hans, cache_from_passed t h es,
    fun _ inc hsame => arrive_run_eq (System.start t h) hsame inc⟩

end Supremacy
end DnsFilter
