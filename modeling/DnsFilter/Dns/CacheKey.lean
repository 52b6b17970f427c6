import DnsFilter.Dns.System

/-!
# The cache key

The key of a response is the lower-case name and the text of the query type.  It has no
class in it, and all types that `TypeToString` does not know share the empty text.

* `Question.key_eq_iff`: what a key says about the question;
* `cached_answers_match_iff`: cached answers go to the questions they answer in all runs
  over a set of questions exactly when no two of these collide.
-/

namespace DnsFilter

open EventRun GoString

/-- Equal names up to the case of the ASCII letters. -/
def Question.SameName (q q' : Question) : Prop := q.name.map Char.toLower = q'.name.map Char.toLower

section Key

variable [Unicode] [Miekg]

omit [Miekg] in
theorem Question.toLower_name (q : Question) : toLower q.name = q.name.map Char.toLower :=
  List.map_congr_left fun c hc => Unicode.toLower_ascii c (q.ascii c hc)

/-- Two questions share a key exactly when their names agree up to case and their types have
the same text. -/
theorem Question.key_eq_iff (q q' : Question) :
    q.key = q'.key ↔
      q.SameName q' ∧ Miekg.typeToString q.qtype = Miekg.typeToString q'.qtype := by
  have hkey : ∀ q : Question,
      q.key = q.name.map Char.toLower ++ '|' :: Miekg.typeToString q.qtype := by
    intro q
    rw [Question.key, DnsFilter.key, q.toLower_name]
    simp
  rw [hkey, hkey, append_sep_inj (Miekg.pipe_notMem_typeToString _)
    (Miekg.pipe_notMem_typeToString _)]
  rfl

/-- Questions that the cache confuses are the same question. -/
def CollisionFree (Q : Set Question) : Prop :=
  ∀ q ∈ Q, ∀ q' ∈ Q, q.SameName q' → Miekg.typeToString q.qtype = Miekg.typeToString q'.qtype →
    q.qtype = q'.qtype ∧ q.qclass = q'.qclass

/-- Every cached answer was brought by an exchange for the same name, type and class. -/
def CachedAnswersMatch (s : System) : Prop :=
  ∀ w ∈ s.replies, w.source = .cache → ∃ x ∈ s.exchanges, w.origin = some x.response.msg ∧
    x.query.incoming.question.SameName w.incoming.question ∧
    x.query.incoming.question.qtype = w.incoming.question.qtype ∧
    x.query.incoming.question.qclass = w.incoming.question.qclass

/-- All queries of a run are taken from `Q`. -/
def DrawnFrom (Q : Set Question) (es : List SystemEvent) : Prop :=
  ∀ inc, .arrive inc ∈ es → inc.question ∈ Q

theorem cachedAnswersMatch_of_collisionFree {Q : Set Question} (hQ : CollisionFree Q) (t : ℤ)
    (h : Handler) {es : List SystemEvent} (hes : DrawnFrom Q es) :
    CachedAnswersMatch (run SystemEvent.apply (System.start t h) es) := by
  have hprov := provenance_trace (fun es q => SystemEvent.arrive q.incoming ∈ es) t h
    (fun es e q hq => List.mem_append_left _ hq)
    (fun es inc q _ hq => by simp [(Handler.arrive_eq_inr.1 hq).1]) es
  intro w hw hcache
  obtain ⟨q, msg, hq, hinc, horigin⟩ := hprov.answers w hw (.inl hcache)
  obtain ⟨-, x, hx, hkey, rfl⟩ := hprov.origins w hw msg horigin
  obtain ⟨hname, htype⟩ := (Question.key_eq_iff _ _).1 hkey
  have hsame := hQ _ (hes _ (hprov.exchanges x hx)) _ (hes _ (hinc ▸ hq)) hname htype
  exact ⟨x, hx, horigin, hname, hsame.1, hsame.2⟩

/-! ### Two colliding questions -/

omit [Miekg] in
theorem admission_openHandler (cache : Cache) (now : ℤ) (clientIP : IP) (qName : GoString) :
    { openHandler with cache := cache }.admission now clientIP qName =
      .pass { groupID := 0, authMode := authNone } := by
  refine Handler.admission_eq_pass.2 ⟨?_, by decide, ?_⟩
  · simp [openHandler, Resolver.new, Resolver.resolve, Resolver.activeSession, Expiring.live,
      Resolver.matchRange]
  · rw [Engine.evaluateForGroup_action]
    exact .inr ⟨Blacklist.contains_new qName, by simp [Engine.policyCheck]⟩

theorem arrive_openHandler (cache : Cache) (now : ℤ) (inc : Incoming) :
    { openHandler with cache := cache }.arrive now inc =
      .inr ⟨inc, now, { groupID := 0, authMode := authNone }⟩ :=
  Handler.arrive_eq_inr.2 ⟨rfl, rfl, admission_openHandler ..⟩

/-- The first query of a run brings a response into the cache. -/
theorem run_first (q : Question) (m : Received) (hm : m.msg.answer ≠ []) :
    ∃ (c : Cache) (w : Reply),
      run SystemEvent.apply (System.start 0 openHandler)
        [.arrive (askFor 0 q), .lookup 0, .exchange 0 [some m]] =
          { now := 0, handler := { openHandler with cache := c }, redis := ∅,
            calls := 1, running := fun _ => none, replies := [w], entries := [],
            exchanges := [⟨⟨askFor 0 q, 0, { groupID := 0, authMode := authNone }⟩, m⟩] } ∧
        Expiring.live CacheEntry.expiresAt c.entries 0 q.key = some ⟨m.msg, 0 + second⟩ := by
  let c : Cache := { Cache.new second second with misses := 1 }
  let query : Query := ⟨askFor 0 q, 0, { groupID := 0, authMode := authNone }⟩
  have hset : c.set ∅ 0 q.name q.qtype (some m.msg) =
      ({ c with entries := c.entries.insert q.key ⟨m.msg, 0 + second⟩ }, ∅) := by
    rw [Cache.set_spec, if_neg hm, Cache.extractTTL, extractTTL,
      show c.ttlFloor = second from rfl, show c.ttlCeil = second from rfl, clampTTL_self]
    rfl
  have hfinish : { openHandler with cache := c }.finish ∅ 0 query (some m.msg) =
      (⟨⟨.upstream, askFor 0 q, Miekg.setReply m.msg (askFor 0 q).request, some m.msg⟩, none⟩,
        { openHandler with cache :=
          { c with entries := c.entries.insert q.key ⟨m.msg, 0 + second⟩ } }, ∅) := by
    simp only [Handler.finish, query, askFor, hset]
    rfl
  have hpass : (System.start 0 openHandler).handler.arrive 0 (askFor 0 q) = .inr query :=
    arrive_openHandler openHandler.cache 0 (askFor 0 q)
  have hrun := run_miss (s := System.start 0 openHandler) rfl hpass rfl hfinish
  have hrunning : Function.update (System.start 0 openHandler).running 0 none = fun _ => none :=
    Function.update_eq_self 0 _
  refine ⟨{ c with entries := c.entries.insert q.key ⟨m.msg, 0 + second⟩ },
    ⟨.upstream, askFor 0 q, Miekg.setReply m.msg (askFor 0 q).request, some m.msg⟩,
    hrun.trans ?_, ?_⟩
  · rw [show (askFor 0 q).call = 0 from rfl, hrunning]
    rfl
  · rw [Expiring.live_insert_self, if_pos (show (0 : ℤ) < 0 + second by decide)]

/-- Two questions with one key: the second is answered with the response to the first. -/
theorem collision_served {q q' : Question} (hkey : q.key = q'.key) (m : Received)
    (hm : m.msg.answer ≠ []) :
    let s := run SystemEvent.apply (System.start 0 openHandler)
      ([.arrive (askFor 0 q), .lookup 0, .exchange 0 [some m]] ++
        [.arrive (askFor 1 q'), .lookup 1])
    (∃ w ∈ s.replies, w.source = .cache ∧ w.incoming.question = q') ∧
      ∀ x ∈ s.exchanges, x.query.incoming.question = q := by
  obtain ⟨c, w, hrun, hlive⟩ := run_first q m hm
  let query : Query := ⟨askFor 1 q', 0, { groupID := 0, authMode := authNone }⟩
  have hlookup : { openHandler with cache := c }.lookup ∅ 0 query =
      (some ⟨⟨.cache, askFor 1 q', Miekg.setReply m.msg (askFor 1 q').request, some m.msg⟩, none⟩,
        { openHandler with cache := { c with hits := c.hits + 1 } }, ∅) := by
    rw [hkey] at hlive
    simp only [Handler.lookup, query, askFor, Cache.get_of_live hlive]
    rfl
  rw [run_append, hrun]
  have hpass : { openHandler with cache := c }.arrive 0 (askFor 1 q') = .inr query :=
    arrive_openHandler c 0 (askFor 1 q')
  have hhit := run_hit (s := ⟨0, { openHandler with cache := c },
    ∅, 1, fun _ => none, [w], [], [⟨⟨askFor 0 q, 0, { groupID := 0, authMode := authNone }⟩, m⟩]⟩)
    rfl hpass hlookup
  rw [show (askFor 1 q').call = 1 from rfl] at hhit
  rw [hhit]
  constructor
  · exact ⟨_, List.mem_append_right _ (List.mem_singleton_self _), rfl, rfl⟩
  · intro x hx
    rw [List.mem_singleton.1 hx]
    rfl

/-- **Cached answers go to the question they answer in every run over a set of questions,
exactly when no two questions of the set share a name up to case and a type text but differ
in type or class.** -/
theorem cached_answers_match_iff (Q : Set Question) :
    (∀ t h es, DrawnFrom Q es →
        CachedAnswersMatch (run SystemEvent.apply (System.start t h) es)) ↔ CollisionFree Q := by
  constructor
  · intro hall q hq q' hq' hname htype
    obtain ⟨wire, msg, hunpack, hans⟩ := Miekg.exists_answer
    obtain ⟨⟨w, hw, hcache, hquestion⟩, hx⟩ :=
      collision_served ((Question.key_eq_iff q q').2 ⟨hname, htype⟩) ⟨msg, wire, hunpack⟩ hans
    have hdrawn : DrawnFrom Q ([.arrive (askFor 0 q), .lookup 0,
        .exchange 0 [some ⟨msg, wire, hunpack⟩]] ++ [.arrive (askFor 1 q'), .lookup 1]) := by
      intro inc hinc
      simp only [List.cons_append, List.nil_append, List.mem_cons, SystemEvent.arrive.injEq,
        reduceCtorEq, List.not_mem_nil, or_false, false_or] at hinc
      rcases hinc with rfl | rfl
      · exact hq
      · exact hq'
    obtain ⟨x, hmem, -, -, hqtype, hqclass⟩ := hall 0 openHandler _ hdrawn w hw hcache
    rw [hx x hmem, hquestion] at hqtype hqclass
    exact ⟨hqtype, hqclass⟩
  · exact fun hQ t h es hes => cachedAnswersMatch_of_collisionFree hQ t h hes

end Key

/-! ### An answer for the wrong class -/

/-- A query of the class `CH` is answered from the cache with the response to the query of
the class `IN`. -/
theorem wrong_class_served :
    letI := asciiTable
    letI := plainMiekg
    ¬ CachedAnswersMatch (run SystemEvent.apply (System.start 0 openHandler)
      [.arrive (askFor 0 (questionIn classINET)), .lookup 0,
        .exchange 0 [some ⟨shortLived, shortLived, rfl⟩],
        .arrive (askFor 1 (questionIn 3)), .lookup 1]) := by
  intro h
  obtain ⟨x, hx, -, -, -, hqclass⟩ :=
    h _ (List.mem_cons_of_mem _ (List.mem_singleton_self _)) rfl
  obtain rfl := List.mem_singleton.1 hx
  revert hqclass
  decide

end DnsFilter
