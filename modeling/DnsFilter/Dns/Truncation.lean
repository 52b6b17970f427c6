import DnsFilter.Dns.System

/-!
# Truncated answers

Both listeners share one handler, and `ServeDNS` does not ask on which of them a query came.
The client of the upstream resolver speaks UDP, and `Set` stores what it brings, so that the
`TC` bit of an answer stays set in the reply to this query and in those from the cache.

The listener of a call is a parameter, the predicate `tcp` on the numbers of the calls.

* `truncated_of_arrive`: local replies are never truncated;
* `never_truncated_iff`: in which runs no reply to a TCP client is.
-/

namespace DnsFilter

open EventRun

section Truncation

variable [Unicode] [Miekg] {tcp : ℕ → Prop}

/-- No reply that was written to a TCP client has the `TC` bit set. -/
def NeverTruncated (tcp : ℕ → Prop) (s : System) : Prop :=
  ∀ w ∈ s.replies, tcp w.incoming.call → w.msg.truncated = false

/-- The cache has no live entry with the `TC` bit for a question: not in L1, nor, if L1 has
none at all, in L2. -/
def NoneTruncated (s : System) (q : Question) : Prop :=
  (∀ e, Expiring.live CacheEntry.expiresAt s.handler.cache.entries s.now q.key = some e →
    e.msg.truncated = false) ∧
  (Expiring.live CacheEntry.expiresAt s.handler.cache.entries s.now q.key = none →
    s.handler.cache.l2 ≠ none → ∀ e msg,
      Expiring.live RedisEntry.expiresAt s.redis s.now q.key = some e →
        Miekg.unpack e.data = some msg → msg.truncated = false)

/-- A query over TCP finds no truncated message in the cache when it looks there, and the first
upstream that answers it does not truncate. -/
def FullAnswer (tcp : ℕ → Prop) (s : System) : SystemEvent → Prop
  | .lookup call => ∀ q, s.running call = some (q, .lookup) → tcp q.incoming.call →
      NoneTruncated s q.incoming.question
  | .exchange call answers => ∀ q, s.running call = some (q, .upstream) → tcp q.incoming.call →
      ∀ m, resolveUpstream answers = some m → m.msg.truncated = false
  | _ => True

/-! ### One step -/

omit [Unicode] in
theorem truncated_localReply (r : Msg) (qName : GoString) (qType : UInt16) (ttl : UInt32)
    (ip : IP) : (localReply r qName qType ttl ip).truncated = false := by
  have hreply : (Miekg.setReply {} r).truncated = false := (Miekg.setReply_header {} r).truncated
  unfold localReply
  split_ifs <;> exact hreply

omit [Unicode] in
theorem truncated_setRcode (r : Msg) (rcode : ℕ) : (r.setRcode rcode).truncated = false :=
  (Miekg.setReply_header {} r).truncated

/-- A reply that is made up locally is not truncated. -/
theorem truncated_of_arrive {h : Handler} {now : ℤ} {inc : Incoming} {out : Output}
    (ho : h.arrive now inc = .inl out) : out.reply.msg.truncated = false := by
  unfold Handler.arrive at ho
  split at ho
  · cases ho
    exact truncated_setRcode ..
  · cases ho
    exact truncated_localReply ..
  · cases ho
    exact truncated_localReply ..
  · cases ho

omit [Unicode] in
theorem neverTruncated_write {s : System} (hs : NeverTruncated tcp s) (out : Output) :
    NeverTruncated tcp (s.write out) ↔
      (tcp out.reply.incoming.call → out.reply.msg.truncated = false) := by
  simp only [NeverTruncated, System.write, List.forall_mem_append, List.forall_mem_singleton]
  exact and_iff_right hs

/-- What a `Get` returns is not truncated exactly when the cache has no truncated message. -/
theorem noneTruncated_iff (s : System) (q : Question) :
    NoneTruncated s q ↔ ∀ msg,
      (s.handler.cache.get s.redis s.now q.name q.qtype).1 = some msg → msg.truncated = false := by
  constructor
  · rintro ⟨hl1, hl2⟩ msg hmsg
    rcases Cache.get_spec s.handler.cache s.redis s.now q.name q.qtype with
      ⟨e, hlive, hget⟩ | ⟨l2, e, m, hdead, hsome, hlive, hunpack, hget⟩ | ⟨-, hget⟩
    · rw [hget] at hmsg
      obtain rfl := Option.some.inj hmsg
      exact hl1 e hlive
    · rw [hget] at hmsg
      obtain rfl := Option.some.inj hmsg
      exact hl2 hdead (by simp [hsome]) e m hlive hunpack
    · rw [hget] at hmsg
      cases hmsg
  · intro hget
    refine ⟨fun e hlive => hget _ ?_, fun hdead hl2 e msg hlive hunpack => hget _ ?_⟩
    · rw [Cache.get_of_live hlive]
    · obtain ⟨l2, hsome⟩ := Option.ne_none_iff_exists'.1 hl2
      have hread : (s.handler.cache.l2.bind fun l2 => l2.get s.redis s.now q.name q.qtype) =
          some msg := by
        rw [hsome, Option.bind_some, RedisCache.get]
        exact Option.bind_eq_some_iff.2 ⟨e, hlive, hunpack⟩
      rw [Cache.get_of_l2 hdead hread]

theorem neverTruncated_lookup {s : System} (hs : NeverTruncated tcp s) (call : ℕ) :
    NeverTruncated tcp ((SystemEvent.lookup call).apply s) ↔ FullAnswer tcp s (.lookup call) := by
  simp only [FullAnswer]
  cases hrun : s.running call with
  | none => simpa [SystemEvent.apply, hrun] using hs
  | some running =>
    obtain ⟨q, stage⟩ := running
    cases stage with
    | upstream => simpa [SystemEvent.apply, hrun] using hs
    | lookup =>
      simp only [Option.some.injEq, Prod.mk.injEq, and_true, forall_eq', noneTruncated_iff]
      simp only [SystemEvent.apply, hrun, Handler.lookup]
      cases hget : (s.handler.cache.get s.redis s.now q.incoming.question.name
          q.incoming.question.qtype).1 with
      | none => exact iff_of_true hs (by simp)
      | some msg =>
        have hreply : (Miekg.setReply msg q.incoming.request).truncated = msg.truncated :=
          (Miekg.setReply_header msg q.incoming.request).truncated
        simp only [Option.map_some, Option.some.injEq, forall_eq']
        rw [neverTruncated_write, hreply]
        exact hs

theorem neverTruncated_exchange {s : System} (hs : NeverTruncated tcp s) (call : ℕ)
    (answers : List (Option Received)) :
    NeverTruncated tcp ((SystemEvent.exchange call answers).apply s) ↔
      FullAnswer tcp s (.exchange call answers) := by
  simp only [FullAnswer]
  cases hrun : s.running call with
  | none => simpa [SystemEvent.apply, hrun] using hs
  | some running =>
    obtain ⟨q, stage⟩ := running
    cases stage with
    | lookup => simpa [SystemEvent.apply, hrun] using hs
    | upstream =>
      simp only [Option.some.injEq, Prod.mk.injEq, and_true, forall_eq']
      simp only [SystemEvent.apply, hrun]
      cases hresp : resolveUpstream answers with
      | none =>
        simp only [reduceCtorEq, false_imp_iff, implies_true, iff_true]
        rw [neverTruncated_write]
        · exact fun _ => truncated_setRcode ..
        · exact hs
      | some m =>
        have hreply : (Miekg.setReply m.msg q.incoming.request).truncated = m.msg.truncated :=
          (Miekg.setReply_header m.msg q.incoming.request).truncated
        simp only [Option.some.injEq, forall_eq']
        rw [neverTruncated_write, Option.map_some, Handler.finish, hreply]
        exact hs

/-- A step keeps the replies over TCP whole exactly when it meets the condition. -/
theorem neverTruncated_apply (s : System) (e : SystemEvent) (hs : NeverTruncated tcp s) :
    NeverTruncated tcp (e.apply s) ↔ FullAnswer tcp s e := by
  cases e with
  | lookup call => exact neverTruncated_lookup hs call
  | exchange call answers => exact neverTruncated_exchange hs call answers
  | arrive inc =>
    refine iff_of_true ?_ trivial
    simp only [SystemEvent.apply]
    split_ifs
    · exact hs
    · split
      · rename_i out hout
        exact (neverTruncated_write (s := { s with calls := s.calls + 1 }) hs out).2 fun _ =>
          truncated_of_arrive hout
      · exact hs
  | _ => exact iff_of_true hs trivial

/-- **No reply to a TCP client is ever truncated exactly along the runs in which the queries over
TCP find no truncated message in the cache, and no upstream answers them with one.** -/
theorem never_truncated_iff (tcp : ℕ → Prop) (t : ℤ) (h : Handler) (es : List SystemEvent) :
    (∀ fs, fs <+: es → NeverTruncated tcp (run SystemEvent.apply (System.start t h) fs)) ↔
      Along SystemEvent.apply (FullAnswer tcp) (System.start t h) es :=
  (along_iff (NeverTruncated tcp) neverTruncated_apply (by simp [NeverTruncated, System.start])
    es).symm

end Truncation

/-- The retry over TCP is answered with the truncated answer that the query over UDP brought
into the cache. -/
theorem truncated_over_tcp :
    letI := asciiTable
    letI := plainMiekg
    let response : Received := ⟨{ shortLived with truncated := true }, _, rfl⟩
    ¬ NeverTruncated (· = 1) (run SystemEvent.apply (System.start 0 openHandler)
      [.arrive (askFor 0 (questionIn classINET)), .lookup 0, .exchange 0 [some response],
        .arrive (askFor 1 (questionIn classINET)), .lookup 1]) := by
  unfold NeverTruncated
  decide +kernel

end DnsFilter
