import DnsFilter.Dns.System

/-!
# Delivery of upstream answers

An answer written to a client, fresh or cached, is the message of an exchange passed through
`SetReply`, which keeps its records and the rest of its header but resets its `Rcode`.

`answers_unaltered_iff`: the answers of a run are unaltered exactly when every upstream
response in it had the `Rcode` of success.
-/

namespace DnsFilter

open EventRun

/-- The reply carries the `Rcode`, the records and the header of `msg`, and echoes the
request. -/
structure Reply.Unaltered (w : Reply) (msg : Msg) : Prop where
  rcode : w.msg.rcode = msg.rcode
  records : w.msg.SameRecords msg
  header : w.msg.SameHeader msg
  echoes : w.msg.Echoes w.incoming.request

section Delivery

variable [Unicode] [Miekg]

/-- Every answer is the unaltered response of an exchange. -/
def AnswersUnaltered (s : System) : Prop :=
  ∀ w ∈ s.replies, w.isAnswer →
    ∃ x ∈ s.exchanges, w.origin = some x.response.msg ∧ w.Unaltered x.response.msg

/-- Every exchange was answered. -/
def Delivered (s : System) : Prop :=
  ∀ x ∈ s.exchanges, ∃ w ∈ s.replies, w.isAnswer ∧ w.origin = some x.response.msg

omit [Unicode] in
theorem Delivered.write {s : System} (h : Delivered s) (out : Output) :
    Delivered (s.write out) := by
  intro x hx
  obtain ⟨w, hw, rest⟩ := h x hx
  exact ⟨w, List.mem_append_left _ hw, rest⟩

theorem Delivered.apply {s : System} (h : Delivered s) (e : SystemEvent) :
    Delivered (e.apply s) := by
  cases e with
  | tick | filter | identity | loadRanges | evict | invalidate => exact h
  | arrive inc =>
    simp only [SystemEvent.apply]
    split_ifs
    · exact h
    · split
      · exact h.write _
      · exact h
  | lookup call =>
    simp only [SystemEvent.apply]
    split
    · split
      · exact Delivered.write h _
      · exact h
    · exact h
  | exchange call answers =>
    simp only [SystemEvent.apply]
    split
    · rename_i q hrun
      cases resolveUpstream answers with
      | none =>
        intro x hx
        obtain ⟨w, hw, rest⟩ := h x (by simpa [System.write] using hx)
        exact ⟨w, List.mem_append_left _ hw, rest⟩
      | some m =>
        intro x hx
        rcases List.mem_append.1 hx with hx | hx
        · obtain ⟨w, hw, rest⟩ := h x hx
          exact ⟨w, List.mem_append_left _ hw, rest⟩
        · obtain rfl := List.mem_singleton.1 hx
          exact ⟨_, List.mem_append_right _ (List.mem_singleton_self _), .inr rfl, rfl⟩
    · exact h

theorem delivered_run (t : ℤ) (h : Handler) (es : List SystemEvent) :
    Delivered (run SystemEvent.apply (System.start t h) es) :=
  run_invariant Delivered (fun _ e hs => hs.apply e) (by simp [Delivered, System.start]) es

omit [Unicode] in
/-- `SetReply` alters a response exactly when it was not a success. -/
theorem Reply.unaltered_iff {w : Reply} {msg : Msg}
    (hw : w.msg = Miekg.setReply msg w.incoming.request) :
    w.Unaltered msg ↔ msg.rcode = rcodeSuccess := by
  have hrcode : w.msg.rcode = rcodeSuccess := by rw [hw, Miekg.setReply_rcode]
  constructor
  · intro h
    rw [← h.rcode, hrcode]
  · intro h
    refine ⟨hrcode.trans h.symm, ?_, ?_, ?_⟩
    · rw [hw]
      exact Miekg.setReply_records ..
    · rw [hw]
      exact Miekg.setReply_header ..
    · rw [hw]
      exact Miekg.setReply_echoes ..

/-- **The answers of a run, fresh or cached, reach the clients unaltered exactly when every
upstream response in it has the `Rcode` of success.** -/
theorem answers_unaltered_iff (t : ℤ) (h : Handler) (es : List SystemEvent) :
    AnswersUnaltered (run SystemEvent.apply (System.start t h) es) ↔
      ∀ x ∈ (run SystemEvent.apply (System.start t h) es).exchanges,
        x.response.msg.rcode = rcodeSuccess := by
  have hprov := provenance_run t h es
  constructor
  · intro hall x hx
    obtain ⟨w, hw, hans, horigin⟩ := delivered_run t h es x hx
    obtain ⟨y, -, hy, hun⟩ := hall w hw hans
    rw [horigin] at hy
    obtain hmsg := Option.some.inj hy
    rw [hmsg]
    exact (Reply.unaltered_iff (hmsg ▸ (hprov.origins w hw _ horigin).1)).1 hun
  · intro hall w hw hans
    obtain ⟨q, msg, -, -, horigin⟩ := hprov.answers w hw hans
    obtain ⟨hmsg, x, hx, -, rfl⟩ := hprov.origins w hw msg horigin
    exact ⟨x, hx, horigin, (Reply.unaltered_iff hmsg).2 (hall x hx)⟩

end Delivery

/-! ### A lost NXDOMAIN -/

/-- A query for a name that does not exist. -/
def typoQuery : Incoming where
  call := 0
  clientIP := .v4 0x0a000001#32
  request := { id := 7, recursionDesired := true,
               question := [⟨"typo.com.".toList, typeA, classINET, ascii_of_all rfl⟩] }
  question := ⟨"typo.com.".toList, typeA, classINET, ascii_of_all rfl⟩
  first := rfl

/-- The upstream answers `NXDOMAIN`, the client is told that the name exists. -/
theorem nxdomain_lost :
    letI := asciiTable
    letI := plainMiekg
    ¬ AnswersUnaltered (run SystemEvent.apply (System.start 0 openHandler)
      [.arrive typoQuery, .lookup 0,
        .exchange 0 [some ⟨{ response := true, rcode := rcodeNameError },
          { response := true, rcode := rcodeNameError }, rfl⟩]]) := by
  intro h
  obtain ⟨x, hx, -, hun⟩ := h _ (List.mem_singleton_self _) (.inr rfl)
  obtain rfl := List.mem_singleton.1 hx
  have hrcode := hun.rcode
  revert hrcode
  decide

end DnsFilter
