import DnsFilter.Lib.Gather

/-!
# The listeners

`Server.Start` of `internal/dns/server.go`: two goroutines that serve UDP and TCP, a `WaitGroup`
and a channel with room for two errors; and the exit status that `main` takes from it.

* `StartEvent.apply`: `Start` and its goroutines, interleaved in any way;
* `start_run`: what holds whenever `Start` has returned, and when it does return.
-/

namespace DnsFilter

open EventRun Gather

/-- The listeners, in the order in which they are started. -/
inductive Net
  | udp
  | tcp
  deriving DecidableEq

def Net.worker : Net → ℕ
  | .udp => 0
  | .tcp => 1

/-- `fmt.Errorf("udp: %w", err)`, `fmt.Errorf("tcp: %w", err)`. -/
def Net.wrap (err : String) : Net → String
  | .udp => "udp: " ++ err
  | .tcp => "tcp: " ++ err

inductive StartEvent
  /-- `wg.Add(1)` and the `go` statement after it. -/
  | start
  /-- `ListenAndServe` returns. -/
  | serveReturns (net : Net) (err : Option String)
  | send (net : Net)
  | done (net : Net)
  | waitReturns
  | select

def StartEvent.event : StartEvent → Event String
  | .start => .start
  | .serveReturns net err => .finish net.worker (err.map fun err => net.wrap err)
  | .send net => .send net.worker
  | .done net => .done net.worker
  | .waitReturns => .wait
  | .select => .receive

def StartEvent.apply (s : State String) (e : StartEvent) : State String :=
  Gather.step 2 2 s e.event

/-- A listener goes on serving until its `ListenAndServe` returns. -/
def StartEvent.isReturn : StartEvent → Prop
  | .serveReturns _ _ => True
  | _ => False

/-- The exit status of `main`, once `Start` has returned. -/
def exitStatus (err : Option String) : ℕ := if err.isSome then 1 else 0

theorem run_start (s : State String) (es : List StartEvent) :
    run StartEvent.apply s es = run (Gather.step 2 2) s (es.map StartEvent.event) := by
  rw [run, run, List.foldl_map]
  rfl

theorem worker_lt (net : Net) : net.worker < 2 := by cases net <;> decide

theorem worker_inj {net net' : Net} (h : net.worker = net'.worker) : net = net' := by
  cases net <;> cases net' <;> first | rfl | cases h

/-- Every index below 2 is that of a listener. -/
theorem exists_net {i : ℕ} (hi : i < 2) : ∃ net : Net, net.worker = i := by
  interval_cases i
  · exact ⟨.udp, rfl⟩
  · exact ⟨.tcp, rfl⟩

/-- The error of a goroutine is that of its listener. -/
def Labelled (s : State String) : Prop :=
  ∀ (net : Net) (w : Worker String) (err : String), s.workers[net.worker]? = some w →
    w.Failed err → ∃ cause, err = net.wrap cause

theorem Labelled.apply {s : State String} (h : Labelled s) (e : StartEvent) :
    Labelled (e.apply s) := by
  intro net w err hw hfailed
  rcases failed_step 2 2 s e.event hw hfailed with ⟨w₀, hw₀, hfailed₀⟩ | hfinish
  · exact h net w₀ err hw₀ hfailed₀
  · cases e with
    | serveReturns net' err' =>
      obtain ⟨hnet, herr⟩ := Event.finish.inj hfinish
      obtain rfl := worker_inj hnet
      obtain ⟨cause, -, rfl⟩ := Option.map_eq_some_iff.1 herr
      exact ⟨cause, rfl⟩
    | _ => cases hfinish

theorem labelled_run (es : List StartEvent) : Labelled (run StartEvent.apply init es) :=
  run_invariant Labelled (fun _ e h => h.apply e) (fun net w err hw => by simp [init] at hw) es

/-- What one of the goroutines can do, `Start` lets one of its events do. -/
theorem stuck_iff {s : State String} (hlength : s.workers.length ≤ 2) :
    (∀ e : StartEvent, ¬ e.isReturn → e.apply s = s) ↔
      ∀ e : Event String, ¬ e.isFinish → Gather.step 2 2 s e = s := by
  constructor
  · intro h e he
    have hout : ∀ i, ¬ i < 2 → s.workers[i]? = none := fun i hi =>
      List.getElem?_eq_none (hlength.trans (not_lt.1 hi))
    cases e with
    | start => exact h .start id
    | finish i err => exact absurd trivial he
    | send i =>
      by_cases hi : i < 2
      · obtain ⟨net, rfl⟩ := exists_net hi
        exact h (.send net) id
      · simp only [Gather.step, hout i hi]
    | done i =>
      by_cases hi : i < 2
      · obtain ⟨net, rfl⟩ := exists_net hi
        exact h (.done net) id
      · simp only [Gather.step, hout i hi]
    | wait => exact h .waitReturns id
    | receive => exact h .select id
  · intro h e he
    cases e with
    | serveReturns net err => exact absurd trivial he
    | _ => exact h _ id

theorem along_event {s : State String} {es : List StartEvent}
    (h : Along StartEvent.apply (fun s e => e.apply s ≠ s) s es) :
    Along (Gather.step 2 2) (fun s e => Gather.step 2 2 s e ≠ s) s (es.map StartEvent.event) := by
  induction es generalizing s with
  | nil => trivial
  | cons e es ih => exact ⟨h.1, ih h.2⟩

/-- A property of both goroutines. -/
theorem forall_workers {s : State String} (hlength : s.workers.length = 2)
    {P : Worker String → Prop} :
    (∀ w ∈ s.workers, P w) ↔ ∀ net : Net, ∃ w, s.workers[net.worker]? = some w ∧ P w := by
  constructor
  · intro h net
    have hlt : net.worker < s.workers.length := hlength ▸ worker_lt net
    exact ⟨s.workers[net.worker], List.getElem?_eq_getElem hlt, h _ (List.getElem_mem hlt)⟩
  · intro h w hw
    obtain ⟨i, hi⟩ := List.mem_iff_getElem?.1 hw
    obtain ⟨hlt, -⟩ := List.getElem?_eq_some_iff.1 hi
    obtain ⟨net, rfl⟩ := exists_net (hlength ▸ hlt)
    obtain ⟨w', hw', hP⟩ := h net
    rwa [Option.some.inj (hi.symm.trans hw')]

/-- **Neither goroutine is ever blocked on the channel.  When `Start` has returned, both
listeners have ended; it has returned the error that was sent first, with the name of its
listener, and `main` exits with status 0 exactly if neither has failed.  When nothing is left to
do but for listeners to end, which is so after ten steps at most, `Start` has returned exactly if
none is serving.** -/
theorem start_run (es : List StartEvent) :
    let s := run StartEvent.apply init es
    (∀ (net : Net) (err : String), s.workers[net.worker]? = some (.sending err) →
      s.channel.length < 2) ∧
    (∀ err, s.main = .returned err →
      (∀ net : Net, ∃ e, s.workers[net.worker]? = some (.done e)) ∧ err = s.sent.head? ∧
      (exitStatus err = 0 ↔ ∀ net : Net, s.workers[net.worker]? = some (.done none)) ∧
      ∀ text, err = some text → ∃ (net : Net) (cause : String), text = net.wrap cause ∧
        s.workers[net.worker]? = some (.done (some text))) ∧
    ((∀ e : StartEvent, ¬ e.isReturn → e.apply s = s) →
      ((∃ err, s.main = .returned err) ↔ .running ∉ s.workers)) ∧
    (Along StartEvent.apply (fun s e => e.apply s ≠ s) init es → es.length ≤ 10) := by
  intro s
  have hs : s = run (Gather.step 2 2) init (es.map StartEvent.event) := run_start init es
  have hconsistent : Consistent 2 s := hs ▸ consistent_run 2 2 _
  obtain ⟨hroom, -, hreturns⟩ := gather_run (n := 2) le_rfl (es.map StartEvent.event)
  rw [← hs] at hroom hreturns
  refine ⟨fun net err hw => hroom _ err hw, fun err hmain => ?_, fun hstuck => ?_,
    fun halong => ?_⟩
  · have hreturned := hreturns err hmain
    refine ⟨fun net => ?_, hreturned.first, ?_, fun text htext => ?_⟩
    · obtain ⟨w, hw, e, rfl⟩ := (forall_workers hreturned.length).1 hreturned.done net
      exact ⟨e, hw⟩
    · have hstatus : exitStatus err = 0 ↔ err = none := by cases err <;> simp [exitStatus]
      rw [hstatus, hreturned.none_iff, forall_workers hreturned.length]
      simp
    · obtain ⟨i, hi⟩ := List.mem_iff_getElem?.1 (hreturned.mem text htext)
      obtain ⟨hlt, -⟩ := List.getElem?_eq_some_iff.1 hi
      obtain ⟨net, rfl⟩ := exists_net (hreturned.length ▸ hlt)
      obtain ⟨cause, hcause⟩ := labelled_run es net _ text hi (.inr (.inr rfl))
      exact ⟨net, cause, hcause, hi⟩
  · exact hconsistent.returned_iff le_rfl ((stuck_iff hconsistent.length_le).1 hstuck)
  · have hbound := length_le_remaining 2 2 (along_event halong)
    rw [List.length_map] at hbound
    have hinit : remaining 2 (init : State String) = 10 := rfl
    omega

/-- The port is taken for UDP; TCP is served until the process is told to stop. -/
def portTaken : List StartEvent :=
  [.start, .start, .serveReturns .udp (some "bind: address already in use"), .send .udp,
    .done .udp, .serveReturns .tcp none, .done .tcp, .waitReturns, .select]

theorem start_run_portTaken :
    let s := run StartEvent.apply init portTaken
    s.main = .returned (some "udp: bind: address already in use") ∧
      ∃ (net : Net) (cause : String), "udp: bind: address already in use" = net.wrap cause ∧
        s.workers[net.worker]? = some (.done (some "udp: bind: address already in use")) :=
  ⟨rfl, ((start_run portTaken).2.1 _ rfl).2.2.2 _ rfl⟩

end DnsFilter
