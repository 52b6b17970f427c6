import DnsFilter.Cache.Cache
import DnsFilter.Lib.Run

/-!
# Reconnecting

`Listener` of `internal/store/notify.go` waits after every attempt to listen, twice as long as
the time before and at most a minute.  `listen` returns nothing but an error, so that the loop
of `Start` does not learn of a subscription; the delay is never reset.

* `run_backoff`: the delay depends on the number of all attempts;
* `delays_iff`: it depends on the consecutive failures exactly if no attempt after the first
  one subscribes.
-/

namespace DnsFilter

open EventRun

/-- An attempt to listen, up to the error that ends it. -/
inductive Attempt
  | acquireFailed (err : GoString)
  | listenFailed (err : GoString)
  /-- It subscribes, gets notifications, and is lost. -/
  | lost (payloads : List GoString) (err : GoString)

def Attempt.subscribes : Attempt → Bool
  | .lost .. => true
  | _ => false

/-- `listen`: the payloads that reach `onNotify`, and the error. -/
def Attempt.listen (channel : GoString) : Attempt → List GoString × GoString
  | .acquireFailed err => ([], "acquire connection: ".toList ++ err)
  | .listenFailed err => ([], "listen on ".toList ++ channel ++ ": ".toList ++ err)
  | .lost payloads err => (payloads, "wait notification: ".toList ++ err)

def maxBackoff : ℤ := 60 * second

/-- The loop of `Start`: the delay, what `onNotify` got, and the errors with the waits after
them. -/
structure Listener where
  channel : GoString
  backoff : ℤ
  notified : List GoString
  waits : List (GoString × ℤ)

namespace Listener

/-- `NewListener` and the beginning of `Start`. -/
def start (channel : GoString) : Listener := ⟨channel, 1 * second, [], []⟩

/-- One turn of the loop. -/
def attempt (l : Listener) (a : Attempt) : Listener :=
  let (payloads, err) := a.listen l.channel
  { l with
    notified := l.notified ++ payloads
    waits := l.waits ++ [(err, l.backoff)]
    backoff := if maxBackoff < l.backoff * 2 then maxBackoff else l.backoff * 2 }

end Listener

/-! ### The law -/

/-- The failures to subscribe since the last subscription, after one more attempt. -/
def failuresAfter (failures : ℕ) (a : Attempt) : ℕ := if a.subscribes then 0 else failures + 1

/-- The failures to subscribe since the last subscription; the first attempt, which has no
subscription before it, may count as a failure or not. -/
def consecutiveFailures (countFirst : Bool) : List Attempt → ℕ
  | [] => 0
  | a :: as => run failuresAfter (if a.subscribes ∨ countFirst = false then 0 else 1) as

/-- After every attempt, the wait depends on the consecutive failures. -/
def DelaysByFailures (countFirst : Bool) (channel : GoString) (as : List Attempt) : Prop :=
  ∀ past a, past ++ [a] <+: as →
    ((run Listener.attempt (.start channel) (past ++ [a])).waits.getLast?).map Prod.snd =
      some (min maxBackoff (2 ^ consecutiveFailures countFirst (past ++ [a]) * second))

/-! ### The loop -/

/-- The delay doubles with every attempt. -/
theorem run_backoff (channel : GoString) (as : List Attempt) :
    (run Listener.attempt (.start channel) as).backoff =
      min maxBackoff (2 ^ as.length * second) := by
  induction as using List.reverseRecOn with
  | nil => norm_num [Listener.start, maxBackoff, second]
  | append_singleton as a ih =>
    have hpow : 0 < (2 : ℤ) ^ as.length := by positivity
    rw [run_concat, List.length_append, List.length_singleton, pow_succ]
    simp only [Listener.attempt, ih, maxBackoff, second]
    split_ifs <;> omega

/-- The wait after an attempt. -/
theorem wait_eq (channel : GoString) (past : List Attempt) (a : Attempt) :
    ((run Listener.attempt (.start channel) (past ++ [a])).waits.getLast?).map Prod.snd =
      some (min maxBackoff (2 ^ past.length * second)) := by
  rw [run_concat, ← run_backoff channel past]
  simp [Listener.attempt]

/-- Failures add up. -/
theorem run_failuresAfter {as : List Attempt} (h : ∀ a ∈ as, a.subscribes = false) (n : ℕ) :
    run failuresAfter n as = n + as.length := by
  induction as generalizing n with
  | nil => rfl
  | cons a as ih =>
    have hfail : failuresAfter n a = n + 1 := by simp [failuresAfter, h a List.mem_cons_self]
    rw [run_cons, hfail, ih fun b hb => h b (List.mem_cons_of_mem _ hb), List.length_cons]
    omega

/-- Only the first wait is of one second. -/
theorem second_lt_delay {n : ℕ} (hn : n ≠ 0) : second < min maxBackoff (2 ^ n * second) := by
  have hpow : (2 : ℤ) ^ 1 ≤ 2 ^ n := pow_le_pow_right₀ (by norm_num) (Nat.one_le_iff_ne_zero.2 hn)
  simp only [maxBackoff, second]
  omega

theorem delay_zero : min maxBackoff (2 ^ 0 * second) = second := by
  norm_num [maxBackoff, second]

/-! ### Exactness -/

variable {countFirst : Bool} {channel : GoString} {a : Attempt} {as : List Attempt}

theorem DelaysByFailures.of_prefix (h : DelaysByFailures countFirst channel as)
    (past : List Attempt) (hpre : past ++ [a] <+: as) :
    min maxBackoff (2 ^ past.length * second) =
      min maxBackoff (2 ^ consecutiveFailures countFirst (past ++ [a]) * second) :=
  Option.some.inj ((wait_eq channel past a).symm.trans (h past a hpre))

/-- The first attempt subscribes, unless its failure does not count. -/
theorem DelaysByFailures.first (h : DelaysByFailures true channel (a :: as)) :
    a.subscribes = true := by
  by_contra hfail
  have hdelay := h.of_prefix [] ⟨as, rfl⟩
  rw [List.length_nil, delay_zero] at hdelay
  have hcount : consecutiveFailures true ([] ++ [a]) ≠ 0 := by
    simp [consecutiveFailures, hfail]
  exact (second_lt_delay hcount).ne hdelay

/-- No later attempt subscribes: it would have to be followed by a wait of one second. -/
theorem DelaysByFailures.later (h : DelaysByFailures countFirst channel (a :: as)) {b : Attempt}
    (hb : b ∈ as) : b.subscribes = false := by
  by_contra hsub
  rw [Bool.not_eq_false] at hsub
  obtain ⟨before, after, rfl⟩ := List.append_of_mem hb
  have hdelay := h.of_prefix (a := b) (a :: before) ⟨after, by simp⟩
  have hcount : consecutiveFailures countFirst (a :: before ++ [b]) = 0 := by
    rw [List.cons_append, consecutiveFailures, run_concat, failuresAfter, if_pos hsub]
  rw [hcount, delay_zero] at hdelay
  exact (second_lt_delay (by simp)).ne' hdelay

/-- As long as no attempt after the first one subscribes, every attempt but the first is one more
failure. -/
theorem consecutiveFailures_eq (hfirst : countFirst = true → a.subscribes = true)
    (hlater : ∀ b ∈ as, b.subscribes = false) :
    consecutiveFailures countFirst (a :: as) = as.length := by
  have hzero : a.subscribes ∨ countFirst = false := by
    cases countFirst with
    | false => exact .inr rfl
    | true => exact .inl (hfirst rfl)
  rw [consecutiveFailures, if_pos hzero, run_failuresAfter hlater, zero_add]

/-- **The delay depends on the consecutive failures exactly if no attempt after the first one
subscribes and, if its failure counts, the first one does.** -/
theorem delays_iff (countFirst : Bool) (channel : GoString) (as : List Attempt) :
    DelaysByFailures countFirst channel as ↔
      (countFirst = true → ∀ a ∈ as.head?, a.subscribes = true) ∧
        ∀ a ∈ as.tail, a.subscribes = false := by
  cases as with
  | nil => exact iff_of_true (fun past a hpre => by simp at hpre) (by simp)
  | cons a as =>
    simp only [List.head?_cons, Option.mem_some_iff, forall_eq', List.tail_cons]
    constructor
    · refine fun h => ⟨?_, fun b hb => h.later hb⟩
      rintro rfl
      exact h.first
    · rintro ⟨hfirst, hlater⟩ past b hpre
      rw [wait_eq]
      cases past with
      | nil =>
        obtain ⟨rfl, -⟩ : b = a ∧ [] <+: as := by simpa using hpre
        rw [List.nil_append, consecutiveFailures_eq hfirst (by simp)]
      | cons a' past =>
        obtain ⟨rfl, hrest⟩ : a' = a ∧ past ++ [b] <+: as := by simpa using hpre
        rw [List.cons_append, consecutiveFailures_eq hfirst fun c hc => hlater c (hrest.subset hc)]
        simp

/-! ### Two outages -/

/-- After the second outage of a subscription the listener waits for two seconds. -/
theorem healthy_listener_waits :
    ((run Listener.attempt (.start "config_changed".toList)
        [.lost [] "EOF".toList, .lost [] "EOF".toList]).waits.map Prod.snd = [second, 2 * second]) ∧
      ¬ DelaysByFailures true "config_changed".toList
          [.lost [] "EOF".toList, .lost [] "EOF".toList] ∧
      ¬ DelaysByFailures false "config_changed".toList
          [.lost [] "EOF".toList, .lost [] "EOF".toList] := by
  refine ⟨by decide, fun h => ?_, fun h => ?_⟩
  · exact absurd (h.later List.mem_cons_self) (by decide)
  · exact absurd (h.later List.mem_cons_self) (by decide)

end DnsFilter
