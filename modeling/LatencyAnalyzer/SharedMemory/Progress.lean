import LatencyAnalyzer.Lib.Fairness
import LatencyAnalyzer.SharedMemory.RoundTrips

/-!
# Progress — a fair run without time-outs measures every round

As long as no wait times out and the child lives, the two processes cannot block each other: under
every schedule that lets both of them step and lets both store buffers drain again and again, the
test comes to its end with one sample of every measured round.
-/

namespace LatencyAnalyzer
namespace SharedMemory
namespace PingPong

open Lib

/-- No wait times out and nobody dies. -/
def Action.Undisturbed : Action → Prop
  | .step _ | .drain _ => True
  | .timeOut _ | .die => False

def Rounds.total (r : Rounds) : Nat :=
  r.warmup + r.iterations

/-! ## The invariant of undisturbed runs -/

structure Live (r : Rounds) (s : State) : Prop where
  phase : s.InPhase
  books : Books r s
  requests : s.requests ≤ r.total
  /-- The consumer announces itself with its first step. -/
  ready : s.tso.Signal .consumer .consumerReady 0 1 (decide (s.consumer ≠ .start))
  stop : s.tso.Signal .producer .stop 0 1 (decide (s.producer = .done))
  /-- Only the stop flag ends the loop of the consumer. -/
  exited : s.consumer = .exited → s.producer = .done
  /-- The producer leaves its rounds only after the last one. -/
  finished : s.producer = .stop ∨ s.producer = .done →
    s.samples.length = r.iterations ∧ s.requests = r.total ∧ s.responses = r.total

theorem live_init (r : Rounds) : Live r State.init where
  phase := inPhase_init
  books := books_init r
  requests := Nat.zero_le _
  ready := .unset rfl fun _ => rfl
  stop := .unset rfl fun _ => rfl
  exited := fun h => nomatch h
  finished := fun h => nomatch h

namespace Live

variable {r : Rounds} {s : State}

/-- The stop flag is still clear for everybody while the producer is not done. -/
theorem load_stop (h : Live r s) (hp : s.producer ≠ .done) (p : Party) : s.load p .stop = 0 := by
  have hsignal := h.stop
  rw [decide_eq_false hp] at hsignal
  exact hsignal.load_unset p

theorem done_of_load_stop (h : Live r s) {p : Party} (hload : s.load p .stop ≠ 0) :
    s.producer = .done :=
  of_decide_eq_true (h.stop.isSet_of_load hload)

end Live

/-! ## What a step can do -/

/-- The next step of the producer is not a turn of a wait that sees nothing new. -/
def State.producerReady (s : State) : Bool :=
  match s.producer with
  | .waitReady => decide (s.load .producer .consumerReady = 1)
  | .pollResponse _ | .pollStop _ => decide (s.load .producer .response = 1)
  | .done => false
  | _ => true

def State.consumerReady (s : State) : Bool :=
  match s.consumer with
  | .pollRequest | .pollStop =>
      decide (s.load .consumer .request = 1) || decide (s.load .consumer .stop ≠ 0)
  | .exited => false
  | _ => true

/-- Steps left to the producer, twenty to a round. -/
def producerRank (r : Rounds) (s : State) : Nat :=
  match s.producer with
  | .waitReady => 20 * r.total + 20
  | .readStart k => 20 * (r.total - k) + 16
  | .request k => 20 * (r.total - k) + 15
  | .pollResponse k => 20 * (r.total - k) + 10
  -- A response that has become visible is seen in the next turn of the wait.
  | .pollStop k => 20 * (r.total - k) + if s.load .producer .response = 1 then 11 else 10
  | .readEnd k => 20 * (r.total - k) + 9
  | .reset k => 20 * (r.total - k) + 8
  | .stop => 4
  | .done => 0

def consumerRank (r : Rounds) (s : State) : Nat :=
  match s.consumer with
  | .start => 20 * r.total + 16
  | .checkStop => 20 * (r.total - s.responses) + 12
  | .pollRequest => 20 * (r.total - s.responses) + if s.load .consumer .stop ≠ 0 then 11 else 10
  | .pollStop => 20 * (r.total - s.responses) + if s.load .consumer .request = 1 then 11 else 10
  | .clear => 20 * (r.total - s.responses) + 9
  | .respond => 20 * (r.total - s.responses) + 5
  | .exited => 0

/-- A buffered store counts for three steps: it is drained, and may wake the other party. -/
def rank (r : Rounds) (s : State) : Nat :=
  producerRank r s + consumerRank r s +
    3 * ((s.tso.buffer .producer).length + (s.tso.buffer .consumer).length)

/-- What brings the test on: first what is buffered, then whoever has something to do. -/
def helpful (s : State) : Action :=
  if s.tso.buffer .producer ≠ [] then .drain .producer
  else if s.tso.buffer .consumer ≠ [] then .drain .consumer
  else if s.producerReady then .step .producer
  else .step .consumer

/-! ## The invariant is kept -/

/-- A producer that has not begun has issued nothing, and nothing has been answered. -/
theorem Phase.counts_of_waitReady {mr ms : UInt32} {pb cb : List (Flag × UInt32)} {c : ConsumerPc}
    {a n : Nat} (h : Phase mr ms pb cb .waitReady c a n) : a = 0 ∧ n = 0 := by
  cases h with
  | idle hp _ => exact ⟨hp, hp⟩
  | idleReset hp _ => exact ⟨hp, hp⟩
  | delivered hp _ => exact (hp.elim id id).elim
  | _ => exact ‹ProducerPc.Waiting _ ProducerPc.waitReady›.elim

theorem enterRound_cases (r : Rounds) (k : Nat) :
    (k ≤ r.total ∧ (enterRound r k = .request k ∨ enterRound r k = .readStart k)) ∨
      (r.total < k ∧ enterRound r k = .stop) := by
  unfold enterRound Rounds.total
  by_cases hwarm : k ≤ r.warmup
  · rw [if_pos hwarm]
    exact Or.inl ⟨by omega, Or.inl rfl⟩
  by_cases hmeasured : k ≤ r.warmup + r.iterations
  · rw [if_neg hwarm, if_pos hmeasured]
    exact Or.inl ⟨hmeasured, Or.inr rfl⟩
  · rw [if_neg hwarm, if_neg hmeasured]
    exact Or.inr ⟨by omega, rfl⟩

theorem enterRound_ne_done (r : Rounds) (k : Nat) : enterRound r k ≠ .done := by
  rcases enterRound_cases r k with ⟨_, heq | heq⟩ | ⟨_, heq⟩
  all_goals
    rw [heq]
    exact nofun

theorem total_lt_of_enterRound_eq_stop {r : Rounds} {k : Nat} (h : enterRound r k = .stop) :
    r.total < k := by
  rcases enterRound_cases r k with ⟨_, heq | heq⟩ | ⟨hlt, _⟩
  · rw [heq] at h
    cases h
  · rw [heq] at h
    cases h
  · exact hlt

theorem requests_stepProducer {r : Rounds} {s : State} (h : Live r s) :
    (stepProducer r s).requests ≤ r.total := by
  unfold stepProducer
  split
  · split <;> exact h.requests
  · exact h.requests
  · rename_i k hpc
    have hk := ((h.phase.producerAt hpc).issue).2.1
    have ha := ((h.phase.producerAt hpc).issue).1
    have hbound := (h.books.length k (by rw [hpc]; rfl)).2
    show s.requests + 1 ≤ r.total
    unfold Rounds.total
    omega
  · split <;> exact h.requests
  · split <;> exact h.requests
  all_goals exact h.requests

/-- In its rounds the producer stores to the handshake flags only. -/
theorem stepProducer_moves (r : Rounds) {s : State} (hstop : s.producer ≠ .stop)
    (hdone : s.producer ≠ .done) :
    (stepProducer r s).producer ≠ .done ∧
      ((stepProducer r s).tso = s.tso ∨
        ∃ f v, handshake f = true ∧ (stepProducer r s).tso = s.tso.store .producer f v) := by
  unfold stepProducer
  split
  · split
    · exact ⟨enterRound_ne_done r 1, Or.inl rfl⟩
    · exact ⟨hdone, Or.inl rfl⟩
  · exact ⟨nofun, Or.inl rfl⟩
  · exact ⟨nofun, Or.inr ⟨.request, 1, rfl, rfl⟩⟩
  · split
    · refine ⟨?_, Or.inl rfl⟩
      dsimp only
      split <;> exact nofun
    · exact ⟨nofun, Or.inl rfl⟩
  · split
    · exact ⟨nofun, Or.inl rfl⟩
    · exact ⟨nofun, Or.inl rfl⟩
  · exact ⟨nofun, Or.inl rfl⟩
  · exact ⟨enterRound_ne_done r _, Or.inr ⟨.response, 0, rfl, rfl⟩⟩
  · exact absurd ‹s.producer = .stop› hstop
  · exact absurd ‹s.producer = .done› hdone

theorem stepProducer_stop (r : Rounds) {s : State} (h : s.producer = .stop) :
    stepProducer r s = { s.store .producer .stop 1 with producer := .done } := by
  unfold stepProducer
  rw [h]

theorem stepProducer_done (r : Rounds) {s : State} (h : s.producer = .done) :
    stepProducer r s = s := by
  unfold stepProducer
  rw [h]

@[simp] theorem consumer_stepProducer (r : Rounds) (s : State) :
    (stepProducer r s).consumer = s.consumer := by
  unfold stepProducer
  split <;> first | rfl | (split <;> rfl)

theorem ne_of_handshake {f g : Flag} (hf : handshake f = true) (hg : handshake g = false) :
    f ≠ g := by
  rintro rfl
  rw [hf] at hg
  cases hg

theorem ready_stepProducer {r : Rounds} {s : State} (h : Live r s) :
    (stepProducer r s).tso.Signal .consumer .consumerReady 0 1
      (decide ((stepProducer r s).consumer ≠ .start)) := by
  rw [consumer_stepProducer]
  by_cases hstop : s.producer = .stop
  · rw [stepProducer_stop r hstop]
    exact h.ready.store_other _ (by decide) _
  by_cases hdone : s.producer = .done
  · rw [stepProducer_done r hdone]
    exact h.ready
  · rcases (stepProducer_moves r hstop hdone).2 with htso | ⟨f, v, hf, htso⟩
    · rw [htso]
      exact h.ready
    · rw [htso]
      exact h.ready.store_other _ (ne_of_handshake hf rfl) _

theorem stop_stepProducer {r : Rounds} {s : State} (h : Live r s) :
    (stepProducer r s).tso.Signal .producer .stop 0 1
      (decide ((stepProducer r s).producer = .done)) := by
  have hsignal := h.stop
  by_cases hstop : s.producer = .stop
  · rw [stepProducer_stop r hstop]
    rw [hstop] at hsignal
    exact hsignal.issue
  by_cases hdone : s.producer = .done
  · rw [stepProducer_done r hdone]
    exact hsignal
  · rcases stepProducer_moves r hstop hdone with ⟨hne, hmoves⟩
    rw [decide_eq_false hdone] at hsignal
    rw [decide_eq_false hne]
    rcases hmoves with htso | ⟨f, v, hf, htso⟩
    · rw [htso]
      exact hsignal
    · rw [htso]
      exact hsignal.store_other _ (ne_of_handshake hf rfl) _

/-- The stop flag is not reached before the last response has been taken back. -/
theorem finished_stepProducer {r : Rounds} {s : State} (h : Live r s)
    (hend : (stepProducer r s).producer = .stop ∨ (stepProducer r s).producer = .done) :
    (stepProducer r s).samples.length = r.iterations ∧
      (stepProducer r s).requests = r.total ∧ (stepProducer r s).responses = r.total := by
  by_cases hstop : s.producer = .stop
  · rw [stepProducer_stop r hstop]
    exact h.finished (Or.inl hstop)
  by_cases hdone : s.producer = .done
  · rw [stepProducer_done r hdone]
    exact h.finished (Or.inr hdone)
  have hnow : (stepProducer r s).producer = .stop :=
    hend.resolve_right (stepProducer_moves r hstop hdone).1
  clear hend
  unfold stepProducer at hnow ⊢
  split at hnow
  · -- No round at all.
    rename_i hpc
    split at hnow
    · rename_i hready
      have hlt := total_lt_of_enterRound_eq_stop hnow
      have hcounts := (h.phase.producerAt hpc).counts_of_waitReady
      rw [if_pos hready]
      unfold Rounds.total at *
      refine ⟨?_, ?_, ?_⟩
      · show s.samples.length = _
        rw [h.books.unstarted hpc]
        show 0 = _
        omega
      · show s.requests = _
        omega
      · show s.responses = _
        omega
    · exact absurd hnow hstop
  · cases hnow
  · cases hnow
  · split at hnow
    · dsimp only at hnow
      split at hnow <;> cases hnow
    · cases hnow
  · rename_i k hpc
    rw [h.load_stop hdone, if_neg (by decide)] at hnow
    cases hnow
  · cases hnow
  · rename_i k hpc
    have hlt := total_lt_of_enterRound_eq_stop hnow
    rcases h.books.length k (by rw [hpc]; rfl) with ⟨hlength, hbound⟩
    rcases h.phase.counts_of_seen (Or.inr hpc) with ⟨heq, hk⟩
    unfold Rounds.total at *
    refine ⟨?_, ?_, ?_⟩
    · dsimp only
      split
      · omega
      · rw [List.length_append, List.length_singleton]
        omega
    · show s.requests = _
      omega
    · show s.responses = _
      omega
  · exact absurd ‹s.producer = .stop› hstop
  · exact absurd ‹s.producer = .done› hdone

theorem live_stepProducer {r : Rounds} {s : State} (h : Live r s) : Live r (stepProducer r s) where
  phase := inPhase_stepProducer r h.phase
  books := books_stepProducer h.phase h.books
  requests := requests_stepProducer h
  ready := ready_stepProducer h
  stop := stop_stepProducer h
  exited := by
    intro hexited
    rw [consumer_stepProducer] at hexited
    have hdone := h.exited hexited
    rw [stepProducer_done r hdone]
    exact hdone
  finished := finished_stepProducer h

@[simp] theorem producer_stepConsumer (s : State) : (stepConsumer s).producer = s.producer := by
  unfold stepConsumer
  split <;> first | rfl | (split <;> rfl)

@[simp] theorem samples_stepConsumer (s : State) : (stepConsumer s).samples = s.samples := by
  unfold stepConsumer
  split <;> first | rfl | (split <;> rfl)

@[simp] theorem requests_stepConsumer (s : State) : (stepConsumer s).requests = s.requests := by
  unfold stepConsumer
  split <;> first | rfl | (split <;> rfl)

/-- After its announcement the consumer stores to the handshake flags only. -/
theorem stepConsumer_moves {s : State} (hstart : s.consumer ≠ .start) :
    (stepConsumer s).consumer ≠ .start ∧
      ((stepConsumer s).tso = s.tso ∨
        ∃ f v, handshake f = true ∧ (stepConsumer s).tso = s.tso.store .consumer f v) := by
  unfold stepConsumer
  split
  · exact absurd ‹s.consumer = .start› hstart
  · split
    · exact ⟨nofun, Or.inl rfl⟩
    · exact ⟨nofun, Or.inl rfl⟩
  · split
    · exact ⟨nofun, Or.inl rfl⟩
    · exact ⟨nofun, Or.inl rfl⟩
  · split
    · exact ⟨nofun, Or.inl rfl⟩
    · exact ⟨nofun, Or.inl rfl⟩
  · exact ⟨nofun, Or.inr ⟨.request, 0, rfl, rfl⟩⟩
  · exact ⟨nofun, Or.inr ⟨.response, 1, rfl, rfl⟩⟩
  · exact ⟨hstart, Or.inl rfl⟩

theorem stepConsumer_start {s : State} (h : s.consumer = .start) :
    stepConsumer s = { s.store .consumer .consumerReady 1 with consumer := .checkStop } := by
  unfold stepConsumer
  rw [h]

theorem ready_stepConsumer {r : Rounds} {s : State} (h : Live r s) :
    (stepConsumer s).tso.Signal .consumer .consumerReady 0 1
      (decide ((stepConsumer s).consumer ≠ .start)) := by
  have hsignal := h.ready
  by_cases hstart : s.consumer = .start
  · rw [stepConsumer_start hstart]
    rw [hstart] at hsignal
    exact hsignal.issue
  · rcases stepConsumer_moves hstart with ⟨hne, hmoves⟩
    rw [decide_eq_true hstart] at hsignal
    rw [decide_eq_true hne]
    rcases hmoves with htso | ⟨f, v, hf, htso⟩
    · rw [htso]
      exact hsignal
    · rw [htso]
      exact hsignal.store_other _ (ne_of_handshake hf rfl) _

theorem stop_stepConsumer {r : Rounds} {s : State} (h : Live r s) :
    (stepConsumer s).tso.Signal .producer .stop 0 1
      (decide ((stepConsumer s).producer = .done)) := by
  rw [producer_stepConsumer]
  by_cases hstart : s.consumer = .start
  · rw [stepConsumer_start hstart]
    exact h.stop.store_other _ (by decide) _
  · rcases (stepConsumer_moves hstart).2 with htso | ⟨f, v, hf, htso⟩
    · rw [htso]
      exact h.stop
    · rw [htso]
      exact h.stop.store_other _ (ne_of_handshake hf rfl) _

theorem exited_stepConsumer {r : Rounds} {s : State} (h : Live r s)
    (hexited : (stepConsumer s).consumer = .exited) : s.producer = .done := by
  unfold stepConsumer at hexited
  split at hexited
  · cases hexited
  · split at hexited
    · exact h.done_of_load_stop ‹_›
    · cases hexited
  · split at hexited <;> cases hexited
  · split at hexited
    · exact h.done_of_load_stop ‹_›
    · cases hexited
  · cases hexited
  · cases hexited
  · exact h.exited ‹_›

theorem responses_stepConsumer_of_ne {s : State} (h : s.consumer ≠ .respond) :
    (stepConsumer s).responses = s.responses := by
  unfold stepConsumer
  split
  case h_6 => exact absurd ‹s.consumer = .respond› h
  all_goals first | rfl | (split <;> rfl)

theorem live_stepConsumer {r : Rounds} {s : State} (h : Live r s) : Live r (stepConsumer s) where
  phase := inPhase_stepConsumer h.phase
  books := books_stepConsumer h.books
  requests := by
    rw [requests_stepConsumer]
    exact h.requests
  ready := ready_stepConsumer h
  stop := stop_stepConsumer h
  exited := fun hexited => (producer_stepConsumer s).trans (exited_stepConsumer h hexited)
  finished := by
    intro hend
    rw [producer_stepConsumer] at hend
    have hfinished := h.finished hend
    rw [samples_stepConsumer, requests_stepConsumer, responses_stepConsumer_of_ne]
    · exact hfinished
    · -- An open request would be one that has not been answered.
      intro hrespond
      have hopen := h.phase.counts_of_answering (Or.inr hrespond)
      omega

theorem live_drain {r : Rounds} {s : State} (h : Live r s) (p : Party) :
    Live r { s with tso := s.tso.drain p } where
  phase := inPhase_drain h.phase p
  books := h.books.congr rfl rfl rfl rfl
  requests := h.requests
  ready := h.ready.drain p
  stop := h.stop.drain p
  exited := h.exited
  finished := h.finished

theorem live_step {r : Rounds} {s : State} (h : Live r s) {action : Action}
    (hundisturbed : action.Undisturbed) : Live r (step r s action) := by
  cases action with
  | step p =>
      cases p with
      | producer => exact live_stepProducer h
      | consumer => exact live_stepConsumer h
  | drain p => exact live_drain h p
  | timeOut p => exact hundisturbed.elim
  | die => exact hundisturbed.elim

/-! ## Ranks fall -/

theorem rank_enterRound (r : Rounds) {s : State} {k : Nat} (h : s.producer = enterRound r (k + 1)) :
    producerRank r s + 4 ≤ 20 * (r.total - k) + 8 := by
  unfold producerRank
  rw [h]
  rcases enterRound_cases r (k + 1) with ⟨hle, heq | heq⟩ | ⟨_, heq⟩
  all_goals
    rw [heq]
    dsimp only
    omega

/-- A step of the producer that is not an idle turn, its store included. -/
theorem producerRank_stepProducer_lt {r : Rounds} {s : State} (h : Live r s)
    (hready : s.producerReady = true) :
    producerRank r (stepProducer r s) + 3 * ((stepProducer r s).tso.buffer .producer).length <
      producerRank r s + 3 * (s.tso.buffer .producer).length := by
  have hstored : ∀ f v, ((s.tso.store .producer f v).buffer .producer).length =
      (s.tso.buffer .producer).length + 1 := by
    intro f v
    rw [Tso.buffer_store_self, List.length_append, List.length_singleton]
  unfold State.producerReady at hready
  cases hpc : s.producer with
  | waitReady =>
      rw [hpc] at hready
      have hstep : stepProducer r s = { s with producer := enterRound r 1 } := by
        unfold stepProducer
        rw [hpc]
        exact if_pos (of_decide_eq_true hready)
      have hrank := rank_enterRound r (s := stepProducer r s) (k := 0) (by rw [hstep])
      have hbefore : producerRank r s = 20 * r.total + 20 := by
        unfold producerRank
        rw [hpc]
      have hsame : (stepProducer r s).tso = s.tso := by rw [hstep]
      rw [hsame]
      omega
  | readStart k =>
      simp only [stepProducer, producerRank, hpc]
      omega
  | request k =>
      simp only [stepProducer, producerRank, hpc, State.store, hstored]
      omega
  | pollResponse k =>
      rw [hpc] at hready
      have hload : s.load .producer .response = 1 := of_decide_eq_true hready
      by_cases hwarm : k ≤ r.warmup
      · simp only [stepProducer, producerRank, hpc, hload, if_true, if_pos hwarm]
        omega
      · simp only [stepProducer, producerRank, hpc, hload, if_true, if_neg hwarm]
        omega
  | pollStop k =>
      rw [hpc] at hready
      have hload : s.load .producer .response = 1 := of_decide_eq_true hready
      have hstop := h.load_stop (by simp [hpc]) .producer
      simp only [stepProducer, producerRank, hpc, hload, hstop, if_true, ne_eq, not_true, if_false]
      omega
  | readEnd k =>
      simp only [stepProducer, producerRank, hpc]
      omega
  | reset k =>
      have hrank := rank_enterRound r (s := stepProducer r s) (k := k) (by
        unfold stepProducer
        rw [hpc])
      have hbefore : producerRank r s = 20 * (r.total - k) + 8 := by
        unfold producerRank
        rw [hpc]
      have hbuffer : ((stepProducer r s).tso.buffer .producer).length =
          (s.tso.buffer .producer).length + 1 := by
        unfold stepProducer
        rw [hpc]
        exact hstored .response 0
      omega
  | stop =>
      simp only [stepProducer, producerRank, hpc, State.store, hstored]
      omega
  | done =>
      rw [hpc] at hready
      cases hready

/-- An idle turn moves the producer within its wait and changes nothing else. -/
theorem stepProducer_idle {r : Rounds} {s : State} (h : Live r s)
    (hready : s.producerReady = false) :
    ∃ p', stepProducer r s = { s with producer := p' } ∧
      producerRank r { s with producer := p' } = producerRank r s ∧
      ({ s with producer := p' } : State).producerReady = false := by
  unfold State.producerReady at hready
  cases hpc : s.producer with
  | waitReady =>
      rw [hpc] at hready
      have hload := of_decide_eq_false hready
      refine ⟨.waitReady, ?_, ?_, ?_⟩
      · simp only [stepProducer, hpc, hload, if_false]
        rw [← hpc]
      · simp only [producerRank, hpc]
      · exact hready
  | pollResponse k =>
      rw [hpc] at hready
      have hload := of_decide_eq_false hready
      refine ⟨.pollStop k, ?_, ?_, hready⟩
      · simp only [stepProducer, hpc, hload, if_false]
      · have hload' : ¬ ({ s with producer := .pollStop k } : State).load .producer .response = 1 :=
          hload
        simp only [producerRank, hpc, hload', if_false]
  | pollStop k =>
      rw [hpc] at hready
      have hload := of_decide_eq_false hready
      have hstop := h.load_stop (by simp [hpc]) .producer
      refine ⟨.pollResponse k, ?_, ?_, hready⟩
      · simp only [stepProducer, hpc, hstop, ne_eq, not_true, if_false]
      · simp only [producerRank, hpc, hload, if_false]
  | done =>
      refine ⟨.done, ?_, ?_, rfl⟩
      · rw [stepProducer_done r hpc, ← hpc]
      · rw [← hpc]
  | _ =>
      rw [hpc] at hready
      cases hready

theorem consumerRank_stepConsumer_lt {r : Rounds} {s : State} (h : Live r s)
    (hready : s.consumerReady = true) :
    consumerRank r (stepConsumer s) + 3 * ((stepConsumer s).tso.buffer .consumer).length <
      consumerRank r s + 3 * (s.tso.buffer .consumer).length := by
  have hstored : ∀ f v, ((s.tso.store .consumer f v).buffer .consumer).length =
      (s.tso.buffer .consumer).length + 1 := by
    intro f v
    rw [Tso.buffer_store_self, List.length_append, List.length_singleton]
  unfold State.consumerReady at hready
  cases hpc : s.consumer with
  | start =>
      simp only [stepConsumer, consumerRank, hpc, State.store, hstored]
      omega
  | checkStop =>
      by_cases hstop : s.load .consumer .stop ≠ 0
      · simp only [stepConsumer, consumerRank, hpc, if_pos hstop]
        omega
      · have hstop' : ¬ ({ s with consumer := .pollRequest } : State).load .consumer .stop ≠ 0 :=
          hstop
        simp only [stepConsumer, consumerRank, hpc, if_neg hstop, if_neg hstop']
        omega
  | pollRequest =>
      by_cases hrequest : s.load .consumer .request = 1
      · simp only [stepConsumer, consumerRank, hpc, if_pos hrequest]
        split <;> omega
      · -- Nothing to take, so it is the stop flag that has become visible.
        rw [hpc] at hready
        have hstop : s.load .consumer .stop ≠ 0 := by simpa [hrequest] using hready
        have hrequest' : ¬ ({ s with consumer := .pollStop } : State).load .consumer .request = 1 :=
          hrequest
        simp only [stepConsumer, consumerRank, hpc, if_neg hrequest, if_neg hrequest', if_pos hstop]
        omega
  | pollStop =>
      by_cases hstop : s.load .consumer .stop ≠ 0
      · simp only [stepConsumer, consumerRank, hpc, if_pos hstop]
        split <;> omega
      · rw [hpc] at hready
        have hrequest : s.load .consumer .request = 1 := by
          simpa [not_not.1 hstop] using hready
        have hstop' : ¬ ({ s with consumer := .pollRequest } : State).load .consumer .stop ≠ 0 :=
          hstop
        simp only [stepConsumer, consumerRank, hpc, if_neg hstop, if_neg hstop', if_pos hrequest]
        omega
  | clear =>
      simp only [stepConsumer, consumerRank, hpc, State.store, hstored]
      omega
  | respond =>
      -- The request that is answered is one of the rounds.
      have hopen := h.phase.counts_of_answering (Or.inr hpc)
      have hbound := h.requests
      simp only [stepConsumer, consumerRank, hpc, State.store, hstored]
      omega
  | exited =>
      rw [hpc] at hready
      cases hready

theorem stepConsumer_idle {r : Rounds} {s : State} (hready : s.consumerReady = false) :
    ∃ c', stepConsumer s = { s with consumer := c' } ∧
      consumerRank r { s with consumer := c' } = consumerRank r s := by
  unfold State.consumerReady at hready
  cases hpc : s.consumer with
  | pollRequest =>
      rw [hpc] at hready
      rcases (Bool.or_eq_false_iff.1 hready) with ⟨hrequest, hstop⟩
      have hrequest := of_decide_eq_false hrequest
      have hstop := of_decide_eq_false hstop
      refine ⟨.pollStop, ?_, ?_⟩
      · simp only [stepConsumer, hpc, if_neg hrequest]
      · have hrequest' : ¬ ({ s with consumer := .pollStop } : State).load .consumer .request = 1 :=
          hrequest
        simp only [consumerRank, hpc, if_neg hrequest', if_neg hstop]
  | pollStop =>
      rw [hpc] at hready
      rcases (Bool.or_eq_false_iff.1 hready) with ⟨hrequest, hstop⟩
      have hrequest := of_decide_eq_false hrequest
      have hstop := of_decide_eq_false hstop
      refine ⟨.pollRequest, ?_, ?_⟩
      · simp only [stepConsumer, hpc, if_neg hstop]
      · have hstop' : ¬ ({ s with consumer := .pollRequest } : State).load .consumer .stop ≠ 0 :=
          hstop
        simp only [consumerRank, hpc, if_neg hrequest, if_neg hstop']
  | exited =>
      refine ⟨.exited, ?_, ?_⟩
      · unfold stepConsumer
        rw [hpc]
        dsimp only
        rw [← hpc]
      · rw [← hpc]
  | _ =>
      rw [hpc] at hready
      cases hready

/-! What one party does leaves the rank of the other one alone. -/

theorem tso_stepProducer (r : Rounds) (s : State) :
    (stepProducer r s).tso = s.tso ∨
      ∃ f v, (stepProducer r s).tso = s.tso.store .producer f v := by
  by_cases hstop : s.producer = .stop
  · rw [stepProducer_stop r hstop]
    exact Or.inr ⟨_, _, rfl⟩
  by_cases hdone : s.producer = .done
  · rw [stepProducer_done r hdone]
    exact Or.inl rfl
  · rcases (stepProducer_moves r hstop hdone).2 with htso | ⟨f, v, _, htso⟩
    · exact Or.inl htso
    · exact Or.inr ⟨f, v, htso⟩

theorem load_stepProducer_consumer (r : Rounds) (s : State) (f : Flag) :
    (stepProducer r s).load .consumer f = s.load .consumer f := by
  unfold State.load
  rcases tso_stepProducer r s with htso | ⟨f', v, htso⟩
  · rw [htso]
  · rw [htso]
    exact Tso.load_store_of_ne _ (by decide) _ _ _

theorem buffer_stepProducer_consumer (r : Rounds) (s : State) :
    (stepProducer r s).tso.buffer .consumer = s.tso.buffer .consumer := by
  rcases tso_stepProducer r s with htso | ⟨f', v, htso⟩
  · rw [htso]
  · rw [htso]
    exact Tso.buffer_store_of_ne _ (by decide) _ _

theorem tso_stepConsumer (s : State) :
    (stepConsumer s).tso = s.tso ∨ ∃ f v, (stepConsumer s).tso = s.tso.store .consumer f v := by
  by_cases hstart : s.consumer = .start
  · rw [stepConsumer_start hstart]
    exact Or.inr ⟨_, _, rfl⟩
  · rcases (stepConsumer_moves hstart).2 with htso | ⟨f, v, _, htso⟩
    · exact Or.inl htso
    · exact Or.inr ⟨f, v, htso⟩

theorem load_stepConsumer_producer (s : State) (f : Flag) :
    (stepConsumer s).load .producer f = s.load .producer f := by
  unfold State.load
  rcases tso_stepConsumer s with htso | ⟨f', v, htso⟩
  · rw [htso]
  · rw [htso]
    exact Tso.load_store_of_ne _ (by decide) _ _ _

theorem buffer_stepConsumer_producer (s : State) :
    (stepConsumer s).tso.buffer .producer = s.tso.buffer .producer := by
  rcases tso_stepConsumer s with htso | ⟨f', v, htso⟩
  · rw [htso]
  · rw [htso]
    exact Tso.buffer_store_of_ne _ (by decide) _ _

@[simp] theorem responses_stepProducer (r : Rounds) (s : State) :
    (stepProducer r s).responses = s.responses := by
  unfold stepProducer
  split <;> first | rfl | (split <;> rfl)

theorem consumerRank_stepProducer (r : Rounds) (s : State) :
    consumerRank r (stepProducer r s) = consumerRank r s := by
  unfold consumerRank
  rw [consumer_stepProducer, responses_stepProducer, load_stepProducer_consumer,
    load_stepProducer_consumer]

theorem producerRank_stepConsumer (r : Rounds) (s : State) :
    producerRank r (stepConsumer s) = producerRank r s := by
  unfold producerRank
  rw [producer_stepConsumer, load_stepConsumer_producer]

theorem rank_stepProducer_lt {r : Rounds} {s : State} (h : Live r s)
    (hready : s.producerReady = true) : rank r (stepProducer r s) < rank r s := by
  have hown := producerRank_stepProducer_lt h hready
  unfold rank
  rw [consumerRank_stepProducer, buffer_stepProducer_consumer]
  omega

theorem rank_stepConsumer_lt {r : Rounds} {s : State} (h : Live r s)
    (hready : s.consumerReady = true) : rank r (stepConsumer s) < rank r s := by
  have hown := consumerRank_stepConsumer_lt h hready
  unfold rank
  rw [producerRank_stepConsumer, buffer_stepConsumer_producer]
  omega

/-- Whatever the flags are, they change the rank of a party by at most one. -/
theorem producerRank_tso_le (r : Rounds) (s : State) (tso : Tso Party Flag UInt32) :
    producerRank r { s with tso := tso } ≤ producerRank r s + 1 := by
  unfold producerRank
  cases s.producer with
  | pollStop k =>
      dsimp only
      split <;> split <;> omega
  | _ => exact Nat.le_succ _

theorem consumerRank_tso_le (r : Rounds) (s : State) (tso : Tso Party Flag UInt32) :
    consumerRank r { s with tso := tso } ≤ consumerRank r s + 1 := by
  unfold consumerRank
  cases s.consumer with
  | pollRequest =>
      dsimp only
      split <;> split <;> omega
  | pollStop =>
      dsimp only
      split <;> split <;> omega
  | _ => exact Nat.le_succ _

theorem rank_drain_lt (r : Rounds) {s : State} {p : Party} (hbuffer : s.tso.buffer p ≠ []) :
    rank r { s with tso := s.tso.drain p } < rank r s := by
  have hp := producerRank_tso_le r s (s.tso.drain p)
  have hc := consumerRank_tso_le r s (s.tso.drain p)
  have hlength := s.tso.length_buffer_drain hbuffer
  have hothers : ∀ q, q ≠ p → (s.tso.drain p).buffer q = s.tso.buffer q := fun q hq =>
    s.tso.buffer_drain_of_ne hq
  unfold rank
  cases p with
  | producer =>
      rw [hothers .consumer (by decide)]
      dsimp only at *
      omega
  | consumer =>
      rw [hothers .producer (by decide)]
      dsimp only at *
      omega

/-! ## Somebody can always go on -/

/-- Two waiting parties with nothing in flight: one of them has been written to. -/
theorem Phase.awake {mr ms : UInt32} {p : ProducerPc} {c : ConsumerPc} {a n k : Nat}
    (h : Phase mr ms [] [] p c a n) (hp : p = .pollResponse k ∨ p = .pollStop k)
    (hc : c = .pollRequest ∨ c = .pollStop) : mr = 1 ∨ ms = 1 := by
  cases h with
  | idle hb _ => rcases hp with rfl | rfl <;> exact hb.elim
  | posted => exact Or.inl rfl
  | clearedDrained _ hc' => rcases hc with rfl | rfl <;> rcases hc' with hc' | hc' <;> cases hc'
  | delivered => exact Or.inr rfl

theorem consumer_of_not_ready {s : State} (hready : s.consumerReady = false) :
    s.consumer = .exited ∨ ((s.consumer = .pollRequest ∨ s.consumer = .pollStop) ∧
      s.load .consumer .request ≠ 1 ∧ s.load .consumer .stop = 0) := by
  unfold State.consumerReady at hready
  cases hpc : s.consumer with
  | pollRequest =>
      rw [hpc] at hready
      exact Or.inr ⟨Or.inl rfl, by simpa using hready⟩
  | pollStop =>
      rw [hpc] at hready
      exact Or.inr ⟨Or.inr rfl, by simpa using hready⟩
  | exited => exact Or.inl rfl
  | _ =>
      rw [hpc] at hready
      cases hready

/-- Both processes have come to their end. -/
def State.Ended (s : State) : Prop :=
  s.producer = .done ∧ s.consumer = .exited

/-- The producer and the consumer do not wait for each other. -/
theorem not_both_waiting {r : Rounds} {s : State} {k : Nat} (h : Live r s)
    (hempty : ∀ p, s.tso.buffer p = [])
    (hpc : s.producer = .pollResponse k ∨ s.producer = .pollStop k)
    (hresponse : s.load .producer .response ≠ 1) : s.consumerReady = true := by
  have hnil : ∀ p, s.tso.pending handshake p = [] := fun p => by
    unfold Tso.pending
    rw [hempty p]
    rfl
  have hmemory : ∀ p f, s.load p f = s.tso.memory f := fun p f => by
    unfold State.load Tso.load
    rw [hempty p]
    rfl
  rw [← Bool.not_eq_false]
  intro hconsumer
  rcases consumer_of_not_ready hconsumer with hc | ⟨hc, hrequest, _⟩
  · have hdone := h.exited hc
    rw [hdone] at hpc
    rcases hpc with hpc | hpc <;> cases hpc
  · have hphase := h.phase
    unfold State.InPhase at hphase
    rw [hnil, hnil] at hphase
    rw [hmemory] at hrequest hresponse
    exact (hphase.awake hpc hc).elim hrequest hresponse

theorem ready_of_drained {r : Rounds} {s : State} (h : Live r s) (hend : ¬ s.Ended)
    (hempty : ∀ p, s.tso.buffer p = []) : s.producerReady = true ∨ s.consumerReady = true := by
  by_contra hneither
  rcases not_or.1 hneither with ⟨hproducer, hconsumer⟩
  rw [Bool.not_eq_true] at hproducer hconsumer
  unfold State.producerReady at hproducer
  cases hpc : s.producer with
  | waitReady =>
      rw [hpc] at hproducer
      have hnot := of_decide_eq_false hproducer
      -- The consumer has announced itself, and the announcement has arrived.
      have hsignal := h.ready
      have hstarted : s.consumer ≠ .start := by
        rcases consumer_of_not_ready hconsumer with hc | ⟨hc | hc, _⟩ <;> simp [hc]
      rw [decide_eq_true hstarted] at hsignal
      exact hnot (hsignal.load_drained (hempty .consumer) .producer)
  | done =>
      have hsignal := h.stop
      rw [decide_eq_true hpc] at hsignal
      have hstop := hsignal.load_drained (hempty .producer) .consumer
      rcases consumer_of_not_ready hconsumer with hc | ⟨_, _, hclear⟩
      · exact hend ⟨hpc, hc⟩
      · have hload : s.load .consumer .stop = 1 := hstop
        rw [hload] at hclear
        cases hclear
  | pollResponse k =>
      rw [hpc] at hproducer
      have hready := not_both_waiting h hempty (Or.inl hpc) (of_decide_eq_false hproducer)
      rw [hconsumer] at hready
      cases hready
  | pollStop k =>
      rw [hpc] at hproducer
      have hready := not_both_waiting h hempty (Or.inr hpc) (of_decide_eq_false hproducer)
      rw [hconsumer] at hready
      cases hready
  | _ =>
      rw [hpc] at hproducer
      cases hproducer

/-! ## Fair runs -/

theorem helpful_cases (s : State) :
    (∃ p, helpful s = .drain p ∧ s.tso.buffer p ≠ []) ∨
      ((∀ p, s.tso.buffer p = []) ∧
        ((s.producerReady = true ∧ helpful s = .step .producer) ∨
          (s.producerReady = false ∧ helpful s = .step .consumer))) := by
  unfold helpful
  by_cases hproducer : s.tso.buffer .producer ≠ []
  · rw [if_pos hproducer]
    exact Or.inl ⟨.producer, rfl, hproducer⟩
  rw [if_neg hproducer]
  by_cases hconsumer : s.tso.buffer .consumer ≠ []
  · rw [if_pos hconsumer]
    exact Or.inl ⟨.consumer, rfl, hconsumer⟩
  rw [if_neg hconsumer]
  refine Or.inr ⟨fun p => ?_, ?_⟩
  · cases p with
    | producer => exact not_not.1 hproducer
    | consumer => exact not_not.1 hconsumer
  · cases hready : s.producerReady with
    | true => exact Or.inl ⟨rfl, rfl⟩
    | false => exact Or.inr ⟨rfl, rfl⟩

theorem rank_helpful_lt {r : Rounds} {s : State} (h : Live r s) (hend : ¬ s.Ended) :
    rank r (step r s (helpful s)) < rank r s := by
  rcases helpful_cases s with
    ⟨p, hhelpful, hbuffer⟩ | ⟨hempty, ⟨hready, hhelpful⟩ | ⟨hidle, hhelpful⟩⟩
  · rw [hhelpful]
    exact rank_drain_lt r hbuffer
  · rw [hhelpful]
    exact rank_stepProducer_lt h hready
  · rw [hhelpful]
    rcases ready_of_drained h hend hempty with hready | hready
    · rw [hidle] at hready
      cases hready
    · exact rank_stepConsumer_lt h hready

/-- An undisturbed action lowers the rank, or it leaves the rank and what is helpful alone. -/
theorem rank_step {r : Rounds} {s : State} (h : Live r s) {action : Action}
    (hundisturbed : action.Undisturbed) :
    rank r (step r s action) < rank r s ∨
      (rank r (step r s action) = rank r s ∧ helpful (step r s action) = helpful s) := by
  cases action with
  | step p =>
      cases p with
      | producer =>
          show rank r (stepProducer r s) < _ ∨ rank r (stepProducer r s) = _ ∧ _
          cases hready : s.producerReady with
          | true => exact Or.inl (rank_stepProducer_lt h hready)
          | false =>
              rcases stepProducer_idle h hready with ⟨p', hstep, hrank, hready'⟩
              refine Or.inr ⟨?_, ?_⟩
              · rw [hstep]
                unfold rank
                rw [hrank]
                rfl
              · show helpful (stepProducer r s) = _
                rw [hstep]
                unfold helpful
                rw [hready', hready]
      | consumer =>
          show rank r (stepConsumer s) < _ ∨ rank r (stepConsumer s) = _ ∧ _
          cases hready : s.consumerReady with
          | true => exact Or.inl (rank_stepConsumer_lt h hready)
          | false =>
              rcases stepConsumer_idle (r := r) hready with ⟨c', hstep, hrank⟩
              refine Or.inr ⟨?_, ?_⟩
              · rw [hstep]
                unfold rank
                rw [hrank]
                rfl
              · show helpful (stepConsumer s) = _
                rw [hstep]
                rfl
  | drain p =>
      by_cases hbuffer : s.tso.buffer p = []
      · have hsame : step r s (.drain p) = s := by
          show ({ s with tso := s.tso.drain p } : State) = s
          rw [s.tso.drain_nil hbuffer]
        rw [hsame]
        exact Or.inr ⟨rfl, rfl⟩
      · exact Or.inl (rank_drain_lt r hbuffer)
  | timeOut p => exact hundisturbed.elim
  | die => exact hundisturbed.elim

theorem ping_pong_descends (r : Rounds) :
    Descends (step r) (Live r) Action.Undisturbed State.Ended (rank r) helpful where
  keeps := fun _ _ h hundisturbed => live_step h hundisturbed
  le := fun _ _ h hundisturbed =>
    (rank_step h hundisturbed).elim Nat.le_of_lt fun hsame => Nat.le_of_eq hsame.1
  helps := fun _ h hend => rank_helpful_lt h hend
  stays := fun _ _ h hundisturbed heq =>
    (rank_step h hundisturbed).elim (fun hlt => absurd heq (Nat.ne_of_lt hlt)) fun hsame => hsame.2

theorem ended_step {r : Rounds} {s : State} (h : s.Ended) {action : Action}
    (hundisturbed : action.Undisturbed) : (step r s action).Ended := by
  cases action with
  | step p =>
      cases p with
      | producer =>
          show (stepProducer r s).Ended
          rw [stepProducer_done r h.1]
          exact h
      | consumer =>
          have hstep : stepConsumer s = s := by
            unfold stepConsumer
            rw [h.2]
          show (stepConsumer s).Ended
          rw [hstep]
          exact h
  | drain p => exact h
  | timeOut p => exact hundisturbed.elim
  | die => exact hundisturbed.elim

/-- The test is over, and every measured round has its sample. -/
structure Complete (r : Rounds) (s : State) : Prop where
  ended : s.Ended
  rounds : s.samples.map Sample.round = List.range' (r.warmup + 1) r.iterations
  samples : ∀ x ∈ s.samples, x.RoundTrip
  answered : s.requests = r.total ∧ s.responses = r.total

theorem complete_of_ended {r : Rounds} {s : State} (h : Live r s) (hend : s.Ended) :
    Complete r s := by
  rcases h.finished (Or.inr hend.1) with ⟨hlength, hcounts⟩
  refine ⟨hend, ?_, h.books.samples, hcounts⟩
  rw [h.books.rounds, hlength]

/-- No fair schedule without time-outs blocks the test: it ends, and it stays ended, with the
samples of all measured rounds. -/
theorem fair_run_completes (r : Rounds) {schedule : Nat → Action}
    (hundisturbed : ∀ n, (schedule n).Undisturbed)
    (hfair : ∀ p, FairTo schedule (.step p) ∧ FairTo schedule (.drain p)) :
    ∃ n, ∀ m, n ≤ m → Complete r (run r ((List.range m).map schedule)) := by
  have hdescends := ping_pong_descends r
  have hlive := trajectory_invariant hdescends.keeps (live_init r) hundisturbed
  have hhelpful : ∀ s, Live r s → ¬ s.Ended → FairTo schedule (helpful s) := by
    intro s _ _
    rcases helpful_cases s with ⟨p, hhelpful, _⟩ | ⟨_, ⟨_, hhelpful⟩ | ⟨_, hhelpful⟩⟩
    · rw [hhelpful]
      exact (hfair p).2
    · rw [hhelpful]
      exact (hfair .producer).1
    · rw [hhelpful]
      exact (hfair .consumer).1
  rcases hdescends.reaches (live_init r) hundisturbed hhelpful with ⟨n, hn⟩
  refine ⟨n, fun m hm => ?_⟩
  unfold run
  rw [foldl_map_range]
  refine complete_of_ended (hlive m) ?_
  induction m, hm using Nat.le_induction with
  | base => exact hn
  | succ m _ ih => exact ended_step ih (hundisturbed m)

/-- Both parties step and both buffers drain in turn. -/
def roundRobin (n : Nat) : Action :=
  if n % 4 = 0 then .step .producer
  else if n % 4 = 1 then .drain .producer
  else if n % 4 = 2 then .step .consumer
  else .drain .consumer

theorem roundRobin_fair (p : Party) :
    FairTo roundRobin (.step p) ∧ FairTo roundRobin (.drain p) := by
  cases p with
  | producer =>
      refine ⟨fun n => ⟨4 * n, by omega, ?_⟩, fun n => ⟨4 * n + 1, by omega, ?_⟩⟩
      · simp [roundRobin]
      · have hmod : (4 * n + 1) % 4 = 1 := by omega
        simp [roundRobin, hmod]
  | consumer =>
      refine ⟨fun n => ⟨4 * n + 2, by omega, ?_⟩, fun n => ⟨4 * n + 3, by omega, ?_⟩⟩
      · have hmod : (4 * n + 2) % 4 = 2 := by omega
        simp [roundRobin, hmod]
      · have hmod : (4 * n + 3) % 4 = 3 := by omega
        simp [roundRobin, hmod]

theorem fair_run_completes_round_robin :
    ∃ n, ∀ m, n ≤ m → Complete ⟨1, 2⟩ (run ⟨1, 2⟩ ((List.range m).map roundRobin)) := by
  refine fair_run_completes ⟨1, 2⟩ (fun n => ?_) roundRobin_fair
  unfold roundRobin
  split
  · trivial
  · split
    · trivial
    · split <;> trivial

end PingPong
end SharedMemory
end LatencyAnalyzer
