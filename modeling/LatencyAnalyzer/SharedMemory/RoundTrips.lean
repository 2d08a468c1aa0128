import LatencyAnalyzer.SharedMemory.PingPong

/-!
# RoundTrips — every sample spans one request and its response

The handshake stays in one of its phases under every action.  From the phases the counters follow
the rounds of the parent, so the snapshots at both ends of a sample enclose one request and one
response.
-/

namespace LatencyAnalyzer
namespace SharedMemory
namespace PingPong

open Lib

/-! ## Phases are kept -/

theorem inPhase_init : State.init.InPhase :=
  Phase.idle rfl trivial

/-- The producer moves without a store to the handshake flags. -/
theorem State.InPhase.moveProducer {s : State} (h : s.InPhase) {p' : ProducerPc}
    (hbetween : s.producer.Between s.responses → p'.Between s.responses)
    (hwaiting : s.producer.Waiting s.requests → p'.Waiting s.requests)
    (hseen : s.producer.Seen s.responses → p'.Seen s.responses) :
    ({ s with producer := p' } : State).InPhase :=
  Phase.moveProducer h hbetween hwaiting hseen

theorem State.InPhase.moveListening {s : State} (h : s.InPhase) {c' : ConsumerPc}
    (hc : s.consumer.Listening) (hlive : s.consumer ≠ .exited) (hc' : c'.Listening) :
    ({ s with consumer := c' } : State).InPhase :=
  Phase.moveListening h hc hlive hc'

/-- Stores to the other two flags change nothing that the phases speak of. -/
theorem State.InPhase.storeControl {s : State} (h : s.InPhase) (p : Party) {f : Flag}
    (hf : ¬ handshake f = true) (v : UInt32) : (s.store p f v).InPhase := by
  unfold State.InPhase State.store at *
  dsimp only
  rw [Tso.pending_store_outside _ _ _ hf, Tso.pending_store_outside _ _ _ hf]
  exact h

theorem load_response_eq (s : State) :
    s.load .producer .response =
      (latest .response (s.tso.pending handshake .producer)).getD (s.tso.memory .response) :=
  s.tso.load_eq .producer rfl

theorem load_request_eq (s : State) :
    s.load .consumer .request =
      (latest .request (s.tso.pending handshake .consumer)).getD (s.tso.memory .request) :=
  s.tso.load_eq .consumer rfl

theorem enterRound_between (r : Rounds) (n : Nat) : (enterRound r (n + 1)).Between n := by
  unfold enterRound
  split
  · rfl
  · split
    · rfl
    · trivial

/-- The phase of a state whose producer is known to be somewhere. -/
theorem State.InPhase.producerAt {s : State} (h : s.InPhase) {p : ProducerPc}
    (hpc : s.producer = p) :
    Phase (s.tso.memory .request) (s.tso.memory .response) (s.tso.pending handshake .producer)
      (s.tso.pending handshake .consumer) p s.consumer s.requests s.responses :=
  hpc ▸ h

theorem State.InPhase.consumerAt {s : State} (h : s.InPhase) {c : ConsumerPc}
    (hpc : s.consumer = c) :
    Phase (s.tso.memory .request) (s.tso.memory .response) (s.tso.pending handshake .producer)
      (s.tso.pending handshake .consumer) s.producer c s.requests s.responses :=
  hpc ▸ h

section Stores

variable {s : State} {f : Flag} (hf : handshake f = true) {v : UInt32} {p : ProducerPc}
  {c : ConsumerPc} {a n : Nat}
include hf

/-- A store of the producer is a new last entry of its restricted buffer. -/
theorem phase_store_producer
    (h : Phase (s.tso.memory .request) (s.tso.memory .response)
      (s.tso.pending handshake .producer ++ [(f, v)]) (s.tso.pending handshake .consumer) p c a n) :
    Phase ((s.tso.store .producer f v).memory .request)
      ((s.tso.store .producer f v).memory .response)
      ((s.tso.store .producer f v).pending handshake .producer)
      ((s.tso.store .producer f v).pending handshake .consumer) p c a n := by
  rw [Tso.pending_store_self _ _ hf, Tso.pending_store_of_ne _ (by decide)]
  exact h

theorem phase_store_consumer
    (h : Phase (s.tso.memory .request) (s.tso.memory .response)
      (s.tso.pending handshake .producer) (s.tso.pending handshake .consumer ++ [(f, v)]) p c a n) :
    Phase ((s.tso.store .consumer f v).memory .request)
      ((s.tso.store .consumer f v).memory .response)
      ((s.tso.store .consumer f v).pending handshake .producer)
      ((s.tso.store .consumer f v).pending handshake .consumer) p c a n := by
  rw [Tso.pending_store_self _ _ hf, Tso.pending_store_of_ne _ (by decide)]
  exact h

end Stores

theorem inPhase_stepProducer (r : Rounds) {s : State} (h : s.InPhase) :
    (stepProducer r s).InPhase := by
  unfold stepProducer
  split
  · rename_i hpc
    split
    · -- The first round begins, with no request behind the producer.
      apply h.moveProducer
      · rw [hpc]
        intro hzero
        have hzero' : s.responses = 0 := hzero
        rw [hzero']
        exact enterRound_between r 0
      · rw [hpc]
        exact False.elim
      · rw [hpc]
        exact False.elim
    · exact h
  · rename_i k hpc
    exact Phase.moveProducer (h.producerAt hpc) id id id
  · rename_i k hpc
    exact phase_store_producer rfl (h.producerAt hpc).issue.2.2
  · rename_i k hpc
    split
    · rename_i hload
      rw [load_response_eq] at hload
      refine ((h.producerAt hpc).see hload ?_).2.2
      split <;> rfl
    · apply h.moveProducer
      all_goals
        rw [hpc]
        exact id
  · rename_i k hpc
    split
    · -- Giving up is possible in every phase in which the producer waits.
      refine h.moveProducer (fun _ => trivial) (fun _ => trivial) ?_
      rw [hpc]
      exact False.elim
    · apply h.moveProducer
      all_goals
        rw [hpc]
        exact id
  · rename_i k hpc
    exact Phase.moveProducer (h.producerAt hpc) id id id
  · rename_i k hpc
    exact phase_store_producer rfl ((h.producerAt hpc).takeBack (enterRound_between r k)).2.2
  · rename_i hpc
    have hstored := h.storeControl .producer (f := .stop) (by decide) 1
    refine hstored.moveProducer (fun _ => trivial) (fun _ => trivial) ?_
    show s.producer.Seen _ → _
    rw [hpc]
    exact False.elim
  · exact h

theorem inPhase_stepConsumer {s : State} (h : s.InPhase) : (stepConsumer s).InPhase := by
  unfold stepConsumer
  split
  · rename_i hpc
    have hstored := h.storeControl .consumer (f := .consumerReady) (by decide) 1
    refine hstored.moveListening ?_ ?_ trivial
    · show s.consumer.Listening
      rw [hpc]
      trivial
    · show s.consumer ≠ .exited
      rw [hpc]
      decide
  · rename_i hpc
    split
    · exact Phase.exit h
    · exact h.moveListening (by rw [hpc]; trivial) (by rw [hpc]; decide) trivial
  · rename_i hpc
    split
    · rename_i hload
      rw [load_request_eq] at hload
      exact (h.consumerAt hpc).take hload
    · exact h.moveListening (by rw [hpc]; trivial) (by rw [hpc]; decide) trivial
  · rename_i hpc
    split
    · exact Phase.exit h
    · exact h.moveListening (by rw [hpc]; trivial) (by rw [hpc]; decide) trivial
  · rename_i hpc
    exact phase_store_consumer rfl (h.consumerAt hpc).clear
  · rename_i hpc
    exact phase_store_consumer rfl (h.consumerAt hpc).respond.2
  · exact h

theorem inPhase_drain {s : State} (h : s.InPhase) (p : Party) :
    ({ s with tso := s.tso.drain p } : State).InPhase := by
  unfold State.InPhase at h ⊢
  dsimp only
  rcases s.tso.drain_cases (S := handshake) p with
    ⟨hpending, hmemory⟩ | ⟨f, v, rest, _, hhead, htail, hothers, hmemory⟩
  · rw [hpending, hpending, hmemory .request rfl, hmemory .response rfl]
    exact h
  · rw [hmemory, Function.update_apply, Function.update_apply]
    cases p with
    | producer =>
        rw [hhead] at h
        rw [htail, hothers .consumer (by decide)]
        exact h.drainProducer
    | consumer =>
        rw [hhead] at h
        rw [htail, hothers .producer (by decide)]
        exact h.drainConsumer

theorem inPhase_timeOutProducer {s : State} (h : s.InPhase) : (timeOutProducer s).InPhase := by
  unfold timeOutProducer
  split
  all_goals first
    | exact h
    | rename_i hpc
      refine h.moveProducer (fun _ => trivial) (fun _ => trivial) ?_
      rw [hpc]
      exact False.elim

theorem inPhase_step (r : Rounds) {s : State} (h : s.InPhase) (action : Action) :
    (step r s action).InPhase := by
  cases action with
  | step p =>
      cases p with
      | producer => exact inPhase_stepProducer r h
      | consumer => exact inPhase_stepConsumer h
  | drain p => exact inPhase_drain h p
  | timeOut p =>
      cases p with
      | producer => exact inPhase_timeOutProducer h
      | consumer =>
          show (timeOutConsumer s).InPhase
          unfold timeOutConsumer
          split
          · exact Phase.exit h
          · exact Phase.exit h
          · exact h
  | die => exact Phase.exit h

/-! ## Samples -/

/-- The round in which the parent is. -/
def ProducerPc.round : ProducerPc → Option Nat
  | .readStart k | .request k | .pollResponse k | .pollStop k | .readEnd k | .reset k => some k
  | .waitReady | .stop | .done => none

/-- The round whose start is behind the parent. -/
def ProducerPc.begun : ProducerPc → Option Nat
  | .request k | .pollResponse k | .pollStop k | .readEnd k | .reset k => some k
  | .readStart _ | .waitReady | .stop | .done => none

/-- A sample of round `k`: before it `k - 1` requests and responses, after it `k`. -/
def Sample.RoundTrip (x : Sample) : Prop :=
  x.begun = ⟨x.round - 1, x.round - 1⟩ ∧ x.ended = ⟨x.round, x.round⟩

structure Books (r : Rounds) (s : State) : Prop where
  unstarted : s.producer = .waitReady → s.samples = []
  length : ∀ k, s.producer.round = some k →
    s.samples.length = k - (r.warmup + 1) ∧ k ≤ r.warmup + r.iterations
  begun : ∀ k, r.warmup < k → s.producer.begun = some k → s.begun = ⟨k - 1, k - 1⟩
  ended : ∀ k, r.warmup < k → s.producer = .reset k → s.ended = ⟨k, k⟩
  samples : ∀ x ∈ s.samples, x.RoundTrip
  rounds : s.samples.map Sample.round = List.range' (r.warmup + 1) s.samples.length
  count : s.samples.length ≤ r.iterations

theorem books_init (r : Rounds) : Books r State.init where
  unstarted := fun _ => rfl
  length := fun _ hk => nomatch hk
  begun := fun _ _ hk => nomatch hk
  ended := fun _ _ hk => nomatch hk
  samples := fun _ hx => nomatch hx
  rounds := rfl
  count := Nat.zero_le _

/-- The books do not look at the flags, the consumer and the counters. -/
theorem Books.congr {r : Rounds} {s s' : State} (h : Books r s) (hp : s'.producer = s.producer)
    (hb : s'.begun = s.begun) (he : s'.ended = s.ended) (hs : s'.samples = s.samples) :
    Books r s' := by
  rcases h with ⟨hunstarted, hlength, hbegun, hended, hsamples, hrounds, hcount⟩
  constructor
  all_goals
    simp only [hp, hb, he, hs]
    assumption

/-- The producer moves on within its round, or leaves its rounds. -/
theorem Books.move {r : Rounds} {s s' : State} (h : Books r s)
    (hb : s'.begun = s.begun) (hs : s'.samples = s.samples)
    (hready : s'.producer ≠ .waitReady)
    (hround : ∀ k, s'.producer.round = some k → s.producer.round = some k)
    (hbegun : ∀ k, r.warmup < k → s'.producer.begun = some k → s.producer.begun = some k)
    (hreset : ∀ k, r.warmup < k → s'.producer = .reset k → s'.ended = ⟨k, k⟩) : Books r s' := by
  refine ⟨fun heq => absurd heq hready, ?_, ?_, hreset, ?_, ?_, ?_⟩
  · intro k hk
    rw [hs]
    exact h.length k (hround k hk)
  · intro k hlt hk
    rw [hb]
    exact h.begun k hlt (hbegun k hlt hk)
  · rw [hs]
    exact h.samples
  · rw [hs]
    exact h.rounds
  · rw [hs]
    exact h.count

theorem ProducerPc.round_of_begun {p : ProducerPc} {k : Nat} (h : p.begun = some k) :
    p.round = some k := by
  cases p with
  | waitReady => cases h
  | readStart j => cases h
  | stop => cases h
  | done => cases h
  | _ => exact h

/-- The producer moves on within a round that it has begun. -/
theorem Books.within {r : Rounds} {s s' : State} {k : Nat} (h : Books r s)
    (hpc : s.producer.begun = some k) (hpc' : s'.producer.begun = some k)
    (hb : s'.begun = s.begun) (hs : s'.samples = s.samples)
    (hreset : r.warmup < k → s'.producer = .reset k → s'.ended = ⟨k, k⟩) : Books r s' := by
  apply h.move hb hs
  · intro hready
    rw [hready] at hpc'
    cases hpc'
  · intro j hj
    rw [ProducerPc.round_of_begun hpc'] at hj
    rw [ProducerPc.round_of_begun hpc]
    exact hj
  · intro j _ hj
    rw [hpc'] at hj
    rw [hpc]
    exact hj
  · intro j hlt hj
    have hsame : k = j := by
      rw [hj] at hpc'
      exact (Option.some.inj hpc').symm
    subst hsame
    exact hreset hlt hj

theorem Books.leave {r : Rounds} {s s' : State} (h : Books r s) (hb : s'.begun = s.begun)
    (hs : s'.samples = s.samples) (hp : s'.producer = .stop ∨ s'.producer = .done) :
    Books r s' := by
  rcases hp with hp | hp
  all_goals
    apply h.move hb hs
    · rw [hp]
      decide
    · rw [hp]
      intro k hk
      cases hk
    · rw [hp]
      intro k _ hk
      cases hk
    · rw [hp]
      intro k _ hk
      cases hk

theorem round_enterRound {r : Rounds} {k j : Nat} (h : (enterRound r k).round = some j) :
    j = k ∧ k ≤ r.warmup + r.iterations := by
  unfold enterRound at h
  split at h
  · cases h
    exact ⟨rfl, by omega⟩
  · split at h
    · cases h
      exact ⟨rfl, ‹_›⟩
    · cases h

theorem begun_enterRound {r : Rounds} {k j : Nat} (h : (enterRound r k).begun = some j) :
    j ≤ r.warmup := by
  unfold enterRound at h
  split at h
  · cases h
    exact ‹_›
  · split at h
    · cases h
    · cases h

theorem enterRound_ne_waitReady (r : Rounds) (k : Nat) : enterRound r k ≠ .waitReady := by
  unfold enterRound
  intro heq
  split at heq
  · cases heq
  · split at heq <;> cases heq

theorem enterRound_ne_reset (r : Rounds) (k j : Nat) : enterRound r k ≠ .reset j := by
  unfold enterRound
  intro heq
  split at heq
  · cases heq
  · split at heq <;> cases heq

/-- Entering round `k` with the samples of the rounds before it. -/
theorem Books.enter {r : Rounds} {s' : State} {k : Nat} (hp : s'.producer = enterRound r k)
    (hlength : s'.samples.length = k - (r.warmup + 1)) (hsamples : ∀ x ∈ s'.samples, x.RoundTrip)
    (hrounds : s'.samples.map Sample.round = List.range' (r.warmup + 1) s'.samples.length)
    (hcount : s'.samples.length ≤ r.iterations) : Books r s' := by
  refine ⟨?_, ?_, ?_, ?_, hsamples, hrounds, hcount⟩
  · intro heq
    exact absurd (hp.symm.trans heq) (enterRound_ne_waitReady r k)
  · intro j hj
    rw [hp] at hj
    rcases round_enterRound hj with ⟨rfl, hbound⟩
    exact ⟨hlength, hbound⟩
  · intro j hlt hj
    rw [hp] at hj
    exact absurd (begun_enterRound hj) (by omega)
  · intro j _ heq
    exact absurd (hp.symm.trans heq) (enterRound_ne_reset r k j)

/-- The sample of a measured round is recorded between its two stamps. -/
theorem Books.record {r : Rounds} {s s' : State} {k : Nat} (h : Books r s)
    (hpc : s.producer = .reset k) (hlt : r.warmup < k) (hp : s'.producer = enterRound r (k + 1))
    (hs : s'.samples = s.samples ++ [⟨k, s.begun, s.ended⟩]) : Books r s' := by
  rcases h.length k (by rw [hpc]; rfl) with ⟨hlength, hbound⟩
  have hbegun := h.begun k hlt (by rw [hpc]; rfl)
  have hended := h.ended k hlt hpc
  apply Books.enter hp
  · rw [hs, List.length_append, List.length_singleton]
    omega
  · intro x hx
    rw [hs] at hx
    rcases List.mem_append.1 hx with hx | hx
    · exact h.samples x hx
    · rw [List.mem_singleton.1 hx]
      exact ⟨hbegun, hended⟩
  · rw [hs, List.map_append, List.length_append, h.rounds, List.length_singleton,
      List.range'_concat]
    have hround : r.warmup + 1 + 1 * s.samples.length = k := by omega
    rw [hround]
    rfl
  · rw [hs, List.length_append, List.length_singleton]
    omega

theorem books_stepProducer {r : Rounds} {s : State} (hphase : s.InPhase) (h : Books r s) :
    Books r (stepProducer r s) := by
  unfold stepProducer
  split
  · rename_i hpc
    split
    · have hnone := h.unstarted hpc
      refine Books.enter rfl ?_ h.samples h.rounds h.count
      show s.samples.length = _
      rw [hnone]
      show 0 = 1 - (r.warmup + 1)
      omega
    · exact h
  · -- The start stamp: so far as many responses as requests, and one less than the round.
    rename_i k hpc
    rcases (hphase.producerAt hpc).counts_of_readStart with ⟨heq, hk⟩
    constructor
    · intro hready
      cases hready
    · intro j hj
      cases hj
      exact h.length k (by rw [hpc]; rfl)
    · intro j _ hj
      cases hj
      show (⟨s.requests, s.responses⟩ : Snapshot) = _
      rw [heq, hk, Nat.add_sub_cancel]
    · intro j _ hj
      cases hj
    · exact h.samples
    · exact h.rounds
    · exact h.count
  · rename_i k hpc
    exact h.within (by rw [hpc]; rfl) rfl rfl rfl fun _ hj => nomatch hj
  · rename_i k hpc
    split
    · by_cases hwarm : k ≤ r.warmup
      · -- A warm-up round goes on without an end stamp.
        simp only [if_pos hwarm]
        exact h.within (by rw [hpc]; rfl) rfl rfl rfl fun hlt _ => absurd hwarm (Nat.not_le.2 hlt)
      · simp only [if_neg hwarm]
        exact h.within (by rw [hpc]; rfl) rfl rfl rfl fun _ hj => nomatch hj
    · exact h.within (by rw [hpc]; rfl) rfl rfl rfl fun _ hj => nomatch hj
  · rename_i k hpc
    split
    · exact h.leave rfl rfl (Or.inl rfl)
    · exact h.within (by rw [hpc]; rfl) rfl rfl rfl fun _ hj => nomatch hj
  · -- The end stamp: the response of the round has been executed.
    rename_i k hpc
    rcases hphase.counts_of_seen (Or.inl hpc) with ⟨heq, hk⟩
    refine h.within (by rw [hpc]; rfl) rfl rfl rfl fun _ _ => ?_
    show (⟨s.requests, s.responses⟩ : Snapshot) = _
    rw [heq, hk]
  · rename_i k hpc
    rcases h.length k (by rw [hpc]; rfl) with ⟨hlength, hbound⟩
    by_cases hwarm : k ≤ r.warmup
    · rw [if_pos hwarm]
      refine Books.enter rfl ?_ h.samples h.rounds h.count
      show s.samples.length = _
      omega
    · rw [if_neg hwarm]
      exact h.record hpc (Nat.lt_of_not_le hwarm) rfl rfl
  · exact h.leave rfl rfl (Or.inr rfl)
  · exact h

theorem books_timeOutProducer {r : Rounds} {s : State} (h : Books r s) :
    Books r (timeOutProducer s) := by
  unfold timeOutProducer
  split
  · exact h.leave rfl rfl (Or.inl rfl)
  · exact h.leave rfl rfl (Or.inl rfl)
  · exact h.leave rfl rfl (Or.inl rfl)
  · exact h

theorem books_stepConsumer {r : Rounds} {s : State} (h : Books r s) :
    Books r (stepConsumer s) := by
  apply h.congr
  all_goals
    unfold stepConsumer
    split <;> first | rfl | (split <;> rfl)

theorem books_step {r : Rounds} {s : State} (hphase : s.InPhase) (h : Books r s)
    (action : Action) : Books r (step r s action) := by
  cases action with
  | step p =>
      cases p with
      | producer => exact books_stepProducer hphase h
      | consumer => exact books_stepConsumer h
  | drain p => exact h.congr rfl rfl rfl rfl
  | timeOut p =>
      cases p with
      | producer => exact books_timeOutProducer h
      | consumer =>
          apply h.congr
          all_goals
            show _ = _
            unfold step timeOutConsumer
            dsimp only
            split <;> rfl
  | die => exact h.congr rfl rfl rfl rfl

/-! ## Runs -/

theorem run_invariant (r : Rounds) (actions : List Action) :
    (run r actions).InPhase ∧ Books r (run r actions) := by
  unfold run
  refine List.foldlRecOn (motive := fun s => s.InPhase ∧ Books r s) actions (step r)
    ⟨inPhase_init, books_init r⟩ ?_
  intro s h action _
  exact ⟨inPhase_step r h.1 action, books_step h.1 h.2 action⟩

/-- What holds of the counters and the samples at every moment. -/
structure Safe (r : Rounds) (s : State) : Prop where
  /-- The producer is about to issue the request of round `k`. -/
  issuing : ∀ k, s.producer = .request k → s.requests + 1 = k ∧ s.responses + 1 = k
  /-- The producer has observed the response in round `k`. -/
  observed : ∀ k, s.producer = .readEnd k ∨ s.producer = .reset k →
    s.requests = k ∧ s.responses = k
  /-- The consumer answers a request that no response belongs to yet. -/
  answering : s.consumer = .clear ∨ s.consumer = .respond → s.requests = s.responses + 1
  /-- At most one request is open. -/
  outstanding : s.responses ≤ s.requests ∧ s.requests ≤ s.responses + 1
  /-- Every sample spans one request and the response to it. -/
  samples : ∀ x ∈ s.samples, x.RoundTrip
  /-- The samples are those of the first measured rounds, in order. -/
  rounds : s.samples.map Sample.round = List.range' (r.warmup + 1) s.samples.length
  count : s.samples.length ≤ r.iterations

theorem ping_pong_safe (r : Rounds) (actions : List Action) : Safe r (run r actions) := by
  rcases run_invariant r actions with ⟨hphase, hbooks⟩
  refine ⟨?_, ?_, ?_, ?_, hbooks.samples, hbooks.rounds, hbooks.count⟩
  · intro k hpc
    rcases (hphase.producerAt hpc).issue with ⟨heq, hk, _⟩
    omega
  · intro k hpc
    rcases hphase.counts_of_seen hpc with ⟨heq, hk⟩
    exact ⟨heq.trans hk.symm, hk.symm⟩
  · intro hpc
    exact hphase.counts_of_answering hpc
  · exact hphase.requests_le

/-- One measured round, each store drained before the other party polls. -/
example :
    (run ⟨0, 1⟩
      [.step .consumer, .drain .consumer, .step .producer, .step .producer, .step .producer,
        .drain .producer, .step .consumer, .step .consumer, .step .consumer, .step .consumer,
        .drain .consumer, .drain .consumer, .step .producer, .step .producer,
        .step .producer]).samples = [⟨1, ⟨0, 0⟩, ⟨1, 1⟩⟩] := by
  decide

end PingPong
end SharedMemory
end LatencyAnalyzer
