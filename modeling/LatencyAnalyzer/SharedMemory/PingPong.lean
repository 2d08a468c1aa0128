import Mathlib.Data.List.Basic
import LatencyAnalyzer.Lib.StoreBuffer

/-!
# PingPong — producer and consumer over the four shared flags

The two processes of the shared-memory test as one state machine.  Every load and every store of a
flag is a step of its own; stores go through the store buffer of their process.  An interleaving
is a list of actions, and an action that is not possible leaves the state as it is.

The counters `requests` and `responses` and the snapshots are ghosts: they count the stores
`request = 1` and `response = 1` at the moment at which they are executed.
-/

namespace LatencyAnalyzer
namespace SharedMemory
namespace PingPong

open Lib

/-! ## States -/

inductive Party
  | producer
  | consumer
  deriving DecidableEq, Repr

inductive Flag
  | request
  | response
  | consumerReady
  | stop
  deriving DecidableEq, Repr

/-- The arguments of the measurement. -/
structure Rounds where
  warmup : Nat
  iterations : Nat

/-- Where the parent is.  Rounds count from 1, warm-up rounds first. -/
inductive ProducerPc
  /-- In `wait_for_value(consumer_ready, 1)`. -/
  | waitReady
  /-- Before `start = read_tsc_start()`. -/
  | readStart (k : Nat)
  /-- Before `request.store(1)`. -/
  | request (k : Nat)
  /-- In `wait_for_value(response, 1, &stop)`, before it loads the response. -/
  | pollResponse (k : Nat)
  /-- In the same wait, before it loads the stop flag. -/
  | pollStop (k : Nat)
  /-- Before `end = read_tsc_end()`. -/
  | readEnd (k : Nat)
  /-- Before `response.store(0)`. -/
  | reset (k : Nat)
  /-- Before `stop.store(1)`. -/
  | stop
  | done
  deriving DecidableEq, Repr

/-- Where the child is. -/
inductive ConsumerPc
  /-- Before `consumer_ready.store(1)`. -/
  | start
  /-- At the head of the loop, before it loads the stop flag. -/
  | checkStop
  /-- In `wait_for_value(request, 1, &stop)`, before it loads the request. -/
  | pollRequest
  /-- In the same wait, before it loads the stop flag. -/
  | pollStop
  /-- Before `request.store(0)`. -/
  | clear
  /-- Before `response.store(1)`. -/
  | respond
  | exited
  deriving DecidableEq, Repr

/-- How many requests and responses had been executed at some moment. -/
structure Snapshot where
  requests : Nat
  responses : Nat
  deriving DecidableEq, Repr

structure Sample where
  round : Nat
  begun : Snapshot
  ended : Snapshot
  deriving DecidableEq, Repr

structure State where
  tso : Tso Party Flag UInt32
  producer : ProducerPc
  consumer : ConsumerPc
  requests : Nat
  responses : Nat
  /-- Taken with the start and end time stamps of the current round. -/
  begun : Snapshot
  ended : Snapshot
  samples : List Sample

/-- Right after the fork: all flags are 0. -/
def State.init : State :=
  { tso := { memory := fun _ => 0, buffer := fun _ => [] }
    producer := .waitReady
    consumer := .start
    requests := 0
    responses := 0
    begun := ⟨0, 0⟩
    ended := ⟨0, 0⟩
    samples := [] }

def State.load (s : State) (p : Party) (f : Flag) : UInt32 :=
  s.tso.load p f

def State.store (s : State) (p : Party) (f : Flag) (v : UInt32) : State :=
  { s with tso := s.tso.store p f v }

/-! ## Steps -/

/-- The head of the two counting loops of the parent. -/
def enterRound (r : Rounds) (k : Nat) : ProducerPc :=
  if k ≤ r.warmup then .request k
  -- Only a measured round reads the time stamp counter first.
  else if k ≤ r.warmup + r.iterations then .readStart k
  else .stop

def stepProducer (r : Rounds) (s : State) : State :=
  match s.producer with
  | .waitReady =>
      if s.load .producer .consumerReady = 1 then { s with producer := enterRound r 1 } else s
  | .readStart k => { s with producer := .request k, begun := ⟨s.requests, s.responses⟩ }
  | .request k =>
      { s.store .producer .request 1 with producer := .pollResponse k, requests := s.requests + 1 }
  -- The response is looked at before the stop flag, in every round of the wait.
  | .pollResponse k =>
      if s.load .producer .response = 1 then
        { s with producer := if k ≤ r.warmup then .reset k else .readEnd k }
      else
        { s with producer := .pollStop k }
  | .pollStop k =>
      if s.load .producer .stop ≠ 0 then { s with producer := .stop }
      else { s with producer := .pollResponse k }
  | .readEnd k => { s with producer := .reset k, ended := ⟨s.requests, s.responses⟩ }
  | .reset k =>
      { s.store .producer .response 0 with
        producer := enterRound r (k + 1)
        samples :=
          if k ≤ r.warmup then s.samples else s.samples ++ [⟨k, s.begun, s.ended⟩] }
  | .stop => { s.store .producer .stop 1 with producer := .done }
  | .done => s

def stepConsumer (s : State) : State :=
  match s.consumer with
  | .start => { s.store .consumer .consumerReady 1 with consumer := .checkStop }
  -- `for (;;)` looks at the stop flag itself before it waits.
  | .checkStop =>
      if s.load .consumer .stop ≠ 0 then { s with consumer := .exited }
      else { s with consumer := .pollRequest }
  | .pollRequest =>
      if s.load .consumer .request = 1 then { s with consumer := .clear }
      else { s with consumer := .pollStop }
  | .pollStop =>
      if s.load .consumer .stop ≠ 0 then { s with consumer := .exited }
      else { s with consumer := .pollRequest }
  | .clear => { s.store .consumer .request 0 with consumer := .respond }
  | .respond =>
      { s.store .consumer .response 1 with
        consumer := .checkStop
        responses := s.responses + 1 }
  | .exited => s

/-- `wait_for_value` returns false in the parent, and every such return leads to the stop flag. -/
def timeOutProducer (s : State) : State :=
  match s.producer with
  | .waitReady | .pollResponse _ | .pollStop _ => { s with producer := .stop }
  | _ => s

/-- `wait_for_value` returns false in the child, which leaves its loop and exits. -/
def timeOutConsumer (s : State) : State :=
  match s.consumer with
  | .pollRequest | .pollStop => { s with consumer := .exited }
  | _ => s

inductive Action
  | step (p : Party)
  | drain (p : Party)
  | timeOut (p : Party)
  /-- The child dies; what it has buffered may still drain. -/
  | die
  deriving DecidableEq, Repr

def step (r : Rounds) (s : State) : Action → State
  | .step .producer => stepProducer r s
  | .step .consumer => stepConsumer s
  | .drain p => { s with tso := s.tso.drain p }
  | .timeOut .producer => timeOutProducer s
  | .timeOut .consumer => timeOutConsumer s
  | .die => { s with consumer := .exited }

def run (r : Rounds) (actions : List Action) : State :=
  actions.foldl (step r) State.init

/-! ## The invariant -/

/-- The flags that both processes write. -/
def handshake : Flag → Bool
  | .request | .response => true
  | .consumerReady | .stop => false

/-- The consumer is outside of the two stores that answer a request. -/
def ConsumerPc.Listening : ConsumerPc → Prop
  | .clear | .respond => False
  | _ => True

/-- The producer is between two rounds, `n` requests lying behind it. -/
def ProducerPc.Between (n : Nat) : ProducerPc → Prop
  | .waitReady => n = 0
  | .readStart k | .request k => k = n + 1
  | .stop | .done => True
  | _ => False

/-- The producer waits for the response to its `n`-th request, or has given up on it. -/
def ProducerPc.Waiting (n : Nat) : ProducerPc → Prop
  | .pollResponse k | .pollStop k => k = n
  | .stop | .done => True
  | _ => False

/-- The producer has seen the response to its `n`-th request. -/
def ProducerPc.Seen (n : Nat) : ProducerPc → Prop
  | .readEnd k | .reset k => k = n
  | _ => False

/-- The handshake part of a state: both flags in memory, both restricted store buffers, both
program counters and both counters. -/
inductive Phase : UInt32 → UInt32 → List (Flag × UInt32) → List (Flag × UInt32) →
    ProducerPc → ConsumerPc → Nat → Nat → Prop
  /-- Every request is answered and every response taken back. -/
  | idle {p : ProducerPc} {c : ConsumerPc} {n : Nat} (hp : p.Between n) (hc : c.Listening) :
      Phase 0 0 [] [] p c n n
  | idleReset {p : ProducerPc} {c : ConsumerPc} {n : Nat} (hp : p.Between n) (hc : c.Listening) :
      Phase 0 1 [(.response, 0)] [] p c n n
  /-- A request is on its way to the consumer. -/
  | requestedReset {p : ProducerPc} {c : ConsumerPc} {n : Nat} (hp : p.Waiting (n + 1))
      (hc : c.Listening) : Phase 0 1 [(.response, 0), (.request, 1)] [] p c (n + 1) n
  | requested {p : ProducerPc} {c : ConsumerPc} {n : Nat} (hp : p.Waiting (n + 1))
      (hc : c.Listening) : Phase 0 0 [(.request, 1)] [] p c (n + 1) n
  | posted {p : ProducerPc} {c : ConsumerPc} {n : Nat} (hp : p.Waiting (n + 1))
      (hc : c.Listening ∨ c = .clear) : Phase 1 0 [] [] p c (n + 1) n
  /-- The consumer has taken the request back. -/
  | cleared {p : ProducerPc} {c : ConsumerPc} {n : Nat} (hp : p.Waiting (n + 1))
      (hc : c = .respond ∨ c = .exited) : Phase 1 0 [] [(.request, 0)] p c (n + 1) n
  | clearedDrained {p : ProducerPc} {c : ConsumerPc} {n : Nat} (hp : p.Waiting (n + 1))
      (hc : c = .respond ∨ c = .exited) : Phase 0 0 [] [] p c (n + 1) n
  /-- The response is on its way to the producer. -/
  | answeredBoth {p : ProducerPc} {c : ConsumerPc} {n : Nat} (hp : p.Waiting n)
      (hc : c.Listening) : Phase 1 0 [] [(.request, 0), (.response, 1)] p c n n
  | answered {p : ProducerPc} {c : ConsumerPc} {n : Nat} (hp : p.Waiting n) (hc : c.Listening) :
      Phase 0 0 [] [(.response, 1)] p c n n
  | delivered {p : ProducerPc} {c : ConsumerPc} {n : Nat} (hp : p.Waiting n ∨ p.Seen n)
      (hc : c.Listening) : Phase 0 1 [] [] p c n n

namespace Phase

variable {mr ms v : UInt32} {f : Flag} {pb cb rest : List (Flag × UInt32)} {p p' : ProducerPc}
  {c c' : ConsumerPc} {a n k : Nat}

/-! Moves that change no flag. -/

theorem moveProducer (h : Phase mr ms pb cb p c a n) (hbetween : p.Between n → p'.Between n)
    (hwaiting : p.Waiting a → p'.Waiting a) (hseen : p.Seen n → p'.Seen n) :
    Phase mr ms pb cb p' c a n := by
  cases h with
  | idle hp hc => exact idle (hbetween hp) hc
  | idleReset hp hc => exact idleReset (hbetween hp) hc
  | requestedReset hp hc => exact requestedReset (hwaiting hp) hc
  | requested hp hc => exact requested (hwaiting hp) hc
  | posted hp hc => exact posted (hwaiting hp) hc
  | cleared hp hc => exact cleared (hwaiting hp) hc
  | clearedDrained hp hc => exact clearedDrained (hwaiting hp) hc
  | answeredBoth hp hc => exact answeredBoth (hwaiting hp) hc
  | answered hp hc => exact answered (hwaiting hp) hc
  | delivered hp hc =>
      rcases hp with hp | hp
      · exact delivered (Or.inl (hwaiting hp)) hc
      · exact delivered (Or.inr (hseen hp)) hc

/-- A consumer outside of the two answering stores moves freely there. -/
theorem moveListening (h : Phase mr ms pb cb p c a n) (hc : c.Listening) (hlive : c ≠ .exited)
    (hc' : c'.Listening) : Phase mr ms pb cb p c' a n := by
  cases h with
  | idle hp _ => exact idle hp hc'
  | idleReset hp _ => exact idleReset hp hc'
  | requestedReset hp _ => exact requestedReset hp hc'
  | requested hp _ => exact requested hp hc'
  | posted hp _ => exact posted hp (Or.inl hc')
  | cleared hp hc₀ =>
      rcases hc₀ with rfl | rfl
      · exact hc.elim
      · exact absurd rfl hlive
  | clearedDrained hp hc₀ =>
      rcases hc₀ with rfl | rfl
      · exact hc.elim
      · exact absurd rfl hlive
  | answeredBoth hp _ => exact answeredBoth hp hc'
  | answered hp _ => exact answered hp hc'
  | delivered hp _ => exact delivered hp hc'

theorem exit (h : Phase mr ms pb cb p c a n) : Phase mr ms pb cb p .exited a n := by
  -- Whatever the consumer has buffered is still in the phase it dies in.
  cases h with
  | idle hp _ => exact idle hp trivial
  | idleReset hp _ => exact idleReset hp trivial
  | requestedReset hp _ => exact requestedReset hp trivial
  | requested hp _ => exact requested hp trivial
  | posted hp _ => exact posted hp (Or.inl trivial)
  | cleared hp _ => exact cleared hp (Or.inr rfl)
  | clearedDrained hp _ => exact clearedDrained hp (Or.inr rfl)
  | answeredBoth hp _ => exact answeredBoth hp trivial
  | answered hp _ => exact answered hp trivial
  | delivered hp _ => exact delivered hp trivial

/-! The four stores of the handshake. -/

theorem issue (h : Phase mr ms pb cb (.request k) c a n) :
    a = n ∧ k = n + 1 ∧ Phase mr ms (pb ++ [(.request, 1)]) cb (.pollResponse k) c (a + 1) n := by
  cases h with
  | idle hp hc => exact ⟨rfl, hp, requested hp hc⟩
  | idleReset hp hc => exact ⟨rfl, hp, requestedReset hp hc⟩
  -- A delivered response is still to be taken back, so no request can be issued.
  | delivered hp hc => exact (hp.elim id id).elim
  | _ => exact ‹ProducerPc.Waiting _ (ProducerPc.request k)›.elim

theorem takeBack (h : Phase mr ms pb cb (.reset k) c a n) (hp' : p'.Between k) :
    a = n ∧ k = n ∧ Phase mr ms (pb ++ [(.response, 0)]) cb p' c a n := by
  cases h with
  | idle hp hc => exact hp.elim
  | idleReset hp hc => exact hp.elim
  | delivered hp hc =>
      rcases hp with hp | hp
      · exact hp.elim
      · have hk : k = a := hp
        subst hk
        exact ⟨rfl, rfl, idleReset hp' hc⟩
  | _ => exact ‹ProducerPc.Waiting _ (ProducerPc.reset k)›.elim

theorem clear (h : Phase mr ms pb cb p .clear a n) :
    Phase mr ms pb (cb ++ [(.request, 0)]) p .respond a n := by
  cases h with
  | posted hp _ => exact cleared hp (Or.inl rfl)
  | cleared _ hc => rcases hc with hc | hc <;> cases hc
  | clearedDrained _ hc => rcases hc with hc | hc <;> cases hc
  | _ => exact ‹ConsumerPc.Listening .clear›.elim

theorem respond (h : Phase mr ms pb cb p .respond a n) :
    a = n + 1 ∧ Phase mr ms pb (cb ++ [(.response, 1)]) p .checkStop a (n + 1) := by
  cases h with
  | posted _ hc =>
      rcases hc with hc | hc
      · exact hc.elim
      · cases hc
  | cleared hp _ => exact ⟨rfl, answeredBoth hp trivial⟩
  | clearedDrained hp _ => exact ⟨rfl, answered hp trivial⟩
  | _ => exact ‹ConsumerPc.Listening .respond›.elim

/-! The two loads on which a process advances. -/

theorem see (h : Phase mr ms pb cb (.pollResponse k) c a n)
    (hload : (latest .response pb).getD ms = 1) (hp' : p'.Seen k) :
    a = n ∧ k = n ∧ Phase mr ms pb cb p' c a n := by
  cases h with
  | idle hp _ => exact hp.elim
  | idleReset hp _ => exact hp.elim
  | delivered hp hc =>
      rcases hp with hp | hp
      · have hk : k = a := hp
        subst hk
        exact ⟨rfl, rfl, delivered (Or.inr hp') hc⟩
      · exact hp.elim
  -- In every other phase the producer reads 0, from its own buffer or from memory.
  | _ => exact absurd hload (by decide)

theorem take (h : Phase mr ms pb cb p .pollRequest a n)
    (hload : (latest .request cb).getD mr = 1) : Phase mr ms pb cb p .clear a n := by
  cases h with
  | posted hp _ => exact posted hp (Or.inr rfl)
  -- A request that has been taken back is behind the poll.
  | cleared _ hc => rcases hc with hc | hc <;> cases hc
  | clearedDrained _ hc => rcases hc with hc | hc <;> cases hc
  | _ => exact absurd hload (by decide)

/-! Drains. -/

theorem drainProducer (h : Phase mr ms ((f, v) :: rest) cb p c a n) :
    Phase (if .request = f then v else mr) (if .response = f then v else ms) rest cb p c a n := by
  cases h with
  | idleReset hp hc => exact idle hp hc
  | requestedReset hp hc => exact requested hp hc
  | requested hp hc => exact posted hp (Or.inl hc)

theorem drainConsumer (h : Phase mr ms pb ((f, v) :: rest) p c a n) :
    Phase (if .request = f then v else mr) (if .response = f then v else ms) pb rest p c a n := by
  cases h with
  | cleared hp hc => exact clearedDrained hp hc
  | answeredBoth hp hc => exact answered hp hc
  | answered hp hc => exact delivered (Or.inl hp) hc

/-! What the program counters say about the counters. -/

theorem counts_of_readStart (h : Phase mr ms pb cb (.readStart k) c a n) : a = n ∧ k = n + 1 := by
  cases h with
  | idle hp _ => exact ⟨rfl, hp⟩
  | idleReset hp _ => exact ⟨rfl, hp⟩
  | delivered hp _ => exact (hp.elim id id).elim
  | _ => exact ‹ProducerPc.Waiting _ (ProducerPc.readStart k)›.elim

theorem counts_of_seen (h : Phase mr ms pb cb p c a n) (hp : p = .readEnd k ∨ p = .reset k) :
    a = n ∧ k = n := by
  have hnot : ∀ j, ¬ p.Waiting j ∧ ¬ p.Between j := by
    intro j
    rcases hp with rfl | rfl <;> exact ⟨id, id⟩
  cases h with
  | idle hb _ => exact absurd hb (hnot _).2
  | idleReset hb _ => exact absurd hb (hnot _).2
  | delivered hd _ =>
      rcases hd with hw | hs
      · exact absurd hw (hnot _).1
      · rcases hp with rfl | rfl <;> exact ⟨rfl, hs⟩
  | _ => exact absurd ‹ProducerPc.Waiting _ p› (hnot _).1

/-- A consumer that answers has exactly one request before it. -/
theorem counts_of_answering (h : Phase mr ms pb cb p c a n) (hc : c = .clear ∨ c = .respond) :
    a = n + 1 := by
  have hnot : ¬ c.Listening := by
    rcases hc with rfl | rfl <;> exact id
  cases h with
  | idle _ hl => exact absurd hl hnot
  | idleReset _ hl => exact absurd hl hnot
  | answeredBoth _ hl => exact absurd hl hnot
  | answered _ hl => exact absurd hl hnot
  | delivered _ hl => exact absurd hl hnot
  | _ => rfl

/-- A request is open at most once. -/
theorem requests_le (h : Phase mr ms pb cb p c a n) : n ≤ a ∧ a ≤ n + 1 := by
  cases h <;> omega

end Phase

def State.InPhase (s : State) : Prop :=
  Phase (s.tso.memory .request) (s.tso.memory .response) (s.tso.pending handshake .producer)
    (s.tso.pending handshake .consumer) s.producer s.consumer s.requests s.responses

end PingPong
end SharedMemory
end LatencyAnalyzer
