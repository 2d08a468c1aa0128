import LatencyAnalyzer.Latency.Measurer

/-!
# Samples — the benchmarks as functions of the timed sections

Every benchmark takes its timed sections in one order: the warm-up first, then the samples of all
rounds.  So a run of calls cuts the stream of section times into consecutive windows, and what a
call returns is computed from its own window only.
-/

namespace LatencyAnalyzer
namespace Latency

open Cxx

/-- What one step of a timed section cost, by the time of the whole section. -/
def cost (steps : Nat) (overhead elapsed : UInt64) : ℚ :=
  ((subtractOverhead elapsed overhead).toNat : ℚ) / (steps : ℚ)

section Samples

variable {abi : Abi}

/-- The costs of the timed sections `first`, `first + 1`, ... -/
def LatencyMeasurer.costs (o : LatencyMeasurer abi) (steps first count : Nat) : List ℚ :=
  (List.range' first count).map fun k => cost steps o.timerOverheadCycles (o.timing k)

/-! ## Sections that have passed -/

/-- `n` timed sections lie between two states of an object. -/
structure Ticks (n : Nat) (o o' : LatencyMeasurer abi) : Prop where
  timing : o'.timing = o.timing
  overhead : o'.timerOverheadCycles = o.timerOverheadCycles
  nodeCount : o'.nodeCount = o.nodeCount
  cacheLineSize : o'.cacheLineSize = o.cacheLineSize
  clock : o'.clock = o.clock + n

theorem Ticks.refl (o : LatencyMeasurer abi) : Ticks 0 o o :=
  ⟨rfl, rfl, rfl, rfl, rfl⟩

theorem Ticks.trans {n n' : Nat} {o o' o'' : LatencyMeasurer abi} (h : Ticks n o o')
    (h' : Ticks n' o' o'') : Ticks (n + n') o o'' where
  timing := h'.timing.trans h.timing
  overhead := h'.overhead.trans h.overhead
  nodeCount := h'.nodeCount.trans h.nodeCount
  cacheLineSize := h'.cacheLineSize.trans h.cacheLineSize
  clock := by
    calc
      o''.clock = o'.clock + n' := h'.clock
      _ = o.clock + n + n' := by rw [h.clock]
      _ = o.clock + (n + n') := Nat.add_assoc _ _ _

/-- A counting loop whose rounds all take `n` sections; `view` finds the object in its state. -/
theorem ticks_foldl {β : Type*} (view : β → LatencyMeasurer abi) {step : β → Nat → β} {n : Nat}
    (hstep : ∀ b i, Ticks n (view b) (view (step b i))) (count : Nat) (b : β) :
    Ticks (count * n) (view b) (view ((List.range count).foldl step b)) := by
  induction count with
  | zero =>
      rw [Nat.zero_mul]
      exact Ticks.refl _
  | succ count ih =>
      rw [List.range_succ, List.foldl_append, Nat.succ_mul]
      exact ih.trans (hstep _ count)

theorem ticks_storeNext (o : LatencyMeasurer abi) (i value : Nat) :
    Ticks 0 o (o.storeNext i value) :=
  ⟨rfl, rfl, rfl, rfl, rfl⟩

theorem ticks_loadNext (o : LatencyMeasurer abi) (pointer : Nat) :
    Ticks 0 o (o.loadNext pointer).2 := by
  unfold LatencyMeasurer.loadNext
  split
  · exact ⟨rfl, rfl, rfl, rfl, rfl⟩
  · exact ⟨rfl, rfl, rfl, rfl, rfl⟩

theorem ticks_chase (start steps : Nat) (o : LatencyMeasurer abi) :
    Ticks 0 o (chase start steps o).2 := by
  unfold chase
  exact ticks_foldl (fun st : Nat × LatencyMeasurer abi => st.2)
    (fun st _ => ticks_loadNext st.2 st.1) steps (start, o)

/-! ### Rings -/

theorem ticks_buildSelfLoop (o : LatencyMeasurer abi) : Ticks 0 o (buildSelfLoop o) :=
  ticks_storeNext o 0 _

theorem ticks_buildRandomRing (lib : Library) (seed : UInt64) (o : LatencyMeasurer abi) :
    Ticks 0 o (buildRandomRing lib seed o) := by
  have hshuffled : Ticks 0 o (shuffled lib seed o) := ⟨rfl, rfl, rfl, rfl, rfl⟩
  -- Linking stores one address in every round.
  exact hshuffled.trans (ticks_foldl id (fun o' _ => ticks_storeNext o' _ _) _ _)

theorem ticks_buildStrideRing (strideBytes : Nat) (o : LatencyMeasurer abi) :
    Ticks 0 o (buildStrideRing strideBytes o) :=
  ticks_foldl id (fun o' _ => ticks_storeNext o' _ _) _ o

/-! ## One sample -/

/-- A routine that takes one section and returns its cost. -/
structure TakesSection (steps : Nat) (sample : LatencyMeasurer abi → ℚ × LatencyMeasurer abi) :
    Prop where
  value : ∀ o, (sample o).1 = cost steps o.timerOverheadCycles (o.timing o.clock)
  ticks : ∀ o, Ticks 1 o (sample o).2

theorem TakesSection.after {steps : Nat}
    {sample : LatencyMeasurer abi → ℚ × LatencyMeasurer abi} (h : TakesSection steps sample)
    {before : LatencyMeasurer abi → LatencyMeasurer abi} (hbefore : ∀ o, Ticks 0 o (before o)) :
    TakesSection steps fun o => sample (before o) where
  value := by
    intro o
    have hclock : (before o).clock = o.clock := (hbefore o).clock
    rw [h.value, (hbefore o).overhead, (hbefore o).timing, hclock]
  ticks := fun o => (hbefore o).trans (h.ticks (before o))

theorem takesSection_perStep (steps : Nat) :
    TakesSection steps (perStep steps : LatencyMeasurer abi → ℚ × LatencyMeasurer abi) where
  value := fun _ => rfl
  ticks := fun _ => ⟨rfl, rfl, rfl, rfl, rfl⟩

theorem takesSection_timedPointerChase (start : Nat) :
    TakesSection kLatencyBatch
      (timedPointerChase start kLatencyBatch :
        LatencyMeasurer abi → ℚ × LatencyMeasurer abi) := by
  refine (takesSection_perStep kLatencyBatch).after fun o => ?_
  -- The walk and the update of `sink_` come before the second time stamp is evaluated.
  have hchase := ticks_chase start kLatencyBatch o
  exact ⟨hchase.timing, hchase.overhead, hchase.nodeCount, hchase.cacheLineSize, hchase.clock⟩

theorem takesSection_timedStoreBatch :
    TakesSection kStoreBatch
      (timedStoreBatch kStoreBatch : LatencyMeasurer abi → ℚ × LatencyMeasurer abi) :=
  (takesSection_perStep kStoreBatch).after fun o =>
    ticks_foldl id (fun o' _ => ticks_storeNext o' _ _) kStoreBatch o

theorem ticks_emit (o : LatencyMeasurer abi) (a : Access) : Ticks 0 o (o.emit a) :=
  ⟨rfl, rfl, rfl, rfl, rfl⟩

theorem ticks_flushRandomPath (startPosition steps : Nat) (o : LatencyMeasurer abi) :
    Ticks 0 o (flushRandomPath startPosition steps o) :=
  (ticks_foldl id (fun o' _ => ticks_emit o' _) steps o).trans (ticks_emit _ .fence)

theorem takesSection_missSample (startPosition : Nat) :
    TakesSection kLatencyBatch
      (missSample startPosition : LatencyMeasurer abi → ℚ × LatencyMeasurer abi) where
  value := by
    intro o
    have hflushed := ticks_flushRandomPath startPosition kLatencyBatch o
    have hclock : (flushRandomPath startPosition kLatencyBatch o).clock = o.clock := hflushed.clock
    show (timedPointerChase _ kLatencyBatch (flushRandomPath startPosition kLatencyBatch o)).1 = _
    rw [(takesSection_timedPointerChase _).value, hflushed.overhead, hflushed.timing, hclock]
  ticks := fun o =>
    (ticks_flushRandomPath startPosition kLatencyBatch o).trans
      ((takesSection_timedPointerChase _).ticks _)

/-! ## Many samples -/

/-- The first `k` samples taken from `o` on, and the object after them. -/
structure Taken (steps : Nat) (o : LatencyMeasurer abi) (k : Nat)
    (st : List ℚ × LatencyMeasurer abi) : Prop where
  samples : st.1 = o.costs steps o.clock k
  ticks : Ticks k o st.2

theorem taken_nil (steps : Nat) (o : LatencyMeasurer abi) : Taken steps o 0 ([], o) :=
  ⟨rfl, Ticks.refl o⟩

theorem Taken.concat {steps k : Nat} {o o' : LatencyMeasurer abi}
    {st : List ℚ × LatencyMeasurer abi} (h : Taken steps o k st) {value : ℚ}
    (hvalue : value = cost steps st.2.timerOverheadCycles (st.2.timing st.2.clock))
    (hticks : Ticks 1 st.2 o') : Taken steps o (k + 1) (st.1 ++ [value], o') where
  samples := by
    unfold LatencyMeasurer.costs
    rw [List.range'_concat, List.map_append, hvalue, h.ticks.overhead, h.ticks.timing,
      h.ticks.clock, Nat.one_mul]
    exact congrArg (· ++ _) h.samples
  ticks := h.ticks.trans hticks

theorem Taken.takeSample {steps k : Nat} {o : LatencyMeasurer abi}
    {st : List ℚ × LatencyMeasurer abi} (h : Taken steps o k st)
    {sample : LatencyMeasurer abi → ℚ × LatencyMeasurer abi} (hsample : TakesSection steps sample) :
    Taken steps o (k + 1) (takeSample sample st) :=
  h.concat (hsample.value st.2) (hsample.ticks st.2)

/-- A counting loop whose rounds take `n` samples each. -/
theorem Taken.foldl {β : Type*} (view : β → List ℚ × LatencyMeasurer abi) {step : β → Nat → β}
    {steps n : Nat} {o : LatencyMeasurer abi}
    (hstep : ∀ k b i, Taken steps o k (view b) → Taken steps o (k + n) (view (step b i)))
    {k : Nat} {b : β} (h : Taken steps o k (view b)) (count : Nat) :
    Taken steps o (k + count * n) (view ((List.range count).foldl step b)) := by
  induction count with
  | zero =>
      rw [Nat.zero_mul]
      exact h
  | succ count ih =>
      rw [List.range_succ, List.foldl_append, Nat.succ_mul, ← Nat.add_assoc]
      exact hstep _ _ count ih

theorem Taken.length {steps k : Nat} {o : LatencyMeasurer abi} {st : List ℚ × LatencyMeasurer abi}
    (h : Taken steps o k st) : st.1.length = k := by
  rw [h.samples, LatencyMeasurer.costs, List.length_map, List.length_range']

theorem taken_measuredRounds {steps : Nat} (rounds iterations : Nat)
    {sample : Nat → Nat → LatencyMeasurer abi → ℚ × LatencyMeasurer abi}
    (hsample : ∀ round i, TakesSection steps (sample round i)) (o : LatencyMeasurer abi) :
    Taken steps o (rounds * iterations) (measuredRounds rounds iterations sample o) := by
  have hround : ∀ k (st : List ℚ × LatencyMeasurer abi) round, Taken steps o k st →
      Taken steps o (k + iterations)
        ((List.range iterations).foldl (fun st' i => takeSample (sample round i) st') st) := by
    intro k st round hst
    have hloop := hst.foldl id (n := 1) (fun _ _ i hst' => hst'.takeSample (hsample round i))
      iterations
    rw [Nat.mul_one] at hloop
    exact hloop
  have hrounds := (taken_nil steps o).foldl id hround rounds
  rw [Nat.zero_add] at hrounds
  exact hrounds

/-! ### Strides -/

/-- A stride sample takes one section, and then one more load that is not timed. -/
theorem takesSection_strideSample (current : Nat) (o : LatencyMeasurer abi) :
    (strideSample current o).1 = cost kLatencyBatch o.timerOverheadCycles (o.timing o.clock) ∧
      Ticks 1 o (strideSample current o).2.2 := by
  have hchase : TakesSection kLatencyBatch
      (timedPointerChase current kLatencyBatch : LatencyMeasurer abi → _) :=
    takesSection_timedPointerChase current
  exact ⟨hchase.value o, (hchase.ticks o).trans (ticks_loadNext _ current)⟩

theorem ticks_strideWarmup (warmup start : Nat) (o : LatencyMeasurer abi) :
    Ticks warmup o (strideWarmup warmup start o).2 := by
  have hloop := ticks_foldl (fun st : Nat × LatencyMeasurer abi => st.2)
    (fun st _ => (takesSection_strideSample st.1 st.2).2) warmup (start, o)
  rw [Nat.mul_one] at hloop
  exact hloop

theorem taken_strideRounds (rounds iterations : Nat) (o : LatencyMeasurer abi) :
    Taken kLatencyBatch o (rounds * iterations) (strideRounds rounds iterations o) := by
  have hround : ∀ k (st : List ℚ × LatencyMeasurer abi) (round : Nat),
      Taken kLatencyBatch o k st → Taken kLatencyBatch o (k + iterations)
        (strideRound iterations (st.2.address (round % st.2.nodeCount)) st) := by
    intro k st round hst
    -- The pointer of the loop moves along; only the samples and the object matter here.
    let next : Nat × List ℚ × LatencyMeasurer abi → Nat → Nat × List ℚ × LatencyMeasurer abi :=
      fun st' _ =>
        let value := strideSample st'.1 st'.2.2
        (value.2.1, st'.2.1 ++ [value.1], value.2.2)
    have hnext : ∀ k st' i, Taken kLatencyBatch o k st'.2 →
        Taken kLatencyBatch o (k + 1) (next st' i).2 := by
      intro k st' _ hst'
      have hsample := takesSection_strideSample st'.1 st'.2.2
      exact hst'.concat hsample.1 hsample.2
    have hloop := Taken.foldl (fun st' => st'.2) hnext
      (b := (st.2.address (round % st.2.nodeCount), st)) hst iterations
    rw [Nat.mul_one] at hloop
    exact hloop
  have hrounds := (taken_nil kLatencyBatch o).foldl id hround rounds
  rw [Nat.zero_add] at hrounds
  exact hrounds

/-! ## What a call returns -/

/-- What a call returns; the three plain benchmarks return one result. -/
def callResults (lib : Library) (o : LatencyMeasurer abi) :
    Call abi → Except Thrown (List (MeasurementResult abi))
  | .measureHit iterations warmup rounds =>
      (measureHit lib iterations warmup rounds o).1.map fun result => [result]
  | .measureForcedMiss iterations warmup rounds =>
      (measureForcedMiss lib iterations warmup rounds o).1.map fun result => [result]
  | .measureStore iterations warmup rounds =>
      (measureStore lib iterations warmup rounds o).1.map fun result => [result]
  | .measureStrides strides iterations warmup rounds =>
      (measureStrides lib strides iterations warmup rounds o).1

/-- The result whose samples are the sections `first`, `first + 1`, ... -/
def LatencyMeasurer.result (o : LatencyMeasurer abi) (label : String) (steps first count : Nat) :
    MeasurementResult abi :=
  { label := label
    stats := Statistics.summarize Rat.sqrt (o.costs steps first count)
    timerOverheadCycles := BitVec.ofNat _ o.timerOverheadCycles.toNat }

/-- The exception that a call throws before its first section, if any. -/
def Call.refusal (lib : Library) (nodeCount : Nat) : Call abi → Option Thrown
  | .measureHit iterations warmup rounds =>
      if iterations ≤ 0 ∨ warmup < 0 ∨ rounds ≤ 0 then
        some (.invalidArgument "Invalid hit benchmark configuration")
      else
        none
  | .measureForcedMiss iterations warmup rounds =>
      if iterations ≤ 0 ∨ warmup < 0 ∨ rounds ≤ 0 ∨ nodeCount < 64 then
        some (.invalidArgument "Invalid forced-miss benchmark configuration")
      else if lib.resizeOrder nodeCount then
        none
      else
        some .allocation
  | .measureStore iterations warmup rounds =>
      if iterations ≤ 0 ∨ warmup < 0 ∨ rounds ≤ 0 then
        some (.invalidArgument "Invalid store benchmark configuration")
      else
        none
  | .measureStrides strides iterations warmup rounds =>
      if iterations ≤ 0 ∨ warmup < 0 ∨ rounds ≤ 0 then
        some (.invalidArgument "Invalid stride benchmark configuration")
      else if lib.reserveResults strides.length then
        none
      else
        some .allocation

/-- The room that the samples of one benchmark find: for themselves, and for the copy of them that
is sorted. -/
structure Room where
  reserved : Bool
  copied : Bool

def Library.room (lib : Library) (abi : Abi) (iterations rounds : Int) : Room :=
  { reserved := lib.reserveSamples (sampleCapacity abi iterations rounds)
    copied := lib.copySamples (rounds.toNat * iterations.toNat) }

/-- There is room for a result. -/
def Room.fits (room : Room) : Bool :=
  room.reserved && room.copied

theorem Room.reserved_of_fits {room : Room} (h : room.fits = true) : room.reserved = true :=
  (Bool.and_eq_true_iff.1 h).1

/-- What a call measures: one benchmark for each label, all with the same loops. -/
structure Series where
  labels : List String
  /-- The steps of one timed section. -/
  steps : Nat
  iterations : Int
  warmup : Int
  rounds : Int

def Series.single (label : String) (steps : Nat) (iterations warmup rounds : Int) : Series :=
  { labels := [label]
    steps := steps
    iterations := iterations
    warmup := warmup
    rounds := rounds }

/-- The timed sections that count towards one result. -/
def Series.samples (s : Series) : Nat :=
  s.rounds.toNat * s.iterations.toNat

/-- The timed sections of one benchmark, its warm-up included. -/
def Series.length (s : Series) : Nat :=
  s.warmup.toNat + s.samples

/-- The label of a stride, which names the stride that is walked. -/
def strideLabel (cacheLineSize : Nat) (rawStride : SizeT abi) : String :=
  "Stride " ++ toString (strideOf cacheLineSize rawStride.toNat) ++ " B (dependent pointer chase)"

def Call.series (cacheLineSize : Nat) : Call abi → Series
  | .measureHit iterations warmup rounds =>
      .single "Cache Hit (L1 pointer-chasing latency)" kLatencyBatch iterations warmup rounds
  | .measureForcedMiss iterations warmup rounds =>
      .single "Forced Cache Miss (random pointer chase + CLFLUSH)" kLatencyBatch
        iterations warmup rounds
  | .measureStore iterations warmup rounds =>
      .single "Store (hot lines; issue throughput per store)" kStoreBatch iterations warmup rounds
  | .measureStrides strides iterations warmup rounds =>
      { labels := strides.map (strideLabel cacheLineSize)
        steps := kLatencyBatch
        iterations := iterations
        warmup := warmup
        rounds := rounds }

/-- The benchmarks of a series one after the other, from the section `first` on: the warm-up
counts for nothing, and a failed allocation ends the series. -/
def LatencyMeasurer.outcomes (o : LatencyMeasurer abi) (room : Room) (s : Series) :
    List String → Nat → Except Thrown (List (MeasurementResult abi))
  | [], _ => .ok []
  | label :: labels, first =>
      if room.fits then
        (o.outcomes room s labels (first + s.length)).map fun results =>
          o.result label s.steps (first + s.warmup.toNat) s.samples :: results
      else
        .error .allocation

/-- The timed sections of one benchmark: without room for its samples it ends behind its warm-up. -/
def Series.taken (room : Room) (s : Series) : Nat :=
  if room.reserved then s.length else s.warmup.toNat

/-- The timed sections that a series takes. -/
def Series.sections (room : Room) (s : Series) : List String → Nat
  | [] => 0
  | _ :: labels => s.taken room + if room.fits then s.sections room labels else 0

@[simp]
theorem Series.sections_singleton (room : Room) (s : Series) (label : String) :
    s.sections room [label] = s.taken room := by
  simp [Series.sections]

/-- What a call returns when its first section is `first`, from the section times alone. -/
def Call.outcome (lib : Library) (o : LatencyMeasurer abi) (first : Nat) (call : Call abi) :
    Except Thrown (List (MeasurementResult abi)) :=
  match call.refusal lib o.nodeCount with
  | some thrown => .error thrown
  | none =>
      let s := call.series o.cacheLineSize
      o.outcomes (lib.room abi s.iterations s.rounds) s s.labels first

/-- The timed sections that a call takes. -/
def Call.sections (lib : Library) (o : LatencyMeasurer abi) (call : Call abi) : Nat :=
  match call.refusal lib o.nodeCount with
  | some _ => 0
  | none =>
      let s := call.series o.cacheLineSize
      s.sections (lib.room abi s.iterations s.rounds) s.labels

/-! ### An object after some sections gives the same answers -/

theorem Ticks.result {n : Nat} {o o' : LatencyMeasurer abi} (h : Ticks n o o') (label : String)
    (steps first count : Nat) : o'.result label steps first count =
      o.result label steps first count := by
  unfold LatencyMeasurer.result LatencyMeasurer.costs
  rw [h.timing, h.overhead]

theorem Ticks.outcomes {n : Nat} {o o' : LatencyMeasurer abi} (h : Ticks n o o') (room : Room)
    (s : Series) (labels : List String) (first : Nat) :
    o'.outcomes room s labels first = o.outcomes room s labels first := by
  induction labels generalizing first with
  | nil => rfl
  | cons label labels ih =>
      unfold LatencyMeasurer.outcomes
      rw [ih, h.result]

theorem Ticks.outcome {n : Nat} {o o' : LatencyMeasurer abi} (h : Ticks n o o') (lib : Library)
    (first : Nat) (call : Call abi) : call.outcome lib o' first = call.outcome lib o first := by
  unfold Call.outcome
  rw [h.nodeCount, h.cacheLineSize]
  cases call.refusal lib o.nodeCount with
  | some thrown => rfl
  | none => exact h.outcomes _ _ _ first

theorem Ticks.sections {n : Nat} {o o' : LatencyMeasurer abi} (h : Ticks n o o') (lib : Library)
    (call : Call abi) : call.sections lib o' = call.sections lib o := by
  unfold Call.sections
  rw [h.nodeCount, h.cacheLineSize]

/-! ### One call -/

/-- A benchmark whose warm-up has passed: its samples come from the sections after that. -/
theorem report_taken (lib : Library) (label : String) {iterations rounds : Int}
    {measured : LatencyMeasurer abi → List ℚ × LatencyMeasurer abi} {steps warmup : Nat}
    {o warm : LatencyMeasurer abi} (hwarm : Ticks warmup o warm)
    (hmeasured : Taken steps warm (rounds.toNat * iterations.toNat) (measured warm)) :
    report lib label iterations rounds measured warm =
      if lib.reserveSamples (sampleCapacity abi iterations rounds) then
        if lib.copySamples (rounds.toNat * iterations.toNat) then
          (.ok (o.result label steps (o.clock + warmup) (rounds.toNat * iterations.toNat)),
            (measured warm).2)
        else
          (.error .allocation, (measured warm).2)
      else
        (.error .allocation, warm) := by
  unfold report
  split
  · dsimp only
    rw [hmeasured.length]
    have hresult : o.result label steps (o.clock + warmup) (rounds.toNat * iterations.toNat) =
        warm.result label steps warm.clock (rounds.toNat * iterations.toNat) := by
      rw [hwarm.clock]
      exact (hwarm.result label steps _ _).symm
    rw [hresult]
    unfold LatencyMeasurer.result
    rw [← hmeasured.samples, ← hmeasured.ticks.overhead]
  · rfl

/-- One benchmark returns what the section times say, and takes as many sections as they do. -/
structure Measures (room : Room) (label : String) (s : Series) (o : LatencyMeasurer abi)
    (r : Except Thrown (MeasurementResult abi) × LatencyMeasurer abi) : Prop where
  result : r.1 =
    if room.fits then .ok (o.result label s.steps (o.clock + s.warmup.toNat) s.samples)
    else .error .allocation
  ticks : Ticks (s.taken room) o r.2

theorem measures_report (lib : Library) (label : String) (s : Series)
    {measured : LatencyMeasurer abi → List ℚ × LatencyMeasurer abi}
    {o warm : LatencyMeasurer abi} (hwarm : Ticks s.warmup.toNat o warm)
    (hmeasured : Taken s.steps warm s.samples (measured warm)) :
    Measures (lib.room abi s.iterations s.rounds) label s o
      (report lib label s.iterations s.rounds measured warm) := by
  rw [report_taken lib label hwarm hmeasured]
  unfold Library.room
  cases lib.reserveSamples (sampleCapacity abi s.iterations s.rounds) with
  | true =>
      cases lib.copySamples (s.rounds.toNat * s.iterations.toNat) with
      | true => exact ⟨rfl, hwarm.trans hmeasured.ticks⟩
      | false => exact ⟨rfl, hwarm.trans hmeasured.ticks⟩
  | false => exact ⟨rfl, hwarm⟩

/-- A call returns what the section times say, and takes as many sections as they do. -/
structure Answers (lib : Library) (o : LatencyMeasurer abi) (call : Call abi) : Prop where
  results : callResults lib o call = call.outcome lib o o.clock
  ticks : Ticks (call.sections lib o) o (runCall lib o call)

/-- Work between the sections does not count. -/
theorem Ticks.after {n : Nat} {o o' o'' : LatencyMeasurer abi} (h : Ticks n o' o'')
    (hbefore : Ticks 0 o o') : Ticks n o o'' := by
  have htotal := hbefore.trans h
  rw [Nat.zero_add] at htotal
  exact htotal

/-- The place of a sample may depend on the object. -/
theorem takesSection_at {sample : Nat → LatencyMeasurer abi → ℚ × LatencyMeasurer abi}
    {steps : Nat} (h : ∀ place, TakesSection steps (sample place))
    (place : LatencyMeasurer abi → Nat) : TakesSection steps fun o => sample (place o) o where
  value := fun o => (h (place o)).value o
  ticks := fun o => (h (place o)).ticks o

theorem ticks_warmup {sample : Nat → LatencyMeasurer abi → ℚ × LatencyMeasurer abi} {steps : Nat}
    (h : ∀ i, TakesSection steps (sample i)) (count : Nat) (o : LatencyMeasurer abi) :
    Ticks count o ((List.range count).foldl (fun o' i => (sample i o').2) o) := by
  have hloop := ticks_foldl id (fun o' i => (h i).ticks o') count o
  rw [Nat.mul_one] at hloop
  exact hloop

/-! ### The benchmarks -/

theorem answers_of_refusal (lib : Library) (o : LatencyMeasurer abi) (call : Call abi)
    {thrown : Thrown} (hrefusal : call.refusal lib o.nodeCount = some thrown)
    (hresults : callResults lib o call = .error thrown) (hrun : runCall lib o call = o) :
    Answers lib o call where
  results := by
    rw [hresults, Call.outcome, hrefusal]
  ticks := by
    rw [hrun, Call.sections, hrefusal]
    exact Ticks.refl o

/-- The plain benchmarks answer with the one result that they measure. -/
theorem answers_of_measures (lib : Library) (o : LatencyMeasurer abi) (call : Call abi)
    {label : String} {r : Except Thrown (MeasurementResult abi) × LatencyMeasurer abi}
    (hrefusal : call.refusal lib o.nodeCount = none)
    (hlabels : (call.series o.cacheLineSize).labels = [label])
    (hr : Measures (lib.room abi (call.series o.cacheLineSize).iterations
      (call.series o.cacheLineSize).rounds) label (call.series o.cacheLineSize) o r)
    (hresults : callResults lib o call = r.1.map fun result => [result])
    (hrun : runCall lib o call = r.2) : Answers lib o call where
  results := by
    rw [hresults, hr.result, Call.outcome, hrefusal]
    dsimp only
    rw [hlabels]
    unfold LatencyMeasurer.outcomes
    split
    · rfl
    · rfl
  ticks := by
    rw [hrun, Call.sections, hrefusal]
    dsimp only
    rw [hlabels, Series.sections_singleton]
    exact hr.ticks

theorem answers_measureHit (lib : Library) (iterations warmup rounds : Int)
    (o : LatencyMeasurer abi) : Answers lib o (.measureHit iterations warmup rounds) := by
  by_cases hinvalid : iterations ≤ 0 ∨ warmup < 0 ∨ rounds ≤ 0
  · apply answers_of_refusal lib o (.measureHit iterations warmup rounds) (if_pos hinvalid)
    · simp only [callResults, measureHit, if_pos hinvalid]
      rfl
    · simp only [runCall, measureHit, if_pos hinvalid]
  · have hchase : TakesSection kLatencyBatch (timedPointerChase ((buildSelfLoop o).address 0)
        kLatencyBatch : LatencyMeasurer abi → _) := takesSection_timedPointerChase _
    have hwarm := (ticks_warmup (fun _ => hchase) warmup.toNat (buildSelfLoop o)).after
      (ticks_buildSelfLoop o)
    apply answers_of_measures lib o (.measureHit iterations warmup rounds) (if_neg hinvalid) rfl
      (measures_report lib _ _ hwarm (taken_measuredRounds rounds.toNat iterations.toNat
        (fun _ _ => hchase) _))
    · simp only [callResults, measureHit, if_neg hinvalid]
      rfl
    · simp only [runCall, measureHit, if_neg hinvalid]
      rfl

theorem answers_measureForcedMiss (lib : Library) (iterations warmup rounds : Int)
    (o : LatencyMeasurer abi) : Answers lib o (.measureForcedMiss iterations warmup rounds) := by
  by_cases hinvalid : iterations ≤ 0 ∨ warmup < 0 ∨ rounds ≤ 0 ∨ o.nodeCount < 64
  · apply answers_of_refusal lib o (.measureForcedMiss iterations warmup rounds) (if_pos hinvalid)
    · simp only [callResults, measureForcedMiss, if_pos hinvalid]
      rfl
    · simp only [runCall, measureForcedMiss, if_pos hinvalid]
  by_cases hresize : lib.resizeOrder o.nodeCount = true
  · have hmiss : ∀ place, TakesSection kLatencyBatch
        (missSample place : LatencyMeasurer abi → _) := takesSection_missSample
    have hwarm := (ticks_warmup (fun i => takesSection_at hmiss fun o' =>
      i % o'.randomOrder.length) warmup.toNat _).after
        (ticks_buildRandomRing lib 0xC0FFEE123456789 o)
    apply answers_of_measures lib o (.measureForcedMiss iterations warmup rounds)
      ((if_neg hinvalid).trans (if_pos hresize)) rfl
      (measures_report lib _ _ hwarm (taken_measuredRounds rounds.toNat iterations.toNat
        (fun round i => takesSection_at hmiss fun o' =>
          startPosition abi iterations.toNat o'.randomOrder.length round i) _))
    · simp only [callResults, measureForcedMiss, if_neg hinvalid, if_pos hresize]
      rfl
    · simp only [runCall, measureForcedMiss, if_neg hinvalid, if_pos hresize]
      rfl
  · apply answers_of_refusal lib o (.measureForcedMiss iterations warmup rounds)
      ((if_neg hinvalid).trans (if_neg hresize))
    · simp only [callResults, measureForcedMiss, if_neg hinvalid, if_neg hresize]
      rfl
    · simp only [runCall, measureForcedMiss, if_neg hinvalid, if_neg hresize]

theorem answers_measureStore (lib : Library) (iterations warmup rounds : Int)
    (o : LatencyMeasurer abi) : Answers lib o (.measureStore iterations warmup rounds) := by
  by_cases hinvalid : iterations ≤ 0 ∨ warmup < 0 ∨ rounds ≤ 0
  · apply answers_of_refusal lib o (.measureStore iterations warmup rounds) (if_pos hinvalid)
    · simp only [callResults, measureStore, if_pos hinvalid]
      rfl
    · simp only [runCall, measureStore, if_pos hinvalid]
  · have hbatch : TakesSection kStoreBatch
        (timedStoreBatch kStoreBatch : LatencyMeasurer abi → _) := takesSection_timedStoreBatch
    have hwarm := ticks_warmup (fun _ => hbatch) warmup.toNat o
    apply answers_of_measures lib o (.measureStore iterations warmup rounds) (if_neg hinvalid) rfl
      (measures_report lib _ _ hwarm (taken_measuredRounds rounds.toNat iterations.toNat
        (fun _ _ => hbatch) _))
    · simp only [callResults, measureStore, if_neg hinvalid]
      rfl
    · simp only [runCall, measureStore, if_neg hinvalid]
      rfl

/-! ### Strides in a row -/

theorem measures_measureStride (lib : Library) (rawStride : SizeT abi) (s : Series)
    (hsteps : s.steps = kLatencyBatch) (o : LatencyMeasurer abi) :
    Measures (lib.room abi s.iterations s.rounds)
      (strideLabel o.cacheLineSize rawStride) s o
      (measureStride lib rawStride s.iterations s.warmup s.rounds o) := by
  have hring := ticks_buildStrideRing (strideOf o.cacheLineSize rawStride.toNat) o
  have hwarm := fun start => (ticks_strideWarmup s.warmup.toNat start _).after hring
  apply measures_report lib _ s (hwarm _)
  rw [hsteps]
  exact taken_strideRounds s.rounds.toNat s.iterations.toNat _

/-- What the loop over the strides leaves behind, from any results on. -/
theorem measureStridesLoop_outcomes (lib : Library) (s : Series)
    (hsteps : s.steps = kLatencyBatch) {room : Room}
    (hroom : lib.room abi s.iterations s.rounds = room)
    (strides : List (SizeT abi)) (results : List (MeasurementResult abi))
    (o : LatencyMeasurer abi) :
    (measureStridesLoop lib s.iterations s.warmup s.rounds strides results o).1 =
        (o.outcomes room s (strides.map (strideLabel o.cacheLineSize)) o.clock).map
          (results ++ ·) ∧
      Ticks (s.sections room (strides.map (strideLabel o.cacheLineSize))) o
        (measureStridesLoop lib s.iterations s.warmup s.rounds strides results o).2 := by
  induction strides generalizing results o with
  | nil =>
      refine ⟨?_, Ticks.refl o⟩
      exact congrArg Except.ok (List.append_nil results).symm
  | cons rawStride strides ih =>
      have hstride := measures_measureStride lib rawStride s hsteps o
      rw [hroom] at hstride
      unfold measureStridesLoop
      generalize measureStride lib rawStride s.iterations s.warmup s.rounds o = r at hstride ⊢
      obtain ⟨outcome, o'⟩ := r
      obtain ⟨hresult, hticks⟩ := hstride
      dsimp only at hresult hticks
      simp only [List.map_cons, LatencyMeasurer.outcomes, Series.sections]
      cases hfits : room.fits with
      | false =>
          rw [hfits, if_neg Bool.false_ne_true] at hresult
          rw [hresult]
          exact ⟨rfl, hticks⟩
      | true =>
          -- A benchmark that has a result has taken all of its sections.
          have hreserved := Room.reserved_of_fits hfits
          rw [Series.taken, if_pos hreserved] at hticks
          rw [hfits, if_pos rfl] at hresult
          rw [hresult, Series.taken, if_pos hreserved]
          -- The later strides see the sections after this one, and the same object otherwise.
          have hrest := ih (results ++ [o.result (strideLabel o.cacheLineSize rawStride) s.steps
            (o.clock + s.warmup.toNat) s.samples]) o'
          rw [hticks.cacheLineSize, hticks.outcomes, hticks.clock] at hrest
          refine ⟨hrest.1.trans ?_, hticks.trans hrest.2⟩
          cases o.outcomes room s (strides.map (strideLabel o.cacheLineSize))
              (o.clock + s.length) with
          | error thrown => rfl
          | ok later => exact congrArg Except.ok (List.append_assoc _ _ later)

theorem answers_measureStrides (lib : Library) (strides : List (SizeT abi))
    (iterations warmup rounds : Int) (o : LatencyMeasurer abi) :
    Answers lib o (.measureStrides strides iterations warmup rounds) := by
  by_cases hinvalid : iterations ≤ 0 ∨ warmup < 0 ∨ rounds ≤ 0
  · apply answers_of_refusal lib o (.measureStrides strides iterations warmup rounds)
      (if_pos hinvalid)
    · simp only [callResults, measureStrides, if_pos hinvalid]
    · simp only [runCall, measureStrides, if_pos hinvalid]
  · by_cases hreserve : lib.reserveResults strides.length = true
    · have hloop := measureStridesLoop_outcomes lib
        ((Call.measureStrides strides iterations warmup rounds).series o.cacheLineSize) rfl rfl
        strides [] o
      have hrefusal : (Call.measureStrides strides iterations warmup rounds).refusal lib
          o.nodeCount = none := (if_neg hinvalid).trans (if_pos hreserve)
      constructor
      · simp only [callResults, measureStrides, if_neg hinvalid, if_pos hreserve]
        refine hloop.1.trans ?_
        rw [Call.outcome, hrefusal]
        exact congrFun Except.map_id _
      · simp only [runCall, measureStrides, if_neg hinvalid, if_pos hreserve]
        rw [Call.sections, hrefusal]
        exact hloop.2
    · apply answers_of_refusal lib o (.measureStrides strides iterations warmup rounds)
        ((if_neg hinvalid).trans (if_neg hreserve))
      · simp only [callResults, measureStrides, if_neg hinvalid, if_neg hreserve]
      · simp only [runCall, measureStrides, if_neg hinvalid, if_neg hreserve]

/-! ## A run of calls -/

theorem answers_call (lib : Library) (o : LatencyMeasurer abi) (call : Call abi) :
    Answers lib o call := by
  cases call with
  | measureHit iterations warmup rounds => exact answers_measureHit lib iterations warmup rounds o
  | measureForcedMiss iterations warmup rounds =>
      exact answers_measureForcedMiss lib iterations warmup rounds o
  | measureStore iterations warmup rounds =>
      exact answers_measureStore lib iterations warmup rounds o
  | measureStrides strides iterations warmup rounds =>
      exact answers_measureStrides lib strides iterations warmup rounds o

theorem ticks_runCalls (lib : Library) (calls : List (Call abi)) (o : LatencyMeasurer abi) :
    Ticks (calls.map (Call.sections lib o)).sum o (runCalls lib o calls) := by
  induction calls generalizing o with
  | nil => exact Ticks.refl o
  | cons call calls ih =>
      have hcall := (answers_call lib o call).ticks
      have hsections : Call.sections lib (runCall lib o call) = Call.sections lib o := by
        funext later
        exact hcall.sections lib later
      have hrest := ih (runCall lib o call)
      rw [hsections] at hrest
      exact hcall.trans hrest

/-- After any calls, a call returns what the section times in its own window say: the windows of
the calls follow one another without gaps or overlaps, and a warm-up counts for nothing. -/
theorem callResults_runCalls (lib : Library) (o : LatencyMeasurer abi) (calls : List (Call abi))
    (call : Call abi) :
    callResults lib (runCalls lib o calls) call =
      call.outcome lib o (o.clock + (calls.map (Call.sections lib o)).sum) := by
  have hbefore := ticks_runCalls lib calls o
  calc
    callResults lib (runCalls lib o calls) call =
        call.outcome lib (runCalls lib o calls) (runCalls lib o calls).clock :=
      (answers_call lib _ call).results
    _ = call.outcome lib o (runCalls lib o calls).clock := hbefore.outcome lib _ call
    _ = call.outcome lib o (o.clock + (calls.map (Call.sections lib o)).sum) := by
      rw [hbefore.clock]

/-! ### All results of a run -/

/-- The calls of a caller that passes on the first exception, with the results in one list. -/
def runResults (lib : Library) (o : LatencyMeasurer abi) :
    List (Call abi) → Except Thrown (List (MeasurementResult abi))
  | [] => .ok []
  | call :: calls =>
      match callResults lib o call with
      | .error thrown => .error thrown
      | .ok results => (runResults lib (runCall lib o call) calls).map (results ++ ·)

/-- The same from the section times alone. -/
def runOutcome (lib : Library) (o : LatencyMeasurer abi) :
    List (Call abi) → Nat → Except Thrown (List (MeasurementResult abi))
  | [], _ => .ok []
  | call :: calls, first =>
      match call.outcome lib o first with
      | .error thrown => .error thrown
      | .ok results =>
          (runOutcome lib o calls (first + call.sections lib o)).map (results ++ ·)

theorem Ticks.runOutcome {n : Nat} {o o' : LatencyMeasurer abi} (h : Ticks n o o') (lib : Library)
    (calls : List (Call abi)) (first : Nat) :
    Latency.runOutcome lib o' calls first = Latency.runOutcome lib o calls first := by
  induction calls generalizing first with
  | nil => rfl
  | cons call calls ih =>
      unfold Latency.runOutcome
      rw [h.outcome, h.sections, ih]

theorem runResults_eq (lib : Library) (calls : List (Call abi)) (o : LatencyMeasurer abi) :
    runResults lib o calls = runOutcome lib o calls o.clock := by
  induction calls generalizing o with
  | nil => rfl
  | cons call calls ih =>
      have hcall := answers_call lib o call
      unfold runResults runOutcome
      rw [hcall.results, ih, hcall.ticks.runOutcome, hcall.ticks.clock]

/-- Without a failed allocation, the `j`-th benchmark of a series has the `j`-th window. -/
theorem outcomes_eq_zipIdx (o : LatencyMeasurer abi) {room : Room} (hfits : room.fits = true)
    (s : Series) (labels : List String) (first : Nat) :
    o.outcomes room s labels first = .ok (labels.zipIdx.map fun place =>
      o.result place.1 s.steps (first + place.2 * s.length + s.warmup.toNat) s.samples) := by
  induction labels generalizing first with
  | nil => rfl
  | cons label labels ih =>
      unfold LatencyMeasurer.outcomes
      rw [if_pos hfits, ih, List.zipIdx_cons', List.map_cons, List.map_map, Nat.zero_mul]
      refine congrArg (fun later => Except.ok (_ :: later)) (List.map_congr_left ?_)
      rintro ⟨later, j⟩ _
      -- The later windows are counted from the second benchmark on.
      have hwindow : first + s.length + j * s.length = first + (j + 1) * s.length := by ring
      exact congrArg (fun window => o.result later s.steps (window + s.warmup.toNat) s.samples)
        hwindow

/-! ## A new object -/

/-- No section has been timed on a new object, and the time stamps are those of the system. -/
structure Fresh (sys : System) (o : LatencyMeasurer abi) : Prop where
  clock : o.clock = 0
  timing : o.timing = sys.timing
  overhead : Timer.measureOverheadCycles sys.reserveCycles sys.stamps 2000 =
    .ok o.timerOverheadCycles

theorem fresh_setUp {sys : System} {numaNode : Int} {bufferSize base : Nat}
    {o : LatencyMeasurer abi} (h : setUp abi sys numaNode bufferSize base = .ok o) :
    Fresh sys o := by
  unfold setUp at h
  split at h
  · rename_i cycles hcycles
    cases h
    have hlinked : Ticks 0 (allocated abi sys numaNode bufferSize base)
        (linkToSelf (allocated abi sys numaNode bufferSize base)) :=
      ticks_foldl id (fun o' _ => ticks_storeNext o' _ _) _ _
    -- The overhead is measured between the two loops over the nodes.
    have htouched : ∀ o : LatencyMeasurer abi, Ticks 0 o (touchPages (buildSelfLoop o)) :=
      fun o => (ticks_buildSelfLoop o).trans
        (ticks_foldl id (fun o' _ => ticks_storeNext o' _ _) _ _)
    have hset := htouched
      ((linkToSelf (allocated abi sys numaNode bufferSize base)).withOverhead cycles)
    refine ⟨hset.clock.trans hlinked.clock, hset.timing.trans hlinked.timing, ?_⟩
    rw [hcycles]
    exact congrArg Except.ok hset.overhead.symm
  · cases h

theorem fresh_construct {sys : System} {requested cacheLineSize : SizeT abi} {numaNode : Int}
    {o : LatencyMeasurer abi} (h : construct sys requested cacheLineSize numaNode = .ok o) :
    Fresh sys o := by
  unfold construct at h
  dsimp only at h
  split at h
  · split at h
    · split at h
      · exact fresh_setUp h
      · cases h
    · cases h
  · split at h
    · exact fresh_setUp h
    · cases h

end Samples

end Latency
end LatencyAnalyzer
