import LatencyAnalyzer.SharedMemory.Measurer

/-!
# Cleanup — what the parent has released when control leaves `measure_cross_process`

The function releases by hand on each of its exits.  All returns settle the ledger; an exception
behind the fork leaves the view, the name and the child behind.
-/

namespace LatencyAnalyzer
namespace SharedMemory

open Lib

/-! ## Runs end -/

theorem pollUntil_returns {w : Watch} {expected : UInt32} {checkStop : Bool} {deadline : UInt64}
    {n : Nat} (hclock : ∀ now, w.clock (n + 1) = some now → deadline ≤ now) {fuel i : Nat}
    (hi : i ≤ n) (hfuel : n < i + fuel) :
    ∃ outcome, pollUntil w expected checkStop deadline fuel i = some outcome := by
  induction fuel generalizing i with
  | zero => omega
  | succ fuel ih =>
      unfold pollUntil
      split
      · exact ⟨_, rfl⟩
      · rename_i now hnow
        split
        · rename_i hbefore
          split
          · exact ⟨_, rfl⟩
          · have hne : i ≠ n := by
              rintro rfl
              exact absurd (hclock now hnow) (UInt64.not_le.2 hbefore)
            exact ih (by omega) (by omega)
        · exact ⟨_, rfl⟩

/-- A wait ends once its clock has reached the deadline. -/
theorem waitForValue_returns {w : Watch} {n : Nat}
    (hclock : ∀ start now, w.clock 0 = some start → w.clock (n + 1) = some now →
      start + UInt64.ofNat Config.shmTimeoutMs * 1000000 ≤ now)
    (expected : UInt32) (checkStop : Bool) {fuel : Nat} (hfuel : n < fuel) :
    ∃ outcome, waitForValue w expected checkStop fuel = some outcome := by
  unfold waitForValue
  split
  · exact ⟨_, rfl⟩
  · split
    · exact ⟨_, rfl⟩
    · rename_i start hstart
      exact pollUntil_returns (fun now hnow => hclock start now hstart hnow) (Nat.zero_le n)
        (by omega)

theorem warmupLoop_returns {w : World} {fuel : Nat}
    (hwaits : ∀ k, ∃ outcome, w.wait fuel k = some outcome) (rounds k : Nat) :
    ∃ outcome, warmupLoop w fuel rounds k = some outcome := by
  induction rounds generalizing k with
  | zero => exact ⟨_, rfl⟩
  | succ rounds ih =>
      rcases hwaits k with ⟨outcome, hwait⟩
      unfold warmupLoop
      rw [hwait]
      cases outcome with
      | found => exact ih (k + 1)
      | gaveUp => exact ⟨_, rfl⟩
      | threw => exact ⟨_, rfl⟩

/-- The measured rounds fail as warm-up rounds would. -/
theorem measureLoop_outcome (w : World) (fuel rounds k : Nat) (samples : List UInt64) :
    match warmupLoop w fuel rounds k with
    | none => measureLoop w fuel rounds k samples = none
    | some .threw => measureLoop w fuel rounds k samples = some (.error .clock)
    | some _ => ∃ run, measureLoop w fuel rounds k samples = some (.ok run) := by
  induction rounds generalizing k samples with
  | zero => exact ⟨_, rfl⟩
  | succ rounds ih =>
      unfold warmupLoop measureLoop
      rcases w.wait fuel k with _ | outcome
      · rfl
      · cases outcome with
        | found => exact ih (k + 1) _
        | gaveUp => exact ⟨_, rfl⟩
        | threw => rfl

theorem measureLoop_returns {w : World} {fuel : Nat}
    (hwaits : ∀ k, ∃ outcome, w.wait fuel k = some outcome) (rounds k : Nat)
    (samples : List UInt64) : ∃ out, measureLoop w fuel rounds k samples = some out := by
  have hmeasured := measureLoop_outcome w fuel rounds k samples
  rcases warmupLoop_returns hwaits rounds k with ⟨outcome, hwarm⟩
  rw [hwarm] at hmeasured
  -- Only a flag that is seen leads to another round, in both loops alike.
  cases outcome with
  | threw => exact ⟨_, hmeasured⟩
  | found =>
      rcases hmeasured with ⟨run, hrun⟩
      exact ⟨_, hrun⟩
  | gaveUp =>
      rcases hmeasured with ⟨run, hrun⟩
      exact ⟨_, hrun⟩

theorem runParent_returns {w : World} {fuel : Nat}
    (hwaits : ∀ k, ∃ outcome, w.wait fuel k = some outcome) (pid : Int)
    (result : SharedMemoryResult) (iterations warmup : Int) :
    ∃ out, runParent w fuel pid result iterations warmup = some out := by
  rcases hwaits 0 with ⟨ready, hready⟩
  rcases warmupLoop_returns hwaits warmup.toNat 1 with ⟨warm, hwarm⟩
  rcases measureLoop_returns hwaits iterations.toNat (1 + warmup.toNat) [] with ⟨run, hrun⟩
  unfold runParent
  rw [hready, hwarm, hrun]
  cases ready with
  | gaveUp => exact ⟨_, rfl⟩
  | threw => exact ⟨_, rfl⟩
  | found =>
      cases warm with
      | gaveUp => exact ⟨_, rfl⟩
      | threw => exact ⟨_, rfl⟩
      | found =>
          dsimp only
          split
          · cases run with
            | ok run =>
                dsimp only
                split <;> exact ⟨_, rfl⟩
            | error thrown => exact ⟨_, rfl⟩
          · exact ⟨_, rfl⟩

/-- Control leaves the function once the clock has reached every deadline that it sets. -/
theorem measureCrossProcess_returns {w : World} {n : Nat}
    (hclock : ∀ k start now, (w.waits k).clock 0 = some start →
      (w.waits k).clock (n + 1) = some now →
        start + UInt64.ofNat Config.shmTimeoutMs * 1000000 ≤ now)
    {fuel : Nat} (hfuel : n < fuel) (iterations warmup producerCpu consumerCpu : Int) :
    ∃ out, measureCrossProcess w fuel iterations warmup producerCpu consumerCpu = some out := by
  have hwaits : ∀ k, ∃ outcome, w.wait fuel k = some outcome := by
    intro k
    unfold World.wait
    exact waitForValue_returns (hclock k) 1 _ hfuel
  unfold measureCrossProcess
  dsimp only
  split
  · exact ⟨_, rfl⟩
  split
  · exact ⟨_, rfl⟩
  split
  · exact ⟨_, rfl⟩
  split
  · exact ⟨_, rfl⟩
  split
  · exact ⟨_, rfl⟩
  split
  · exact ⟨_, rfl⟩
  split
  · exact ⟨_, rfl⟩
  · rename_i pid _
    rcases runParent_returns hwaits pid _ iterations warmup with ⟨out, hout⟩
    rw [hout]
    exact ⟨_, rfl⟩

/-! ## Waits in a row -/

/-- The first `n` waits of the run all see their flag. -/
def World.AllFound (w : World) (fuel n : Nat) : Prop :=
  ∀ k < n, w.wait fuel k = some .found

/-- The first wait that does not see its flag is one of the waits from `first` to `last - 1`, and
its clock fails. -/
def World.ThrowsIn (w : World) (fuel first last : Nat) : Prop :=
  ∃ k, first ≤ k ∧ k < last ∧ w.AllFound fuel k ∧ w.wait fuel k = some .threw

theorem warmupLoop_found_iff (w : World) (fuel rounds k : Nat) :
    warmupLoop w fuel rounds k = some .found ↔
      ∀ j, k ≤ j → j < k + rounds → w.wait fuel j = some .found := by
  induction rounds generalizing k with
  | zero =>
      constructor
      · intro _ j hlo hhi
        omega
      · exact fun _ => rfl
  | succ rounds ih =>
      unfold warmupLoop
      by_cases hfound : w.wait fuel k = some .found
      · rw [hfound]
        dsimp only
        rw [ih]
        constructor
        · intro h j hlo hhi
          rcases Nat.eq_or_lt_of_le hlo with rfl | hlt
          · exact hfound
          · exact h j hlt (by omega)
        · intro h j hlo hhi
          exact h j (by omega) (by omega)
      · constructor
        · intro h
          split at h
          · exact absurd ‹_› hfound
          · exact absurd h hfound
        · intro h
          exact absurd (h k le_rfl (by omega)) hfound

theorem warmupLoop_threw_iff (w : World) (fuel rounds k : Nat) :
    warmupLoop w fuel rounds k = some .threw ↔
      ∃ i, k ≤ i ∧ i < k + rounds ∧ (∀ j, k ≤ j → j < i → w.wait fuel j = some .found) ∧
        w.wait fuel i = some .threw := by
  induction rounds generalizing k with
  | zero =>
      constructor
      · intro h
        cases h
      · rintro ⟨i, hlo, hhi, _⟩
        omega
  | succ rounds ih =>
      unfold warmupLoop
      by_cases hfound : w.wait fuel k = some .found
      · rw [hfound]
        dsimp only
        rw [ih]
        constructor
        · rintro ⟨i, hlo, hhi, hbefore, hthrew⟩
          refine ⟨i, by omega, by omega, ?_, hthrew⟩
          intro j hj hji
          rcases Nat.eq_or_lt_of_le hj with rfl | hlt
          · exact hfound
          · exact hbefore j hlt hji
        · rintro ⟨i, hlo, hhi, hbefore, hthrew⟩
          -- Wait `k` sees its flag, so the one that throws comes later.
          have hne : i ≠ k := by
            rintro rfl
            rw [hfound] at hthrew
            cases hthrew
          exact ⟨i, by omega, by omega, fun j hj hji => hbefore j (by omega) hji, hthrew⟩
      · constructor
        · intro h
          split at h
          · exact absurd ‹_› hfound
          · exact ⟨k, le_rfl, by omega, fun j hj hjk => by omega, h⟩
        · rintro ⟨i, hlo, hhi, hbefore, hthrew⟩
          have hik : i = k := by
            by_contra hne
            exact hfound (hbefore k le_rfl (by omega))
          subst hik
          rw [hthrew]

/-! ## Interrupted runs -/

/-- Every call up to and including the fork succeeds. -/
structure World.Forks (w : World) (iterations warmup producerCpu consumerCpu : Int) : Prop where
  iterations : 0 < iterations
  warmup : 0 ≤ warmup
  producerCpu : 0 ≤ producerCpu
  consumerCpu : 0 ≤ consumerCpu
  nameClock : w.nameClock ≠ none
  shmOpen : 0 ≤ w.shmOpen
  ftruncate : w.ftruncate = 0
  mmap : w.mmap ≠ none
  fork : w.fork ≠ none

/-- An exception in the parent: the clock fails in a wait that the parent reaches, or the samples
cannot be reserved after a complete warm-up. -/
def World.Interrupted (w : World) (fuel : Nat) (iterations warmup : Int) : Prop :=
  w.ThrowsIn fuel 0 (1 + warmup.toNat) ∨
    (w.AllFound fuel (1 + warmup.toNat) ∧
      (w.reserve iterations.toNat = false ∨
        w.ThrowsIn fuel (1 + warmup.toNat) (1 + warmup.toNat + iterations.toNat)))

theorem allFound_iff (w : World) (fuel rounds : Nat) :
    w.AllFound fuel (1 + rounds) ↔
      w.wait fuel 0 = some .found ∧ warmupLoop w fuel rounds 1 = some .found := by
  rw [warmupLoop_found_iff]
  constructor
  · intro h
    exact ⟨h 0 (by omega), fun j _ hhi => h j hhi⟩
  · rintro ⟨hzero, hrest⟩ k hk
    rcases Nat.eq_zero_or_pos k with rfl | hpos
    · exact hzero
    · exact hrest k hpos hk

theorem throwsIn_first_iff (w : World) (fuel rounds : Nat) :
    w.ThrowsIn fuel 0 (1 + rounds) ↔
      w.wait fuel 0 = some .threw ∨
        (w.wait fuel 0 = some .found ∧ warmupLoop w fuel rounds 1 = some .threw) := by
  rw [warmupLoop_threw_iff]
  constructor
  · rintro ⟨k, _, hk, hbefore, hthrew⟩
    -- Wait 0 is the one for the consumer; the warm-up makes the others.
    rcases Nat.eq_zero_or_pos k with rfl | hpos
    · exact Or.inl hthrew
    · exact Or.inr ⟨hbefore 0 hpos, k, hpos, hk, fun j _ hj => hbefore j hj, hthrew⟩
  · rintro (hthrew | ⟨hzero, k, hlo, hhi, hbefore, hthrew⟩)
    · exact ⟨0, le_rfl, by omega, fun j hj => absurd hj (Nat.not_lt_zero j), hthrew⟩
    · refine ⟨k, Nat.zero_le k, hhi, ?_, hthrew⟩
      intro j hj
      rcases Nat.eq_zero_or_pos j with rfl | hpos
      · exact hzero
      · exact hbefore j hpos hj

theorem throwsIn_measured_iff {w : World} {fuel n : Nat} (hall : w.AllFound fuel n)
    (rounds : Nat) :
    w.ThrowsIn fuel n (n + rounds) ↔ warmupLoop w fuel rounds n = some .threw := by
  rw [warmupLoop_threw_iff]
  constructor
  · rintro ⟨k, hlo, hhi, hbefore, hthrew⟩
    exact ⟨k, hlo, hhi, fun j _ hj => hbefore j hj, hthrew⟩
  · rintro ⟨k, hlo, hhi, hbefore, hthrew⟩
    refine ⟨k, hlo, hhi, ?_, hthrew⟩
    intro j hj
    rcases Nat.lt_or_ge j n with hlt | hge
    · exact hall j hlt
    · exact hbefore j hge hj

/-- The same condition along the control flow of the parent. -/
theorem interrupted_iff (w : World) (fuel : Nat) (iterations warmup : Int) :
    w.Interrupted fuel iterations warmup ↔
      w.wait fuel 0 = some .threw ∨
        (w.wait fuel 0 = some .found ∧
          (warmupLoop w fuel warmup.toNat 1 = some .threw ∨
            (warmupLoop w fuel warmup.toNat 1 = some .found ∧
              (w.reserve iterations.toNat = false ∨
                warmupLoop w fuel iterations.toNat (1 + warmup.toNat) = some .threw)))) := by
  unfold World.Interrupted
  rw [throwsIn_first_iff]
  constructor
  · rintro ((hthrew | hwarmup) | ⟨hall, hrest⟩)
    · exact Or.inl hthrew
    · exact Or.inr ⟨hwarmup.1, Or.inl hwarmup.2⟩
    · rw [throwsIn_measured_iff hall] at hrest
      rw [allFound_iff] at hall
      exact Or.inr ⟨hall.1, Or.inr ⟨hall.2, hrest⟩⟩
  · rintro (hthrew | ⟨hzero, hwarmup | ⟨hwarmup, hrest⟩⟩)
    · exact Or.inl (Or.inl hthrew)
    · exact Or.inl (Or.inr ⟨hzero, hwarmup⟩)
    · have hall := (allFound_iff w fuel warmup.toNat).2 ⟨hzero, hwarmup⟩
      rw [← throwsIn_measured_iff hall] at hrest
      exact Or.inr ⟨hall, hrest⟩

/-! ## Reaping the child -/

/-- `kill` and `waitpid` succeed: a poll finds the child running or reaps it. -/
structure World.Reapable (w : World) : Prop where
  poll : ∀ pid, w.fork = some pid → ∀ i, w.waitpidPoll i = 0 ∨ w.waitpidPoll i = pid
  kill : w.kill = 0
  waitpid : ∀ pid, w.fork = some pid → w.waitpid = pid

theorem pollChild_of_reapable {w : World} (h : w.Reapable) {pid : Int} (hpid : w.fork = some pid)
    (steps i : Nat) : pollChild w pid steps i = none ∨ pollChild w pid steps i = some true := by
  induction steps generalizing i with
  | zero => exact Or.inl rfl
  | succ steps ih =>
      unfold pollChild
      dsimp only
      split
      · exact Or.inr rfl
      · rename_i hne
        -- A poll that does not reap the child finds it running, and the loop goes on.
        rcases h.poll pid hpid i with hrunning | hreaped
        · rw [if_neg (by omega)]
          exact ih (i + 1)
        · exact absurd hreaped hne

theorem waitOrKill_of_reapable {w : World} (h : w.Reapable) {pid : Int}
    (hpid : w.fork = some pid) (steps : Nat) : waitOrKill w pid steps = true := by
  unfold waitOrKill
  rcases pollChild_of_reapable h hpid steps 0 with hpoll | hpoll
  · rw [hpoll]
    dsimp only
    rw [if_neg (by rw [h.kill]; decide), h.waitpid pid hpid]
    exact decide_eq_true rfl
  · rw [hpoll]

theorem abandon_of_reapable {w : World} (h : w.Reapable) {pid : Int} (hpid : w.fork = some pid)
    (steps : Nat) :
    abandon w pid steps = [.release .child, .release .view, .release .name] := by
  unfold abandon
  rw [waitOrKill_of_reapable h hpid]
  rfl

/-! ## The exits -/

/-- What `error_message` can hold at the exits between the check of the numbers and the fork. -/
def earlyMessages : List String :=
  ["Invalid CPU affinity selection", "shm_open failed", "ftruncate failed", "mmap failed",
    "fork failed"]

/-- What it can hold at the exits behind the fork; it is empty after a complete run. -/
def parentMessages : List String :=
  ["", "Consumer did not become ready", "Consumer stopped during warmup",
    "Consumer stopped during measurement", "No successful shared-memory samples"]

theorem measureLoop_message {w : World} {fuel rounds k : Nat} {samples : List UInt64}
    {run : List UInt64 × String} (h : measureLoop w fuel rounds k samples = some (.ok run)) :
    run.2 = "" ∨ run.2 = "Consumer stopped during measurement" := by
  induction rounds generalizing k samples with
  | zero =>
      cases h
      exact Or.inl rfl
  | succ rounds ih =>
      unfold measureLoop at h
      split at h
      · cases h
      · cases h
      · cases h
        exact Or.inr rfl
      · exact ih h

theorem summarizeRun_message (result : SharedMemoryResult) (samples : List UInt64)
    {message : String} (h : message = "" ∨ message = "Consumer stopped during measurement") :
    (summarizeRun result samples message).errorMessage ∈ parentMessages := by
  unfold summarizeRun parentMessages
  rcases h with rfl | rfl
  · by_cases hsamples : samples.isEmpty <;> simp [hsamples]
  · by_cases hsamples : samples.isEmpty <;> simp [hsamples]

/-- What the parent leaves behind the fork: an interrupted one throws and releases nothing, and any
other one leaves through the tail that all the exits share.  Its result is an error from the waits
up to the end of the warm-up, or it is made of the samples; or these find no room. -/
theorem runParent_inversion {w : World} {pid : Int} {fuel : Nat} {base : SharedMemoryResult}
    {iterations warmup : Int} {out : Exit × List (Entry Resource)}
    (hout : runParent w fuel pid base iterations warmup = some out) :
    (w.Interrupted fuel iterations warmup ∧ ∃ what, out = (.threw what, [])) ∨
      (¬ w.Interrupted fuel iterations warmup ∧ ∃ exit steps, out = (exit, abandon w pid steps) ∧
        ((¬ w.AllFound fuel (1 + warmup.toNat) ∧ ∃ result, exit = .returned result ∧
            result.success = base.success ∧ result.errorMessage ∈
              ["Consumer did not become ready", "Consumer stopped during warmup"]) ∨
          (w.AllFound fuel (1 + warmup.toNat) ∧ ∃ samples message,
            measureLoop w fuel iterations.toNat (1 + warmup.toNat) [] =
              some (.ok (samples, message)) ∧
            exit = if samples.isEmpty || w.summarize samples.length then
              .returned (summarizeRun base samples message) else .threw .allocation))) := by
  -- Both branches at the end have released the same.
  have leave : ∀ {c : Prop} [Decidable c] {result log},
      (if c then some (Exit.returned result, log) else some (.threw .allocation, log)) = some out →
        out = (if c then .returned result else .threw .allocation, log) := by
    intro c _ result log h
    split at h <;> cases h <;> simp [*]
  rw [interrupted_iff, allFound_iff]
  unfold runParent at hout
  generalize w.wait fuel 0 = ready at hout ⊢
  rcases ready with _ | ready
  · cases hout
  cases ready with
  | threw =>
      cases hout
      exact Or.inl ⟨Or.inl rfl, _, rfl⟩
  | gaveUp =>
      cases hout
      exact Or.inr ⟨by simp, _, _, rfl, Or.inl ⟨by simp, _, rfl, rfl, by simp⟩⟩
  | found =>
      generalize warmupLoop w fuel warmup.toNat 1 = warm at hout ⊢
      rcases warm with _ | warm
      · cases hout
      cases warm with
      | threw =>
          cases hout
          exact Or.inl ⟨Or.inr ⟨rfl, Or.inl rfl⟩, _, rfl⟩
      | gaveUp =>
          cases hout
          exact Or.inr ⟨by simp, _, _, rfl, Or.inl ⟨by simp, _, rfl, rfl, by simp⟩⟩
      | found =>
          dsimp only at hout
          cases hreserve : w.reserve iterations.toNat with
          | false =>
              rw [hreserve] at hout
              cases hout
              exact Or.inl ⟨Or.inr ⟨rfl, Or.inr ⟨rfl, Or.inl rfl⟩⟩, _, rfl⟩
          | true =>
              -- The measured rounds throw exactly if as many warm-up rounds would.
              have hmeasured := measureLoop_outcome w fuel iterations.toNat (1 + warmup.toNat) []
              rw [hreserve, if_pos rfl] at hout
              generalize warmupLoop w fuel iterations.toNat (1 + warmup.toNat) = last
                at hmeasured ⊢
              rcases last with _ | last
              · dsimp only at hmeasured
                rw [hmeasured] at hout
                cases hout
              cases last with
              | threw =>
                  dsimp only at hmeasured
                  rw [hmeasured] at hout
                  cases hout
                  exact Or.inl ⟨Or.inr ⟨rfl, Or.inr ⟨rfl, Or.inr rfl⟩⟩, _, rfl⟩
              | found =>
                  rcases hmeasured with ⟨⟨samples, message⟩, hrun⟩
                  rw [hrun] at hout
                  exact Or.inr ⟨by simp, _, _, leave hout,
                    Or.inr ⟨⟨rfl, rfl⟩, samples, message, hrun, rfl⟩⟩
              | gaveUp =>
                  rcases hmeasured with ⟨⟨samples, message⟩, hrun⟩
                  rw [hrun] at hout
                  exact Or.inr ⟨by simp, _, _, leave hout,
                    Or.inr ⟨⟨rfl, rfl⟩, samples, message, hrun, rfl⟩⟩

/-- A parent that is not interrupted has released everything, and the message of a result is one of
a few. -/
theorem runParent_cases {w : World} {pid : Int} {fuel : Nat} {result : SharedMemoryResult}
    {iterations warmup : Int} {out : Exit × List (Entry Resource)}
    (hout : runParent w fuel pid result iterations warmup = some out) :
    (w.Interrupted fuel iterations warmup ∧ ∃ what, out = (.threw what, [])) ∨
      (¬ w.Interrupted fuel iterations warmup ∧ ∃ steps, out.2 = abandon w pid steps ∧
        ∀ result', out.1 = .returned result' → result'.errorMessage ∈ parentMessages) := by
  rcases runParent_inversion hout with hthrew | ⟨hcomplete, exit, steps, rfl, hexit⟩
  · exact Or.inl hthrew
  · refine Or.inr ⟨hcomplete, steps, rfl, ?_⟩
    rintro result' rfl
    rcases hexit with ⟨_, _, hreturned, _, hmessage⟩ | ⟨_, samples, message, hloop, hreturned⟩
    · have hsubset : ["Consumer did not become ready", "Consumer stopped during warmup"] ⊆
          parentMessages := by
        simp [parentMessages]
      cases hreturned
      exact hsubset hmessage
    · split at hreturned
      · cases hreturned
        exact summarizeRun_message _ _ (measureLoop_message hloop)
      · cases hreturned

/-! The logs of the exits before the fork. -/

theorem settled_nil : Settled ([] : List (Entry Resource)) := by decide

theorem settled_opened : Settled (opened ++ [.release .descriptor, .release .name]) := by decide

theorem settled_mapped :
    Settled (opened ++ [.acquire .view, .release .descriptor] ++
      [.release .view, .release .name]) := by decide

/-- Before the fork every exit has settled the ledger; behind it the function ends as the parent
does. -/
theorem measureCrossProcess_cases {w : World} {fuel : Nat}
    {iterations warmup producerCpu consumerCpu : Int} {out : Exit × List (Entry Resource)}
    (hout : measureCrossProcess w fuel iterations warmup producerCpu consumerCpu = some out) :
    (¬ w.Forks iterations warmup producerCpu consumerCpu ∧ Settled out.2 ∧
      ∀ result, out.1 = .returned result → result.success = false ∧ result.errorMessage ≠ "" ∧
        (0 < iterations → 0 ≤ warmup → result.errorMessage ∈ earlyMessages)) ∨
      (w.Forks iterations warmup producerCpu consumerCpu ∧ ∃ pid result run,
        w.fork = some pid ∧ result.success = false ∧
          runParent w fuel pid result iterations warmup = some run ∧
          out = (run.1, opened ++ [.acquire .view, .release .descriptor] ++
            .acquire .child :: run.2)) := by
  unfold measureCrossProcess at hout
  dsimp only at hout
  -- One exit after the other, in the order of the source.
  split at hout
  · rename_i hnumbers
    cases hout
    refine Or.inl ⟨?_, settled_nil, ?_⟩
    · rintro ⟨hiterations, hwarmup, _⟩
      omega
    · rintro _ ⟨⟩
      exact ⟨rfl, by simp, fun hiterations hwarmup => absurd hnumbers (by omega)⟩
  split at hout
  · rename_i hcpus
    cases hout
    refine Or.inl ⟨?_, settled_nil, ?_⟩
    · rintro ⟨_, _, hproducer, hconsumer, _⟩
      omega
    · rintro _ ⟨⟩
      simp [earlyMessages]
  split at hout
  · cases hout
    refine Or.inl ⟨fun hforks => hforks.nameClock ‹_›, settled_nil, ?_⟩
    rintro _ ⟨⟩
  split at hout
  · cases hout
    refine Or.inl ⟨fun hforks => absurd hforks.shmOpen (not_le.2 ‹_›), settled_nil, ?_⟩
    rintro _ ⟨⟩
    simp [earlyMessages]
  split at hout
  · cases hout
    refine Or.inl ⟨fun hforks => absurd hforks.ftruncate ‹_›, settled_opened, ?_⟩
    rintro _ ⟨⟩
    simp [earlyMessages]
  split at hout
  · cases hout
    refine Or.inl ⟨fun hforks => hforks.mmap ‹_›, settled_opened, ?_⟩
    rintro _ ⟨⟩
    simp [earlyMessages]
  split at hout
  · cases hout
    refine Or.inl ⟨fun hforks => hforks.fork ‹_›, settled_mapped, ?_⟩
    rintro _ ⟨⟩
    simp [earlyMessages]
  · rename_i hnumbers hcpus hclock hopen htruncate hmap _ pid hpid
    rcases Option.map_eq_some_iff.1 hout with ⟨run, hrun, rfl⟩
    exact Or.inr ⟨⟨by omega, by omega, by omega, by omega, hclock, by omega, not_not.1 htruncate,
      hmap, hpid ▸ Option.some_ne_none pid⟩, pid, _, run, hpid, rfl, hrun, rfl⟩

/-- The ledger of a run is settled unless an exception interrupts the parent behind the fork. -/
theorem measureCrossProcess_settled_iff {w : World} (h : w.Reapable) {fuel : Nat}
    {iterations warmup producerCpu consumerCpu : Int} {out : Exit × List (Entry Resource)}
    (hout : measureCrossProcess w fuel iterations warmup producerCpu consumerCpu = some out) :
    Settled out.2 ↔
      ¬ (w.Forks iterations warmup producerCpu consumerCpu ∧
        w.Interrupted fuel iterations warmup) := by
  rcases measureCrossProcess_cases hout with
    ⟨hforks, hsettled, _⟩ | ⟨hforks, pid, result, run, hpid, _, hrun, rfl⟩
  · exact ⟨fun _ hboth => hforks hboth.1, fun _ => hsettled⟩
  rcases runParent_cases hrun with ⟨hinterrupted, what, rfl⟩ | ⟨hcomplete, steps, hlog, _⟩
  · dsimp only
    refine ⟨fun hsettled => ?_, fun hno => absurd ⟨hforks, hinterrupted⟩ hno⟩
    -- The child is acquired once and never released.
    have hcount := hsettled.count_eq Resource.child
    exact absurd hcount (by decide)
  · dsimp only
    rw [hlog, abandon_of_reapable h hpid]
    exact ⟨fun _ hboth => hcomplete hboth.2, fun _ => by decide⟩

/-- A world in which every wait sees its flag at once. -/
def steadyWorld (capacity : Nat) : World :=
  { nameClock := some 1
    shmOpen := 3
    ftruncate := 0
    mmap := some 4096
    fork := some 4242
    waits := fun _ =>
      { flag := fun _ => 1
        stop := fun _ => 0
        clock := fun i => some (UInt64.ofNat i) }
    reserve := fun count => count ≤ capacity
    summarize := fun count => count ≤ capacity
    ticks := fun i => (UInt64.ofNat (1000 * i), UInt64.ofNat (1000 * i + 300))
    waitpidPoll := fun _ => 4242
    kill := 0
    waitpid := 4242 }

theorem steadyWorld_reapable (capacity : Nat) : (steadyWorld capacity).Reapable := by
  refine ⟨?_, rfl, ?_⟩
  · intro pid hpid i
    exact Or.inr (Option.some.inj hpid)
  · intro pid hpid
    exact Option.some.inj hpid

theorem settled_steady_run :
    ∃ out, measureCrossProcess (steadyWorld 1000) 1 2 1 0 1 = some out ∧ Settled out.2 := by
  have hreturns : ∃ out, measureCrossProcess (steadyWorld 1000) 1 2 1 0 1 = some out := ⟨_, rfl⟩
  rcases hreturns with ⟨out, hout⟩
  refine ⟨out, hout, (measureCrossProcess_settled_iff (steadyWorld_reapable 1000) hout).2 ?_⟩
  rintro ⟨_, hinterrupted⟩
  rw [interrupted_iff] at hinterrupted
  revert hinterrupted
  decide

/-- A run for more samples than can be reserved leaves the child, the view and the name behind. -/
theorem unsettled_huge_run :
    (steadyWorld 1000000).Reapable ∧
      ∃ log, measureCrossProcess (steadyWorld 1000000) 1 2147483647 0 0 1 =
          some (.threw .allocation, log) ∧ ¬ Settled log :=
  ⟨steadyWorld_reapable 1000000, _, rfl, by decide⟩

end SharedMemory
end LatencyAnalyzer
