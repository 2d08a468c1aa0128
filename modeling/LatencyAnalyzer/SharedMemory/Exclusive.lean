import LatencyAnalyzer.SharedMemory.Cleanup
import LatencyAnalyzer.SharedMemory.Waiting

/-!
# Exclusive — the flag and the message of a shared-memory result

A result carries a flag for success and an error message, and they are set in different places.
A consumer that stops answering between two measured rounds leaves both of them set.
-/

namespace LatencyAnalyzer
namespace SharedMemory

/-! ## Rounds -/

/-- The parent completes this many measured rounds: their waits see the flag, and there is no
further round or its wait does not. -/
structure World.Completes (w : World) (fuel : Nat) (iterations warmup : Int) (rounds : Nat) :
    Prop where
  le : rounds ≤ iterations.toNat
  found : w.AllFound fuel (1 + warmup.toNat + rounds)
  last : rounds = iterations.toNat ∨ w.wait fuel (1 + warmup.toNat + rounds) ≠ some .found

/-- The wait of a measured round gives up, and it is not the first one. -/
def World.StopsMidway (w : World) (fuel : Nat) (iterations warmup : Int) : Prop :=
  ∃ rounds, 1 ≤ rounds ∧ rounds < iterations.toNat ∧
    w.AllFound fuel (1 + warmup.toNat + rounds) ∧
      w.wait fuel (1 + warmup.toNat + rounds) = some .gaveUp

theorem World.Completes.unique {w : World} {fuel : Nat} {iterations warmup : Int} {m n : Nat}
    (hm : w.Completes fuel iterations warmup m) (hn : w.Completes fuel iterations warmup n) :
    m = n := by
  rcases Nat.lt_trichotomy m n with hlt | heq | hlt
  · rcases hm.last with hlast | hlast
    · have hle := hn.le
      omega
    · exact absurd (hn.found _ (by omega)) hlast
  · exact heq
  · rcases hn.last with hlast | hlast
    · have hle := hm.le
      omega
    · exact absurd (hm.found _ (by omega)) hlast

theorem World.Completes.stopsMidway_iff {w : World} {fuel : Nat} {iterations warmup : Int} {n : Nat}
    (h : w.Completes fuel iterations warmup n) :
    w.StopsMidway fuel iterations warmup ↔
      1 ≤ n ∧ n < iterations.toNat ∧ w.wait fuel (1 + warmup.toNat + n) = some .gaveUp := by
  constructor
  · rintro ⟨rounds, hpos, hlt, hfound, hgave⟩
    have hlast : w.wait fuel (1 + warmup.toNat + rounds) ≠ some .found := by simp [hgave]
    have hrounds : rounds = n := World.Completes.unique ⟨hlt.le, hfound, Or.inr hlast⟩ h
    subst hrounds
    exact ⟨hpos, hlt, hgave⟩
  · rintro ⟨hpos, hlt, hgave⟩
    exact ⟨n, hpos, hlt, h.found, hgave⟩

/-- Each completed round adds a sample, and the message tells whether the loop ran to its end. -/
theorem measureLoop_rounds {w : World} {fuel rounds k : Nat} {samples samples' : List UInt64}
    {message : String} (h : measureLoop w fuel rounds k samples = some (.ok (samples', message))) :
    ∃ n, samples'.length = samples.length + n ∧ n ≤ rounds ∧
      (∀ j, k ≤ j → j < k + n → w.wait fuel j = some .found) ∧
      ((n = rounds ∧ message = "") ∨
        (n < rounds ∧ w.wait fuel (k + n) = some .gaveUp ∧
          message = "Consumer stopped during measurement")) := by
  induction rounds generalizing k samples with
  | zero =>
      cases h
      exact ⟨0, rfl, le_rfl, fun j hlo hhi => by omega, Or.inl ⟨rfl, rfl⟩⟩
  | succ rounds ih =>
      unfold measureLoop at h
      split at h
      · cases h
      · cases h
      · rename_i hgave
        cases h
        exact ⟨0, rfl, Nat.zero_le _, fun j hlo hhi => by omega,
          Or.inr ⟨Nat.succ_pos rounds, hgave, rfl⟩⟩
      · rename_i hfound
        rcases ih h with ⟨n, hlength, hle, hbefore, hend⟩
        have hnext : k + 1 + n = k + (n + 1) := by omega
        rw [hnext] at hend hbefore
        refine ⟨n + 1, ?_, by omega, ?_, ?_⟩
        · rw [hlength, List.length_append, List.length_singleton]
          omega
        · intro j hlo hhi
          rcases Nat.eq_or_lt_of_le hlo with rfl | hlt
          · exact hfound
          · exact hbefore j hlt hhi
        · rcases hend with ⟨rfl, hmessage⟩ | ⟨hlt, hgave, hmessage⟩
          · exact Or.inl ⟨rfl, hmessage⟩
          · exact Or.inr ⟨by omega, hgave, hmessage⟩

/-! ## Results -/

theorem summarizeTicks_count (samples : List UInt64) :
    (Statistics.summarizeTicks Rat.sqrt samples).count = samples.length := by
  cases samples with
  | nil => rfl
  | cons tick samples => simp [Statistics.summarizeTicks, Statistics.summarizeImpl]

/-- Without samples there is a message and no success, and with samples success whatever the
message is. -/
theorem summarizeRun_cases {base : SharedMemoryResult} (hbase : base.success = false)
    (samples : List UInt64) (message : String) :
    (samples = [] ∧ (summarizeRun base samples message).success = false ∧
        (summarizeRun base samples message).errorMessage ≠ "") ∨
      (samples ≠ [] ∧ (summarizeRun base samples message).success = true ∧
        (summarizeRun base samples message).errorMessage = message ∧
        (summarizeRun base samples message).iterations = samples.length ∧
        (summarizeRun base samples message).stats.count = samples.length) := by
  cases samples with
  | nil =>
      refine Or.inl ⟨rfl, ?_⟩
      unfold summarizeRun
      by_cases hempty : message = ""
      · simp [hempty, hbase]
      · simp [hempty, hbase]
  | cons tick samples =>
      exact Or.inr ⟨List.cons_ne_nil tick samples, rfl, rfl, rfl, summarizeTicks_count _⟩

/-- A result of the parent is an error from the waits up to the end of the warm-up, or it is made
of the samples. -/
theorem runParent_returned {w : World} {pid : Int} {fuel : Nat} {base result : SharedMemoryResult}
    {iterations warmup : Int} {log : List (Lib.Entry Resource)}
    (hout : runParent w fuel pid base iterations warmup = some (.returned result, log)) :
    (¬ w.AllFound fuel (1 + warmup.toNat) ∧ result.success = base.success ∧
        result.errorMessage ≠ "") ∨
      (w.AllFound fuel (1 + warmup.toNat) ∧ ∃ samples message,
        measureLoop w fuel iterations.toNat (1 + warmup.toNat) [] = some (.ok (samples, message)) ∧
          result = summarizeRun base samples message) := by
  rcases runParent_inversion hout with ⟨_, what, heq⟩ | ⟨_, exit, steps, heq, hexit⟩
  · cases heq
  · cases heq
    rcases hexit with ⟨hnot, result', heq, hsuccess, hmessage⟩ |
      ⟨hall, samples, message, hloop, heq⟩
    · cases heq
      refine Or.inl ⟨hnot, hsuccess, fun hempty => ?_⟩
      rw [hempty] at hmessage
      simp at hmessage
    · split at heq
      · cases heq
        exact Or.inr ⟨hall, samples, message, hloop, rfl⟩
      · cases heq

/-- The rounds behind a result that is made of samples. -/
theorem completes_of_measureLoop {w : World} {fuel : Nat} {iterations warmup : Int}
    (hall : w.AllFound fuel (1 + warmup.toNat)) {samples : List UInt64} {message : String}
    (hloop : measureLoop w fuel iterations.toNat (1 + warmup.toNat) [] =
      some (.ok (samples, message))) :
    w.Completes fuel iterations warmup samples.length ∧
      (message = "" ↔ ¬ (samples.length < iterations.toNat ∧
        w.wait fuel (1 + warmup.toNat + samples.length) = some .gaveUp)) := by
  rcases measureLoop_rounds hloop with ⟨n, hlength, hle, hbefore, hend⟩
  have hn : samples.length = n := by rw [hlength, List.length_nil, Nat.zero_add]
  have hfound : w.AllFound fuel (1 + warmup.toNat + n) := by
    intro k hk
    rcases Nat.lt_or_ge k (1 + warmup.toNat) with hlt | hge
    · exact hall k hlt
    · exact hbefore k hge hk
  rw [hn]
  rcases hend with ⟨hall, hmessage⟩ | ⟨hlt, hgave, hmessage⟩
  · refine ⟨⟨hle, hfound, Or.inl hall⟩, fun _ hboth => ?_, fun _ => hmessage⟩
    exact absurd hboth.1 (by omega)
  · refine ⟨⟨hle, hfound, Or.inr (by simp [hgave])⟩, ?_⟩
    simp [hmessage, hlt, hgave]

/-- The samples of the completed rounds find no room when they are summed up. -/
def World.Overflows (w : World) (fuel : Nat) (iterations warmup : Int) : Prop :=
  ¬ w.Interrupted fuel iterations warmup ∧ ∃ rounds, 0 < rounds ∧
    w.Completes fuel iterations warmup rounds ∧ w.summarize rounds = false

/-- An exception leaves the parent before the last release or behind it. -/
theorem runParent_threw_iff {w : World} {pid : Int} {fuel : Nat} {base : SharedMemoryResult}
    {iterations warmup : Int} {out : Exit × List (Lib.Entry Resource)}
    (hout : runParent w fuel pid base iterations warmup = some out) :
    (∃ what, out.1 = .threw what) ↔
      w.Interrupted fuel iterations warmup ∨ w.Overflows fuel iterations warmup := by
  unfold World.Overflows
  rcases runParent_inversion hout with
    ⟨hinterrupted, what, rfl⟩ | ⟨hcomplete, exit, steps, rfl, hexit⟩
  · exact iff_of_true ⟨what, rfl⟩ (Or.inl hinterrupted)
  rcases hexit with ⟨hnot, result, rfl, _⟩ | ⟨hall, samples, message, hloop, rfl⟩
  · refine iff_of_false (by simp) ?_
    rintro (hinterrupted | ⟨_, rounds, _, hcompletes, _⟩)
    · exact hcomplete hinterrupted
    · exact hnot fun k hk => hcompletes.found k (by omega)
  · have hcompletes := (completes_of_measureLoop hall hloop).1
    dsimp only
    split
    · rename_i hroom
      refine iff_of_false (by simp) ?_
      rintro (hinterrupted | ⟨_, rounds, hpos, hrounds, hfull⟩)
      · exact hcomplete hinterrupted
      · -- There is one number of completed rounds.
        cases hrounds.unique hcompletes
        rcases Bool.or_eq_true_iff.1 hroom with hnone | hroom
        · rw [List.isEmpty_iff.1 hnone] at hpos
          exact Nat.lt_irrefl 0 hpos
        · rw [hfull] at hroom
          cases hroom
    · rename_i hroom
      rw [Bool.or_eq_true, not_or, Bool.not_eq_true, Bool.not_eq_true] at hroom
      refine iff_of_true ⟨_, rfl⟩ (Or.inr ⟨hcomplete, samples.length, ?_, hcompletes, hroom.2⟩)
      rw [List.length_pos_iff]
      rintro rfl
      cases hroom.1

theorem measureLoop_found {w : World} {fuel rounds k : Nat} {samples : List UInt64}
    (h : w.wait fuel k = some .found) :
    measureLoop w fuel (rounds + 1) k samples =
      measureLoop w fuel rounds (k + 1)
        (samples ++ [(w.ticks samples.length).2 - (w.ticks samples.length).1]) := by
  rw [measureLoop, h]

theorem measureLoop_gaveUp {w : World} {fuel rounds k : Nat} {samples : List UInt64}
    (h : w.wait fuel k = some .gaveUp) :
    measureLoop w fuel (rounds + 1) k samples =
      some (.ok (samples, "Consumer stopped during measurement")) := by
  rw [measureLoop, h]

/-- A run whose warm-up is complete returns what it has measured. -/
theorem measureCrossProcess_measured {w : World} {fuel : Nat}
    {iterations warmup producerCpu consumerCpu : Int}
    (hforks : w.Forks iterations warmup producerCpu consumerCpu)
    (hall : w.AllFound fuel (1 + warmup.toNat)) (hreserve : w.reserve iterations.toNat = true)
    {samples : List UInt64} {message : String}
    (hloop : measureLoop w fuel iterations.toNat (1 + warmup.toNat) [] =
      some (.ok (samples, message))) (hroom : w.summarize samples.length = true) :
    ∃ base log, measureCrossProcess w fuel iterations warmup producerCpu consumerCpu =
      some (.returned (summarizeRun base samples message), log) := by
  have hparent : ∀ pid base, runParent w fuel pid base iterations warmup =
      some (.returned (summarizeRun base samples message), abandon w pid 100) := by
    intro pid base
    rw [allFound_iff] at hall
    rw [runParent, hall.1]
    dsimp only
    rw [hall.2]
    dsimp only
    rw [if_pos hreserve, hloop]
    dsimp only
    rw [hroom, Bool.or_true, if_pos rfl]
  rcases hforks with ⟨hiterations, hwarmup, hproducer, hconsumer, hclock, hopen, htruncate, hmap,
    hfork⟩
  rcases Option.ne_none_iff_exists'.1 hfork with ⟨pid, hpid⟩
  unfold measureCrossProcess
  dsimp only
  rw [if_neg (by omega), if_neg (by omega), if_neg hclock, if_neg (by omega),
    if_neg (not_not.2 htruncate), if_neg hmap, hpid]
  dsimp only
  rw [hparent]
  exact ⟨_, _, rfl⟩

/-- A result has either success or a message, but for a consumer that stops between two measured
rounds.  The numbers of a success are those of the completed rounds. -/
theorem success_error_exclusive_iff {w : World} {fuel : Nat}
    {iterations warmup producerCpu consumerCpu : Int} {result : SharedMemoryResult}
    {log : List (Lib.Entry Resource)}
    (hout : measureCrossProcess w fuel iterations warmup producerCpu consumerCpu =
      some (.returned result, log)) :
    ((result.success = true ↔ result.errorMessage = "") ↔
      ¬ (w.Forks iterations warmup producerCpu consumerCpu ∧
        w.StopsMidway fuel iterations warmup)) ∧
    (result.success = true → ∃ rounds, w.Completes fuel iterations warmup rounds ∧ 1 ≤ rounds ∧
      result.iterations = rounds ∧ result.stats.count = rounds) := by
  rcases measureCrossProcess_cases hout with
    ⟨hforks, _, hearly⟩ | ⟨hforks, pid, base, run, _, hbase, hrun, heq⟩
  · rcases hearly result rfl with ⟨hsuccess, hmessage, _⟩
    exact ⟨by simp [hsuccess, hmessage, hforks], by simp [hsuccess]⟩
  · rcases run with ⟨exit, steps⟩
    cases heq
    rcases runParent_returned hrun with
      ⟨hnot, hsuccess, hmessage⟩ | ⟨hall, samples, message, hloop, rfl⟩
    · have hmidway : ¬ w.StopsMidway fuel iterations warmup := by
        rintro ⟨rounds, _, _, hfound, _⟩
        exact hnot fun k hk => hfound k (by omega)
      rw [hbase] at hsuccess
      exact ⟨by simp [hsuccess, hmessage, hmidway], by simp [hsuccess]⟩
    · rcases completes_of_measureLoop hall hloop with ⟨hcompletes, hempty⟩
      have hmidway := hcompletes.stopsMidway_iff
      rcases summarizeRun_cases hbase samples message with
        ⟨hnil, hsuccess, hmessage⟩ | ⟨hne, hsuccess, hmessage, hiterations, hcount⟩
      · have hzero : samples.length = 0 := by rw [hnil, List.length_nil]
        have hno : ¬ w.StopsMidway fuel iterations warmup := fun hmid => by
          have hpos := (hmidway.1 hmid).1
          omega
        exact ⟨by simp [hsuccess, hmessage, hno], by simp [hsuccess]⟩
      · have hpos : 1 ≤ samples.length := List.length_pos_iff.2 hne
        refine ⟨?_, fun _ => ⟨_, hcompletes, hpos, hiterations, hcount⟩⟩
        rw [hsuccess, hmessage, hempty, hmidway]
        simp [hforks, hpos]

theorem success_error_exclusive_steady :
    ∃ result log, measureCrossProcess (steadyWorld 1000) 1 1 0 0 1 = some (.returned result, log) ∧
      (result.success = true ↔ result.errorMessage = "") := by
  have hforks : (steadyWorld 1000).Forks 1 0 0 1 := by
    constructor <;> decide
  have hall : (steadyWorld 1000).AllFound 1 (1 + (0 : Int).toNat) := fun _ _ => rfl
  have hreserve : (steadyWorld 1000).reserve (1 : Int).toNat = true := rfl
  have hanswer : (steadyWorld 1000).wait 1 1 = some .found := rfl
  have hloop := @measureLoop_found (steadyWorld 1000) 1 0 1 [] hanswer
  rcases measureCrossProcess_measured hforks hall hreserve hloop rfl with ⟨base, log, hout⟩
  refine ⟨_, _, hout, (success_error_exclusive_iff hout).1.2 ?_⟩
  rintro ⟨_, rounds, hpos, hlt, _⟩
  have hone : (1 : Int).toNat = 1 := rfl
  omega

/-- The consumer answers in the first measured round and never again. -/
def stoppedWorld : World :=
  { steadyWorld 1000 with
    waits := fun k =>
      { flag := fun _ => if k < 2 then 1 else 0
        stop := fun _ => 0
        clock := fun i => some (if i = 0 then 0 else 2000000000) } }

theorem stoppedWorld_silent : stoppedWorld.wait 1 2 = some .gaveUp := by
  have hpolls : ∀ j < Config.shmSpinIterations,
      poll (stoppedWorld.waits 2) 1 true j = none := fun _ _ => rfl
  have hcall := waitForValue_of_spin hpolls rfl 1
  change waitForValue (stoppedWorld.waits 2) 1 true 1 = _
  rw [hcall]
  unfold pollUntil
  rfl

/-- Two rounds are asked for and one is completed, which is a success with an error message. -/
theorem stopped_consumer_succeeds :
    ∃ result log, measureCrossProcess stoppedWorld 1 2 0 0 1 = some (.returned result, log) ∧
      result.success = true ∧ result.iterations = 1 ∧
        result.errorMessage = "Consumer stopped during measurement" := by
  have hforks : stoppedWorld.Forks 2 0 0 1 := by
    constructor <;> decide
  have hall : stoppedWorld.AllFound 1 (1 + (0 : Int).toNat) := by
    intro k hk
    have hzero : k = 0 := by simpa using hk
    rw [hzero]
    rfl
  have hreserve : stoppedWorld.reserve (2 : Int).toNat = true := rfl
  have hanswer : stoppedWorld.wait 1 1 = some .found := rfl
  have hloop : measureLoop stoppedWorld 1 (2 : Int).toNat (1 + (0 : Int).toNat) [] =
      some (.ok ([] ++ [(stoppedWorld.ticks 0).2 - (stoppedWorld.ticks 0).1],
        "Consumer stopped during measurement")) := by
    have hrounds : (2 : Int).toNat = 0 + 1 + 1 := rfl
    have hfirst : 1 + (0 : Int).toNat = 1 := rfl
    rw [hrounds, hfirst]
    exact (measureLoop_found hanswer).trans (measureLoop_gaveUp stoppedWorld_silent)
  rcases measureCrossProcess_measured hforks hall hreserve hloop rfl with ⟨base, log, hout⟩
  exact ⟨_, _, hout, rfl, rfl, rfl⟩

end SharedMemory
end LatencyAnalyzer
