import Mathlib.Order.Monotone.Basic
import LatencyAnalyzer.SharedMemory.Measurer

/-!
# Waiting — what `wait_for_value` sees of a flag that changes over time

A call polls two flags and reads a clock, one step after the other and with any delays in between.
It loads the flag at some moments only, and the last of them can lie well before its deadline.
-/

namespace LatencyAnalyzer
namespace SharedMemory

/-! ## Polls -/

section Polls

variable (w : Watch) (expected : UInt32) (checkStop : Bool)

theorem poll_found_iff (i : Nat) :
    poll w expected checkStop i = some .found ↔ w.flag i = expected := by
  unfold poll
  split
  · rename_i hflag
    exact ⟨fun _ => hflag, fun _ => rfl⟩
  · rename_i hflag
    constructor
    · intro h
      split at h <;> cases h
    · exact fun h => absurd h hflag

/-- A poll that leads on. -/
theorem poll_none_iff (i : Nat) :
    poll w expected checkStop i = none ↔
      w.flag i ≠ expected ∧ ¬ (checkStop = true ∧ w.stop i ≠ 0) := by
  unfold poll
  split
  · rename_i hflag
    simp [hflag]
  · rename_i hflag
    split
    · rename_i hstop
      simp [hstop]
    · rename_i hstop
      exact ⟨fun _ => ⟨hflag, hstop⟩, fun _ => rfl⟩

/-- The first loop ends with the first poll that does not lead on. -/
theorem spin_found_iff (n i : Nat) :
    spin w expected checkStop n i = some .found ↔
      ∃ k, i ≤ k ∧ k < i + n ∧ (∀ j, i ≤ j → j < k → poll w expected checkStop j = none) ∧
        w.flag k = expected := by
  induction n generalizing i with
  | zero =>
      constructor
      · intro h
        cases h
      · rintro ⟨k, hlo, hhi, _⟩
        omega
  | succ n ih =>
      unfold spin
      cases hpoll : poll w expected checkStop i with
      | some outcome =>
          dsimp only
          constructor
          · intro h
            rw [h, poll_found_iff] at hpoll
            exact ⟨i, le_rfl, by omega, fun j hlo hhi => absurd hhi (by omega), hpoll⟩
          · rintro ⟨k, hlo, _, hbefore, hflag⟩
            rcases Nat.eq_or_lt_of_le hlo with rfl | hlt
            · rw [← poll_found_iff w expected checkStop, hpoll] at hflag
              exact hflag
            · rw [hbefore i le_rfl hlt] at hpoll
              cases hpoll
      | none =>
          dsimp only
          rw [ih]
          constructor
          · rintro ⟨k, hlo, hhi, hbefore, hflag⟩
            refine ⟨k, by omega, by omega, fun j hj hjk => ?_, hflag⟩
            rcases Nat.eq_or_lt_of_le hj with rfl | hlt
            · exact hpoll
            · exact hbefore j hlt hjk
          · rintro ⟨k, hlo, hhi, hbefore, hflag⟩
            -- Poll `i` leads on, so it is not the one that sees the flag.
            have hne : k ≠ i := by
              rintro rfl
              rw [← poll_found_iff w expected checkStop, hpoll] at hflag
              cases hflag
            exact ⟨k, by omega, by omega, fun j hj hjk => hbefore j (by omega) hjk, hflag⟩

theorem spin_none_iff (n i : Nat) :
    spin w expected checkStop n i = none ↔
      ∀ j, i ≤ j → j < i + n → poll w expected checkStop j = none := by
  induction n generalizing i with
  | zero => exact ⟨fun _ j hlo hhi => absurd hhi (by omega), fun _ => rfl⟩
  | succ n ih =>
      unfold spin
      cases hpoll : poll w expected checkStop i with
      | some outcome =>
          dsimp only
          refine ⟨fun h => ?_, fun h => ?_⟩
          · cases h
          · rw [h i le_rfl (by omega)] at hpoll
            cases hpoll
      | none =>
          dsimp only
          rw [ih]
          constructor
          · intro h j hlo hhi
            rcases Nat.eq_or_lt_of_le hlo with rfl | hlt
            · exact hpoll
            · exact h j hlt (by omega)
          · exact fun h j hlo hhi => h j (by omega) (by omega)

/-- Without a result of the first loop, the second one decides. -/
theorem waitForValue_of_spin {w : Watch} {expected : UInt32} {checkStop : Bool}
    (hpolls : ∀ j < Config.shmSpinIterations, poll w expected checkStop j = none)
    {start : UInt64} (hstart : w.clock 0 = some start) (fuel : Nat) :
    waitForValue w expected checkStop fuel =
      pollUntil w expected checkStop (start + UInt64.ofNat Config.shmTimeoutMs * 1000000)
        fuel 0 := by
  have hspin : spin w expected checkStop Config.shmSpinIterations 0 = none :=
    (spin_none_iff w expected checkStop _ 0).2 fun j _ hj => hpolls j (by omega)
  unfold waitForValue
  rw [hspin, hstart]

variable {w expected checkStop}

theorem pollUntil_mono {deadline : UInt64} {fuel fuel' i : Nat} {outcome : WaitOutcome}
    (h : pollUntil w expected checkStop deadline fuel i = some outcome) (hle : fuel ≤ fuel') :
    pollUntil w expected checkStop deadline fuel' i = some outcome := by
  induction fuel generalizing i fuel' with
  | zero => cases h
  | succ fuel ih =>
      rcases Nat.exists_eq_add_of_le' hle with ⟨more, rfl⟩
      rw [← Nat.add_assoc]
      unfold pollUntil at h ⊢
      cases hclock : w.clock (i + 1) with
      | none =>
          rw [hclock] at h
          exact h
      | some now =>
          rw [hclock] at h
          dsimp only at h ⊢
          split at h
          · rename_i hbefore
            rw [if_pos hbefore]
            cases hpoll : poll w expected checkStop (Config.shmSpinIterations + i) with
            | some outcome' =>
                rw [hpoll] at h
                exact h
            | none =>
                rw [hpoll] at h
                exact ih h (by omega)
          · rename_i hlate
            rw [if_neg hlate]
            exact h

/-- The second loop sees the flag in a round before which all clock readings are below the deadline
and all polls lead on. -/
theorem pollUntil_found_iff {readings : Nat → UInt64} (hclock : ∀ i, w.clock i = some (readings i))
    (deadline : UInt64) (i : Nat) :
    (∃ fuel, pollUntil w expected checkStop deadline fuel i = some .found) ↔
      ∃ k, i ≤ k ∧ (∀ j, i ≤ j → j ≤ k → readings (j + 1) < deadline) ∧
        (∀ j, i ≤ j → j < k → poll w expected checkStop (Config.shmSpinIterations + j) = none) ∧
          w.flag (Config.shmSpinIterations + k) = expected := by
  constructor
  · rintro ⟨fuel, h⟩
    induction fuel generalizing i with
    | zero => cases h
    | succ fuel ih =>
        unfold pollUntil at h
        rw [hclock] at h
        dsimp only at h
        split at h
        · rename_i hbefore
          cases hpoll : poll w expected checkStop (Config.shmSpinIterations + i) with
          | some outcome =>
              rw [hpoll] at h
              cases h
              refine ⟨i, le_rfl, fun j hlo hhi => ?_, fun j hlo hhi => absurd hhi (by omega),
                (poll_found_iff w expected checkStop _).1 hpoll⟩
              rw [Nat.le_antisymm hhi hlo]
              exact hbefore
          | none =>
              rw [hpoll] at h
              rcases ih (i + 1) h with ⟨k, hle, hreadings, hpolls, hflag⟩
              refine ⟨k, by omega, fun j hlo hhi => ?_, fun j hlo hhi => ?_, hflag⟩
              · rcases Nat.eq_or_lt_of_le hlo with rfl | hlt
                · exact hbefore
                · exact hreadings j hlt hhi
              · rcases Nat.eq_or_lt_of_le hlo with rfl | hlt
                · exact hpoll
                · exact hpolls j hlt hhi
        · cases h
  · rintro ⟨k, hle, hreadings, hpolls, hflag⟩
    rcases Nat.exists_eq_add_of_le hle with ⟨d, rfl⟩
    induction d generalizing i with
    | zero =>
        refine ⟨1, ?_⟩
        have hpoll := (poll_found_iff w expected checkStop _).2 hflag
        unfold pollUntil
        rw [hclock]
        dsimp only
        rw [if_pos (hreadings i le_rfl (by omega))]
        rw [Nat.add_zero] at hpoll
        rw [hpoll]
    | succ d ih =>
        have hnext : i + (d + 1) = i + 1 + d := by omega
        rw [hnext] at hreadings hpolls hflag
        rcases ih (i + 1) (by omega) (fun j hlo hhi => hreadings j (by omega) hhi)
          (fun j hlo hhi => hpolls j (by omega) hhi) hflag with ⟨fuel, hfuel⟩
        refine ⟨fuel + 1, ?_⟩
        unfold pollUntil
        rw [hclock]
        dsimp only
        rw [if_pos (hreadings i le_rfl (by omega)), hpolls i le_rfl (by omega)]
        exact hfuel

/-- The call returns true, if it is run for long enough. -/
def ReturnsTrue (w : Watch) (expected : UInt32) (checkStop : Bool) : Prop :=
  ∃ enough, ∀ fuel, enough ≤ fuel → waitForValue w expected checkStop fuel = some .found

/-- The clock admits the `i`-th load: it belongs to the first loop, or all readings up to it are
below the deadline. -/
def Admitted (readings : Nat → UInt64) (i : Nat) : Prop :=
  ∀ j, Config.shmSpinIterations + j ≤ i →
    readings (j + 1) < readings 0 + UInt64.ofNat Config.shmTimeoutMs * 1000000

theorem returnsTrue_iff {readings : Nat → UInt64} (hclock : ∀ i, w.clock i = some (readings i)) :
    ReturnsTrue w expected checkStop ↔
      ∃ i, Admitted readings i ∧ (∀ j < i, poll w expected checkStop j = none) ∧
        w.flag i = expected := by
  by_cases hspin : ∀ j < Config.shmSpinIterations, poll w expected checkStop j = none
  · -- The first loop sees nothing, so the call returns what the second one does.
    have hcall : ReturnsTrue w expected checkStop ↔
        ∃ fuel, pollUntil w expected checkStop
          (readings 0 + UInt64.ofNat Config.shmTimeoutMs * 1000000) fuel 0 = some .found := by
      unfold ReturnsTrue
      simp only [waitForValue_of_spin hspin (hclock 0)]
      exact ⟨fun ⟨enough, h⟩ => ⟨enough, h enough le_rfl⟩,
        fun ⟨enough, h⟩ => ⟨enough, fun fuel hle => pollUntil_mono h hle⟩⟩
    rw [hcall, pollUntil_found_iff hclock]
    constructor
    · rintro ⟨k, _, hreadings, hpolls, hflag⟩
      refine ⟨Config.shmSpinIterations + k, fun j hj => hreadings j (by omega) (by omega),
        fun j hj => ?_, hflag⟩
      rcases Nat.lt_or_ge j Config.shmSpinIterations with hlt | hge
      · exact hspin j hlt
      · rcases Nat.exists_eq_add_of_le hge with ⟨d, rfl⟩
        exact hpolls d (Nat.zero_le d) (by omega)
    · rintro ⟨i, hadmitted, hpolls, hflag⟩
      have hge : Config.shmSpinIterations ≤ i := by
        by_contra hlt
        have hpoll := (poll_found_iff w expected checkStop i).2 hflag
        rw [hspin i (by omega)] at hpoll
        cases hpoll
      rcases Nat.exists_eq_add_of_le hge with ⟨k, rfl⟩
      exact ⟨k, Nat.zero_le k, fun j _ hj => hadmitted j (by omega),
        fun j _ hj => hpolls _ (by omega), hflag⟩
  · -- Some poll of the first loop ends the call.
    have hcall : ReturnsTrue w expected checkStop ↔
        spin w expected checkStop Config.shmSpinIterations 0 = some .found := by
      have hsome : spin w expected checkStop Config.shmSpinIterations 0 ≠ none := by
        rw [Ne, spin_none_iff]
        exact fun h => hspin fun j hj => h j (Nat.zero_le j) (by omega)
      rcases Option.ne_none_iff_exists'.1 hsome with ⟨outcome, houtcome⟩
      unfold ReturnsTrue waitForValue
      rw [houtcome]
      exact ⟨fun ⟨enough, h⟩ => h enough le_rfl, fun h => ⟨0, fun _ _ => h⟩⟩
    rw [hcall, spin_found_iff]
    constructor
    · rintro ⟨k, _, hlt, hpolls, hflag⟩
      exact ⟨k, fun j hj => absurd hj (by omega), fun j hj => hpolls j (Nat.zero_le j) hj, hflag⟩
    · rintro ⟨i, _, hpolls, hflag⟩
      refine ⟨i, Nat.zero_le i, ?_, fun j _ hj => hpolls j hj, hflag⟩
      by_contra hge
      exact hspin fun j hj => hpolls j (by omega)

end Polls

/-! ## Calls in time -/

/-- The step of a call that loads the flag for the `i`-th time, counted over all steps in the order
of the code.  A round of the first loop loads the flag and then the stop flag, and a round of the
second one reads the clock before it does. -/
def loadStep (i : Nat) : Nat :=
  if i < Config.shmSpinIterations then 2 * i
  else 2 * Config.shmSpinIterations + 3 * (i - Config.shmSpinIterations) + 2

def checkStep (i : Nat) : Nat :=
  loadStep i + 1

/-- The reading for the deadline stands between the loops. -/
def readingStep : Nat → Nat
  | 0 => 2 * Config.shmSpinIterations
  | i + 1 => 2 * Config.shmSpinIterations + 3 * i + 1

theorem readingStep_mono {i j : Nat} (h : i ≤ j) : readingStep i ≤ readingStep j := by
  cases i with
  | zero =>
      cases j with
      | zero => exact le_rfl
      | succ j =>
          simp only [readingStep]
          omega
  | succ i =>
      cases j with
      | zero => omega
      | succ j =>
          simp only [readingStep]
          omega

/-- A call of `wait_for_value`: what the flags hold and what the clock shows at every moment, and
the moments at which the steps of the call are taken. -/
structure TimedWait (T : Type*) [Preorder T] where
  flag : T → UInt32
  stop : T → UInt32
  clock : T → UInt64
  clock_mono : ∀ t t', t ≤ t' → clock t ≤ clock t'
  moment : Nat → T
  moment_mono : Monotone moment

namespace TimedWait

variable {T : Type*} [Preorder T] (c : TimedWait T)

def loadMoment (i : Nat) : T := c.moment (loadStep i)

def checkMoment (i : Nat) : T := c.moment (checkStep i)

/-- The `i`-th reading of the clock. -/
def reading (i : Nat) : UInt64 := c.clock (c.moment (readingStep i))

def watch : Watch :=
  { flag := fun i => c.flag (c.loadMoment i)
    stop := fun i => c.stop (c.checkMoment i)
    clock := fun i => some (c.reading i) }

def deadline : UInt64 := c.reading 0 + UInt64.ofNat Config.shmTimeoutMs * 1000000

/-- The clock admits the load: it belongs to the first loop, or the clock is read below the
deadline right before it. -/
def Admits (i : Nat) : Prop :=
  Config.shmSpinIterations ≤ i → c.reading (i - Config.shmSpinIterations + 1) < c.deadline

/-- The call comes to its `i`-th load. -/
def Makes (expected : UInt32) (checkStop : Bool) (i : Nat) : Prop :=
  c.Admits i ∧ ∀ j < i, poll c.watch expected checkStop j = none

/-- The flag keeps its value from this moment on, up to any load that the call makes. -/
def Keeps (expected : UInt32) (checkStop : Bool) (t : T) : Prop :=
  ∀ t', t ≤ t' → (∃ i, c.Makes expected checkStop i ∧ t' ≤ c.loadMoment i) → c.flag t' = expected

/-- The call never sees the stop flag. -/
def Unstopped (expected : UInt32) (checkStop : Bool) : Prop :=
  ∀ i, c.Makes expected checkStop i → checkStop = true → c.stop (c.checkMoment i) = 0

variable {c}

/-- The clock does not go back, so a reading below the deadline comes after such readings only. -/
theorem Admits.mono {i j : Nat} (h : c.Admits i) (hle : j ≤ i) : c.Admits j := by
  intro hj
  have hreading : c.reading (j - Config.shmSpinIterations + 1) ≤
      c.reading (i - Config.shmSpinIterations + 1) :=
    c.clock_mono _ _ (c.moment_mono (readingStep_mono (by omega)))
  exact UInt64.lt_of_le_of_lt hreading (h (by omega))

theorem admitted_iff (i : Nat) : Admitted c.reading i ↔ c.Admits i := by
  constructor
  · exact fun h hi => h (i - Config.shmSpinIterations) (by omega)
  · intro h j hj
    have hadmits := h.mono hj (by omega)
    rwa [Nat.add_sub_cancel_left] at hadmits

theorem returnsTrue_iff_makes (expected : UInt32) (checkStop : Bool) :
    ReturnsTrue c.watch expected checkStop ↔
      ∃ i, c.Makes expected checkStop i ∧ c.flag (c.loadMoment i) = expected := by
  have hclock : ∀ i, c.watch.clock i = some (c.reading i) := fun _ => rfl
  rw [returnsTrue_iff hclock]
  simp only [admitted_iff]
  exact ⟨fun ⟨i, hadmits, hpolls, hflag⟩ => ⟨i, ⟨hadmits, hpolls⟩, hflag⟩,
    fun ⟨i, ⟨hadmits, hpolls⟩, hflag⟩ => ⟨i, hadmits, hpolls, hflag⟩⟩

/-- A call that could make a load either makes it or returns true before. -/
theorem makes_or_returnsTrue {expected : UInt32} {checkStop : Bool} {i : Nat}
    (hstop : c.Unstopped expected checkStop) (hadmits : c.Admits i) :
    c.Makes expected checkStop i ∨ ReturnsTrue c.watch expected checkStop := by
  by_cases hpolls : ∀ j < i, poll c.watch expected checkStop j = none
  · exact Or.inl ⟨hadmits, hpolls⟩
  · -- The first poll that does not lead on sees the flag.
    have hexists : ∃ j, j < i ∧ poll c.watch expected checkStop j ≠ none := by
      rw [not_forall] at hpolls
      rcases hpolls with ⟨j, hj⟩
      rw [Classical.not_imp] at hj
      exact ⟨j, hj⟩
    classical
    have hfirst := Nat.find_spec hexists
    have hbefore : ∀ j < Nat.find hexists, poll c.watch expected checkStop j = none := by
      intro j hj
      by_contra hne
      exact Nat.find_min hexists hj ⟨by omega, hne⟩
    generalize Nat.find hexists = j at hfirst hbefore
    have hmakes : c.Makes expected checkStop j := ⟨hadmits.mono hfirst.1.le, hbefore⟩
    refine Or.inr ((returnsTrue_iff_makes expected checkStop).2 ⟨j, hmakes, ?_⟩)
    have hpoll := hfirst.2
    rw [Ne, poll_none_iff] at hpoll
    by_contra hflag
    exact hpoll ⟨hflag, fun hboth => hboth.2 (hstop j hmakes hboth.1)⟩

/-- A flag that is kept is seen if and only if the clock admits a load that comes after it was set,
or one that has seen it before.  It is never seen without having been set. -/
theorem wait_sees_flag_iff (c : TimedWait T) (expected : UInt32) (checkStop : Bool) :
    (∀ t, c.Unstopped expected checkStop → c.Keeps expected checkStop t →
      (ReturnsTrue c.watch expected checkStop ↔
        ∃ i, c.Admits i ∧ (t ≤ c.loadMoment i ∨ c.flag (c.loadMoment i) = expected))) ∧
    (ReturnsTrue c.watch expected checkStop →
      ∃ i, c.Makes expected checkStop i ∧ c.flag (c.loadMoment i) = expected) := by
  refine ⟨fun t hstop hkeeps => ⟨fun h => ?_, ?_⟩, (returnsTrue_iff_makes _ _).1⟩
  · rcases (returnsTrue_iff_makes _ _).1 h with ⟨i, hmakes, hflag⟩
    exact ⟨i, hmakes.1, Or.inr hflag⟩
  · rintro ⟨i, hadmits, hseen⟩
    rcases makes_or_returnsTrue hstop hadmits with hmakes | htrue
    · refine (returnsTrue_iff_makes _ _).2 ⟨i, hmakes, ?_⟩
      rcases hseen with hlater | hflag
      · exact hkeeps _ hlater ⟨i, hmakes, le_rfl⟩
      · exact hflag
    · exact htrue

/-- One step at a time, with a flag that is set at moment `raised` and a clock that jumps over the
deadline at moment `late`. -/
def raisedAt (raised late : Nat) : TimedWait Nat :=
  { flag := fun t => if t < raised then 0 else 1
    stop := fun _ => 0
    clock := fun t => if t < late then 0 else 2000000000
    clock_mono := by
      intro t t' h
      by_cases ht : t' < late
      · rw [if_pos ht, if_pos (by omega)]
        exact UInt64.le_refl 0
      · rw [if_neg ht]
        split <;> decide
    moment := id
    moment_mono := monotone_id }

/-- The flag is set within the first loop. -/
theorem wait_sees_flag_early : ReturnsTrue (raisedAt 5 100).watch 1 true := by
  have hkeeps : (raisedAt 5 100).Keeps 1 true 5 := fun t ht _ => if_neg (not_lt.2 ht)
  refine ((wait_sees_flag_iff (raisedAt 5 100) 1 true).1 5 (fun _ _ _ => rfl) hkeeps).2 ?_
  exact ⟨3, fun h => absurd h (by decide), Or.inl (by decide)⟩

/-- The moment behind the first load of the second loop. -/
def behindLoad : Nat := 2 * Config.shmSpinIterations + 3

/-- The flag is set before the deadline, right behind the load of the first round of the second
loop, and the clock has passed the deadline when it is read again. -/
theorem wait_misses_flag :
    let c := raisedAt behindLoad (behindLoad + 1)
    c.clock behindLoad < c.deadline ∧ (∀ t, behindLoad ≤ t → c.flag t = 1) ∧
      (∀ t, c.stop t = 0) ∧ waitForValue c.watch 1 true 2 = some .gaveUp := by
  refine ⟨by decide, fun t ht => if_neg (not_lt.2 ht), fun _ => rfl, ?_⟩
  have hpolls : ∀ j ≤ Config.shmSpinIterations,
      poll (raisedAt behindLoad (behindLoad + 1)).watch 1 true j = none := by
    intro j hj
    have hearly : loadStep j < behindLoad := by
      unfold loadStep behindLoad
      split <;> omega
    have hflag : (raisedAt behindLoad (behindLoad + 1)).watch.flag j = 0 := if_pos hearly
    rw [poll_none_iff, hflag]
    exact ⟨by decide, fun h => h.2 rfl⟩
  have hround : poll (raisedAt behindLoad (behindLoad + 1)).watch 1 true
      (Config.shmSpinIterations + 0) = none := hpolls _ le_rfl
  rw [waitForValue_of_spin (fun j hj => hpolls j hj.le) rfl]
  unfold pollUntil
  rw [hround]
  rfl

end TimedWait

end SharedMemory
end LatencyAnalyzer
