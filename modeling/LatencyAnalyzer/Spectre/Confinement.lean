import LatencyAnalyzer.Spectre.Fixture

/-!
# Confinement — what the Spectre fixture touches and what its answers depend on

Two facts about every sequence of public calls.  The victim is only called with indices into
`array1`, and loads it architecturally below the bound only.  The answers are a function of the
timing outcomes: the bytes behind the bound do not enter them in any other way.
-/

namespace LatencyAnalyzer
namespace Spectre

open Cxx

section Confinement

variable {abi : Abi}

/-! ## The arguments for which the fixture attacks -/

def ByteArgs (maliciousX : SizeT abi) (tries : Int) : Prop :=
  0 < tries ∧ kArchitecturalArraySize ≤ maliciousX.toNat ∧ maliciousX.toNat < kArrayStorage

/-- The condition on `read_string`, with the sum taken over the natural numbers. -/
def StringArgs (startOffset length : SizeT abi) (tries : Int) : Prop :=
  0 < tries ∧ kArchitecturalArraySize ≤ startOffset.toNat ∧
    startOffset.toNat + length.toNat ≤ kArrayStorage

theorem toNat_ofNat_small {n : Nat} (hn : n ≤ kArrayStorage) :
    (BitVec.ofNat abi.sizeBits n).toNat = n :=
  SizeT.toNat_ofNat (lt_of_le_of_lt hn (by decide))

theorem arraySize_toNat :
    (BitVec.ofNat abi.sizeBits kArchitecturalArraySize).toNat = kArchitecturalArraySize :=
  toNat_ofNat_small (by decide)

theorem arrayStorage_toNat : (BitVec.ofNat abi.sizeBits kArrayStorage).toNat = kArrayStorage :=
  toNat_ofNat_small le_rfl

theorem byteGuard_iff (maliciousX : SizeT abi) (tries : Int) :
    (tries ≤ 0 ∨ maliciousX < BitVec.ofNat _ kArchitecturalArraySize ∨
      BitVec.ofNat _ kArrayStorage ≤ maliciousX) ↔ ¬ ByteArgs maliciousX tries := by
  rw [BitVec.lt_def, BitVec.le_def, arraySize_toNat, arrayStorage_toNat]
  unfold ByteArgs
  omega

/-- The guard of `read_string_impl` subtracts before it compares, so no sum can wrap. -/
theorem stringGuard_iff (startOffset length : SizeT abi) (tries : Int) :
    (tries ≤ 0 ∨ startOffset < BitVec.ofNat _ kArchitecturalArraySize ∨
      BitVec.ofNat _ kArrayStorage < startOffset ∨
      BitVec.ofNat _ kArrayStorage - startOffset < length) ↔
        ¬ StringArgs startOffset length tries := by
  rw [BitVec.lt_def, BitVec.lt_def, arraySize_toNat, arrayStorage_toNat]
  unfold StringArgs
  -- Only for an offset inside of the storage is the difference of `size_t` a difference.
  by_cases hle : startOffset.toNat ≤ kArrayStorage
  · have hsub : (BitVec.ofNat abi.sizeBits kArrayStorage - startOffset).toNat =
        kArrayStorage - startOffset.toNat := by
      rw [BitVec.toNat_sub_of_le (by rw [BitVec.le_def, arrayStorage_toNat]; exact hle),
        arrayStorage_toNat]
    rw [BitVec.lt_def, hsub]
    omega
  · have hlt : kArrayStorage < startOffset.toNat := not_le.1 hle
    constructor
    · rintro - ⟨_, _, hsum⟩
      omega
    · intro _
      exact Or.inr (Or.inr (Or.inl hlt))

/-! ## Properties that an attack keeps -/

/-- `P` is kept by the elementary steps of attacks on indices in `X`. -/
structure Keeps (X : SizeT abi → Prop) (P : Machine abi → Prop) : Prop where
  touch : ∀ {m}, P m → ∀ index, P (m.touch index)
  timedTouch : ∀ {m}, P m → ∀ index, P (m.timedTouch index).2
  attack : ∀ {m}, P m → ∀ {x}, X x → P (m.emit (.attack x))
  victim : ∀ {m}, P m → ∀ {x}, X x ∨ x.toNat < kArchitecturalArraySize → P (victimFunction m x)

namespace Keeps

variable {X : SizeT abi → Prop} {P : Machine abi → Prop} (h : Keeps X P) {m : Machine abi}
include h

theorem calibrateThreshold (hm : P m) : P (Spectre.calibrateThreshold m).2 := by
  show P (calibrationLoop m).2
  unfold calibrationLoop
  refine List.foldlRecOn
    (motive := fun st : (List UInt64 × List UInt64) × Machine abi => P st.2) _ _ hm ?_
  intro st hst _ _
  exact h.timedTouch (h.timedTouch (h.touch hst 0) 0) 0

theorem trainAndAttack (hm : P m) {maliciousX : SizeT abi} (hx : X maliciousX) (attempt : Nat) :
    P (Spectre.trainAndAttack m maliciousX attempt) := by
  unfold Spectre.trainAndAttack
  dsimp only
  refine List.foldlRecOn (motive := P) _ _ (h.attack hm hx) ?_
  intro m' hm' j _
  apply h.victim hm'
  split
  · exact Or.inl hx
  · -- The training index is reduced to the bounds of `array1`.
    have hmod : attempt % kArchitecturalArraySize < kArchitecturalArraySize :=
      Nat.mod_lt _ (by decide)
    rw [toNat_ofNat_small (hmod.le.trans (by decide))]
    exact Or.inr hmod

theorem scoreReload {st : CandidateScores × Machine abi} (hst : P st.2) (threshold : UInt64) :
    P (Spectre.scoreReload st threshold).2 := by
  unfold Spectre.scoreReload
  refine List.foldlRecOn (motive := fun st : CandidateScores × Machine abi => P st.2) _ _ hst ?_
  intro st' hst' i _
  exact h.timedTouch hst' _

theorem readByteWithThreshold (hm : P m) {maliciousX : SizeT abi} (hx : X maliciousX)
    (tries : Int) (threshold : UInt64) :
    P (Spectre.readByteWithThreshold m maliciousX tries threshold).2 := by
  show P (attemptLoop m maliciousX tries threshold).2
  unfold attemptLoop
  refine List.foldlRecOn (motive := fun st : CandidateScores × Machine abi => P st.2) _ _ hm ?_
  intro st hst attempt _
  exact h.scoreReload (h.trainAndAttack hst hx attempt) threshold

theorem retryIfUncertain (hm : P m) {maliciousX : SizeT abi} (hx : X maliciousX) (tries : Int)
    (threshold : UInt64) : P (Spectre.retryIfUncertain m maliciousX tries threshold).2 := by
  have hfirst := h.readByteWithThreshold hm hx tries threshold
  unfold Spectre.retryIfUncertain
  dsimp only
  split
  · exact hfirst
  · exact h.readByteWithThreshold hfirst hx (retryTries tries) threshold

theorem touchProbes (hm : P m) : P (Spectre.touchProbes m) := by
  unfold Spectre.touchProbes
  refine List.foldlRecOn (motive := P) _ _ hm ?_
  intro m' hm' i _
  exact h.touch hm' _

end Keeps

/-! ## The invariant -/

/-- The accesses the fixture may make. -/
def Event.Confined : Event abi → Prop
  | .victim x => x.toNat < kArrayStorage
  | .attack maliciousX =>
      kArchitecturalArraySize ≤ maliciousX.toNat ∧ maliciousX.toNat < kArrayStorage
  | .element startOffset i maliciousX => maliciousX.toNat = startOffset.toNat + i.toNat
  | .loadArray1 x => x.toNat < kArchitecturalArraySize

structure Machine.Sound (m : Machine abi) : Prop where
  bound : m.array1Size = BitVec.ofNat _ kArchitecturalArraySize
  trace : ∀ e ∈ m.trace, e.Confined

theorem sound_init (timing : Nat → UInt64) : (Machine.init abi timing).Sound := by
  refine ⟨rfl, ?_⟩
  intro e he
  cases he

theorem Machine.Sound.emit {m : Machine abi} (h : m.Sound) {e : Event abi} (he : e.Confined) :
    (m.emit e).Sound := by
  refine ⟨h.bound, ?_⟩
  intro e' he'
  rcases List.mem_cons.1 he' with rfl | he'
  · exact he
  · exact h.trace e' he'

theorem sound_victimFunction {m : Machine abi} (h : m.Sound) {x : SizeT abi}
    (hx : x.toNat < kArrayStorage) : (victimFunction m x).Sound := by
  have hv : (m.emit (.victim x)).Sound := h.emit hx
  unfold victimFunction
  dsimp only
  split
  · rename_i hlt
    -- The bounds check, read at the invariant's value of `array1_size`.
    have hload : (Event.loadArray1 x).Confined := by
      rw [hv.bound, BitVec.lt_def, arraySize_toNat] at hlt
      exact hlt
    exact ⟨hv.bound, (hv.emit hload).trace⟩
  · exact hv

/-- Attacks behind the bound, but inside of the storage, are confined. -/
theorem keeps_sound :
    Keeps (fun x : SizeT abi => kArchitecturalArraySize ≤ x.toNat ∧ x.toNat < kArrayStorage)
      Machine.Sound where
  touch := fun hm _ => ⟨hm.bound, hm.trace⟩
  timedTouch := fun hm _ => ⟨hm.bound, hm.trace⟩
  attack := fun hm _ hx => hm.emit hx
  victim := by
    intro m hm x hx
    apply sound_victimFunction hm
    rcases hx with ⟨_, hhi⟩ | htraining
    · exact hhi
    · exact htraining.trans (by decide)

theorem sound_readByte {m : Machine abi} (h : m.Sound) (maliciousX : SizeT abi) (tries : Int) :
    (readByte retryIfUncertain m maliciousX tries).2.Sound := by
  unfold readByte
  split
  · exact h
  · rename_i hguard
    rw [byteGuard_iff, not_not] at hguard
    exact keeps_sound.retryIfUncertain (keeps_sound.calibrateThreshold h) hguard.2 tries _

/-- `start_offset + i` is the sum of its operands for every byte of an accepted string. -/
theorem element_toNat {startOffset length : SizeT abi} {tries : Int}
    (hargs : StringArgs startOffset length tries) {i : Nat} (hi : i < length.toNat) :
    (BitVec.ofNat abi.sizeBits i).toNat = i ∧
      (startOffset + BitVec.ofNat _ i).toNat = startOffset.toNat + i := by
  rcases hargs with ⟨_, _, hsum⟩
  have hsmall : i ≤ kArrayStorage := by omega
  have htoNat : (BitVec.ofNat abi.sizeBits i).toNat = i := toNat_ofNat_small hsmall
  refine ⟨htoNat, ?_⟩
  -- The accepted string ends inside of the storage, far below the top of `size_t`.
  have hfits : startOffset.toNat + i < 2 ^ abi.sizeBits := by
    have := abi.two_pow_le_sizeMax
    have hstorage : kArrayStorage < 2 ^ 32 := by decide
    omega
  rw [BitVec.toNat_add, htoNat, Nat.mod_eq_of_lt hfits]

theorem sound_readStringImpl {m : Machine abi} (h : m.Sound) (startOffset length : SizeT abi)
    (tries : Int) : (readStringImpl retryIfUncertain m startOffset length tries).2.Sound := by
  unfold readStringImpl
  split
  · exact h
  · rename_i hguard
    rw [stringGuard_iff, not_not] at hguard
    dsimp only
    refine List.foldlRecOn (motive := fun st : List UInt8 × Machine abi => st.2.Sound) _ _
      (keeps_sound.calibrateThreshold h) ?_
    intro st hst i hi
    rcases element_toNat hguard (List.mem_range.1 hi) with ⟨htoNat, hsum⟩
    rcases hguard with ⟨_, hlo, hhi⟩
    have hlt : i < length.toNat := List.mem_range.1 hi
    have hevent : (Event.element startOffset (BitVec.ofNat _ i)
        (startOffset + BitVec.ofNat _ i)).Confined := by
      show _ = _
      rw [htoNat, hsum]
    exact keeps_sound.retryIfUncertain (hst.emit hevent) ⟨by omega, by omega⟩ tries _

theorem sound_runDemo {m : Machine abi} (h : m.Sound) (tries : Int) :
    (runDemo retryIfUncertain m tries).Sound := by
  unfold runDemo
  split
  · exact h
  · have hload : ({ m with array1 := loadFixture m.array1 } : Machine abi).Sound :=
      ⟨h.bound, h.trace⟩
    exact sound_readStringImpl (keeps_sound.touchProbes hload) _ _ tries

theorem sound_runReliabilityLab {m : Machine abi} (h : m.Sound) (runs triesPerByte : Int) :
    (runReliabilityLab retryIfUncertain m runs triesPerByte).2.Sound := by
  unfold runReliabilityLab
  dsimp only
  split
  · exact h
  · refine List.foldlRecOn
      (motive := fun st : SpectreLabResult abi × Machine abi => st.2.Sound) _ _ h ?_
    intro st hst _ _
    exact sound_readStringImpl hst _ _ triesPerByte

theorem sound_runCall {m : Machine abi} (h : m.Sound) (call : Call abi) :
    (runCall retryIfUncertain m call).Sound := by
  cases call with
  | readByte maliciousX tries => exact sound_readByte h maliciousX tries
  | readString startOffset length tries => exact sound_readStringImpl h startOffset length tries
  | runDemo tries => exact sound_runDemo h tries
  | runReliabilityLab runs triesPerByte => exact sound_runReliabilityLab h runs triesPerByte
  | defensiveLab runs triesPerByte reportPath =>
      unfold runCall
      dsimp only
      split
      · exact h
      · exact sound_runReliabilityLab h runs triesPerByte

theorem sound_runCalls {m : Machine abi} (h : m.Sound) (calls : List (Call abi)) :
    (runCalls retryIfUncertain m calls).Sound := by
  unfold runCalls
  refine List.foldlRecOn (motive := Machine.Sound) _ _ h ?_
  intro m' hm' call _
  exact sound_runCall hm' call

/-! ## Dependence on the timing outcomes only -/

/-- Two processes that will see the same timing outcomes. -/
structure SameTiming (m m' : Machine abi) : Prop where
  timing : m.timing = m'.timing
  clock : m.clock = m'.clock

/-- Equal answers, and the same outcomes still to come. -/
def Agree {α : Type*} (p p' : α × Machine abi) : Prop :=
  p.1 = p'.1 ∧ SameTiming p.2 p'.2

theorem SameTiming.timedTouch {m m' : Machine abi} (h : SameTiming m m') (index : Nat) :
    Agree (m.timedTouch index) (m'.timedTouch index) := by
  refine ⟨?_, h.timing, ?_⟩
  · show m.timing m.clock = m'.timing m'.clock
    rw [h.timing, h.clock]
  · show m.clock + 1 = m'.clock + 1
    rw [h.clock]

theorem agree_calibrationSample {st st' : (List UInt64 × List UInt64) × Machine abi}
    (h : Agree st st') : Agree (calibrationSample st) (calibrationSample st') := by
  rcases h with ⟨hlists, hm⟩
  have hstart : SameTiming (st.2.touch 0) (st'.2.touch 0) := ⟨hm.timing, hm.clock⟩
  rcases hstart.timedTouch 0 with ⟨hhit, hafter⟩
  rcases hafter.timedTouch 0 with ⟨hmiss, hend⟩
  refine ⟨?_, hend⟩
  simp only [calibrationSample, hlists, hhit, hmiss]

theorem agree_calibrateThreshold {m m' : Machine abi} (h : SameTiming m m') :
    Agree (calibrateThreshold m) (calibrateThreshold m') := by
  have hloop : Agree (calibrationLoop m) (calibrationLoop m') := by
    unfold calibrationLoop
    exact List.foldl_rel (r := Agree) ⟨rfl, h⟩ fun _ _ _ _ hst => agree_calibrationSample hst
  rcases hloop with ⟨hlists, hend⟩
  refine ⟨?_, hend⟩
  unfold calibrateThreshold
  dsimp only
  rw [hlists]

/-- The victim takes no time stamp, whichever way its bounds check goes. -/
theorem sameTiming_victimFunction (m : Machine abi) (x : SizeT abi) :
    SameTiming (Spectre.victimFunction m x) m := by
  unfold Spectre.victimFunction
  dsimp only
  split <;> exact ⟨rfl, rfl⟩

theorem SameTiming.victimFunction {m m' : Machine abi} (h : SameTiming m m') (x : SizeT abi) :
    SameTiming (Spectre.victimFunction m x) (Spectre.victimFunction m' x) := by
  have hkeep := sameTiming_victimFunction m x
  have hkeep' := sameTiming_victimFunction m' x
  constructor
  · calc
      (Spectre.victimFunction m x).timing = m.timing := hkeep.timing
      _ = m'.timing := h.timing
      _ = (Spectre.victimFunction m' x).timing := hkeep'.timing.symm
  · calc
      (Spectre.victimFunction m x).clock = m.clock := hkeep.clock
      _ = m'.clock := h.clock
      _ = (Spectre.victimFunction m' x).clock := hkeep'.clock.symm

theorem SameTiming.trainAndAttack {m m' : Machine abi} (h : SameTiming m m')
    (maliciousX : SizeT abi) (attempt : Nat) :
    SameTiming (Spectre.trainAndAttack m maliciousX attempt)
      (Spectre.trainAndAttack m' maliciousX attempt) := by
  unfold Spectre.trainAndAttack
  dsimp only
  exact List.foldl_rel (r := SameTiming) ⟨h.timing, h.clock⟩ fun _ _ _ _ hm => hm.victimFunction _

theorem agree_scoreReload {st st' : CandidateScores × Machine abi} (h : Agree st st')
    (threshold : UInt64) : Agree (scoreReload st threshold) (scoreReload st' threshold) := by
  unfold scoreReload
  refine List.foldl_rel (r := Agree) h ?_
  intro i _ st st' hst
  rcases hst with ⟨hscores, hm⟩
  rcases hm.timedTouch ((mixed i).val * kProbeStride) with ⟨helapsed, hend⟩
  refine ⟨?_, hend⟩
  unfold probe
  dsimp only
  rw [hscores, helapsed]

theorem agree_readByteWithThreshold {m m' : Machine abi} (h : SameTiming m m')
    (maliciousX : SizeT abi) (tries : Int) (threshold : UInt64) :
    Agree (readByteWithThreshold m maliciousX tries threshold)
      (readByteWithThreshold m' maliciousX tries threshold) := by
  have hloop : Agree (attemptLoop m maliciousX tries threshold)
      (attemptLoop m' maliciousX tries threshold) := by
    unfold attemptLoop
    refine List.foldl_rel (r := Agree) ⟨rfl, h⟩ ?_
    intro attempt _ st st' hst
    -- The scores agree already, and an attack does not look at them.
    have hattack : Agree (st.1, Spectre.trainAndAttack st.2 maliciousX attempt)
        (st'.1, Spectre.trainAndAttack st'.2 maliciousX attempt) :=
      ⟨hst.1, hst.2.trainAndAttack maliciousX attempt⟩
    exact agree_scoreReload hattack threshold
  rcases hloop with ⟨hscores, hend⟩
  refine ⟨?_, hend⟩
  unfold readByteWithThreshold
  dsimp only
  rw [hscores]

theorem agree_retryIfUncertain {m m' : Machine abi} (h : SameTiming m m')
    (maliciousX : SizeT abi) (tries : Int) (threshold : UInt64) :
    Agree (retryIfUncertain m maliciousX tries threshold)
      (retryIfUncertain m' maliciousX tries threshold) := by
  rcases agree_readByteWithThreshold h maliciousX tries threshold with ⟨hfirst, hmid⟩
  unfold retryIfUncertain
  dsimp only
  -- Equal first answers take the same branch.
  rw [hfirst]
  split
  · exact ⟨hfirst, hmid⟩
  · rcases agree_readByteWithThreshold hmid maliciousX (retryTries tries) threshold
      with ⟨hsecond, hend⟩
    refine ⟨?_, hend⟩
    dsimp only
    rw [hsecond]

theorem agree_readByte {m m' : Machine abi} (h : SameTiming m m') (maliciousX : SizeT abi)
    (tries : Int) :
    Agree (readByte retryIfUncertain m maliciousX tries)
      (readByte retryIfUncertain m' maliciousX tries) := by
  rcases agree_calibrateThreshold h with ⟨hthreshold, hmid⟩
  unfold readByte
  split
  · exact ⟨rfl, h⟩
  · dsimp only
    -- The guard reads the arguments only, so both runs pass it.
    rw [hthreshold]
    exact agree_retryIfUncertain hmid maliciousX tries _

theorem agree_readElement (startOffset : SizeT abi) (tries : Int) (threshold : UInt64)
    {st st' : List UInt8 × Machine abi} (h : Agree st st') (i : Nat) :
    Agree (readElement retryIfUncertain startOffset tries threshold st i)
      (readElement retryIfUncertain startOffset tries threshold st' i) := by
  rcases h with ⟨hresult, hm⟩
  have hemit : ∀ e : Event abi, SameTiming (st.2.emit e) (st'.2.emit e) :=
    fun e => ⟨hm.timing, hm.clock⟩
  rcases agree_retryIfUncertain (hemit (.element startOffset (BitVec.ofNat _ i)
    (startOffset + BitVec.ofNat _ i))) (startOffset + BitVec.ofNat _ i) tries threshold
    with ⟨hvalue, hend⟩
  refine ⟨?_, hend⟩
  unfold readElement
  dsimp only
  rw [hresult, hvalue]

theorem agree_readString {m m' : Machine abi} (h : SameTiming m m')
    (startOffset length : SizeT abi) (tries : Int) :
    Agree (readString retryIfUncertain m startOffset length tries)
      (readString retryIfUncertain m' startOffset length tries) := by
  rcases agree_calibrateThreshold h with ⟨hthreshold, hmid⟩
  unfold readString readStringImpl
  split
  · exact ⟨rfl, h⟩
  · dsimp only
    rw [hthreshold]
    exact List.foldl_rel (r := Agree) ⟨rfl, hmid⟩ fun i _ _ _ hst =>
      agree_readElement startOffset tries _ hst i

/-- The process with other contents of `array1[16..160)`. -/
def Machine.withOutside (m : Machine abi) (outside : Nat → UInt8) : Machine abi :=
  { m with
    array1 := fun i =>
      if kArchitecturalArraySize ≤ i ∧ i < kArrayStorage then outside i else m.array1 i }

theorem Machine.sameTiming_withOutside (m : Machine abi) (outside outside' : Nat → UInt8) :
    SameTiming (m.withOutside outside) (m.withOutside outside') :=
  ⟨rfl, rfl⟩

/-! ## The safety boundary -/

theorem readByte_of_not_args {retry : Retry abi} {m : Machine abi} {maliciousX : SizeT abi}
    {tries : Int} (h : ¬ ByteArgs maliciousX tries) :
    readByte retry m maliciousX tries = (SpectreResult.empty, m) := by
  unfold readByte
  rw [if_pos ((byteGuard_iff maliciousX tries).2 h)]

theorem readString_of_not_args {retry : Retry abi} {m : Machine abi}
    {startOffset length : SizeT abi} {tries : Int} (h : ¬ StringArgs startOffset length tries) :
    readString retry m startOffset length tries = ([], m) := by
  unfold readString readStringImpl
  rw [if_pos ((stringGuard_iff startOffset length tries).2 h)]

/-- After any sequence of calls: all accesses so far are confined, a call with other arguments
than the admitted ones answers with its empty result and leaves the process as it is, and the
bytes behind the bound reach an answer through timing only. -/
theorem fixture_confined (timing : Nat → UInt64) (calls : List (Call abi)) :
    let m := runCalls retryIfUncertain (Machine.init abi timing) calls
    (∀ e ∈ m.trace, e.Confined) ∧
    (∀ maliciousX tries, ¬ ByteArgs maliciousX tries →
      readByte retryIfUncertain m maliciousX tries = (SpectreResult.empty, m)) ∧
    (∀ startOffset length tries, ¬ StringArgs startOffset length tries →
      readString retryIfUncertain m startOffset length tries = ([], m)) ∧
    (∀ tries, tries ≤ 0 → runDemo retryIfUncertain m tries = m) ∧
    (∀ runs triesPerByte, runs ≤ 0 ∨ triesPerByte ≤ 0 →
      runReliabilityLab retryIfUncertain m runs triesPerByte =
        (SpectreLabResult.start abi runs triesPerByte, m)) ∧
    (∀ outside outside' maliciousX tries,
      (readByte retryIfUncertain (m.withOutside outside) maliciousX tries).1 =
        (readByte retryIfUncertain (m.withOutside outside') maliciousX tries).1) ∧
    (∀ outside outside' startOffset length tries,
      (readString retryIfUncertain (m.withOutside outside) startOffset length tries).1 =
        (readString retryIfUncertain (m.withOutside outside') startOffset length tries).1) := by
  intro m
  have hsound : m.Sound := sound_runCalls (sound_init timing) calls
  refine ⟨hsound.trace, fun _ _ => readByte_of_not_args, fun _ _ _ => readString_of_not_args,
    ?_, ?_, ?_, ?_⟩
  · intro tries htries
    unfold runDemo
    rw [if_pos htries]
  · intro runs triesPerByte hargs
    unfold runReliabilityLab
    dsimp only
    rw [if_pos hargs]
  · intro outside outside' maliciousX tries
    exact (agree_readByte (m.sameTiming_withOutside outside outside') maliciousX tries).1
  · intro outside outside' startOffset length tries
    exact (agree_readString (m.sameTiming_withOutside outside outside') startOffset length
      tries).1

end Confinement

end Spectre
end LatencyAnalyzer
