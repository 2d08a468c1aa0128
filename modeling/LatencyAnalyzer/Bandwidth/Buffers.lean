import Mathlib.Algebra.Ring.Parity
import LatencyAnalyzer.Bandwidth.Release
import LatencyAnalyzer.Lib.Ram

/-!
# Buffers — the bytes that `BandwidthMeasurer::measure` reads and writes

The measurement once more, with the contents of its two buffers and the checksum of the timed
reads.  An access outside of the buffers stops it, and so does a loop over the cache lines that
does not end.  Neither happens: whatever the size is, the measurement returns and throws what it
does without the bytes, and leaves one value behind in both buffers and no trace elsewhere.
-/

namespace LatencyAnalyzer
namespace Bandwidth

open Cxx Lib Report

section Buffers

variable {abi : Abi}

inductive Stop
  | fault (fault : Fault)
  /-- The loop goes on without end. -/
  | diverged
  | thrown (thrown : Thrown)

/-- An operation on the memory. -/
def onRam {α : Type*} : Except Fault α → Except Stop α
  | .ok value => .ok value
  | .error fault => .error (.fault fault)

/-- `Timer::monotonic_raw_ns`, called for the `k`-th time. -/
def reading (w : World) (k : Nat) : Except Stop UInt64 :=
  match w.clock k with
  | some ns => .ok ns
  | none => .error (.thrown .clock)

/-! ## The timed sections -/

/-- A section between two readings of the clock, and its rate. -/
def timed {α : Type} (w : World) (bytes k : Nat) (section' : Except Stop α) :
    Except Stop (α × ℚ) := do
  let t0 ← reading w k
  let value ← section'
  let t1 ← reading w (k + 1)
  return (value, gibPerSecond bytes (t1 - t0))

/-- `for (; i < size_bytes; i += CACHE_LINE_SIZE) checksum ^= src.ptr[i]`. -/
def readLines (ram : Ram) (src : Nat) (sizeBytes : SizeT abi) :
    Nat → SizeT abi → UInt8 → Except Stop UInt8
  | 0, _, _ => .error .diverged
  | fuel + 1, i, checksum =>
      if i < sizeBytes then
        match ram.load (src + i.toNat) with
        | .ok byte =>
            readLines ram src sizeBytes fuel (i + BitVec.ofNat _ Config.cacheLineSize)
              (checksum ^^^ byte)
        | .error fault => .error (.fault fault)
      else
        .ok checksum

/-- What the measured rounds change. -/
structure Work where
  ram : Ram
  checksum : UInt8
  rates : Rates

/-- One round; `k` is the number of readings of the clock before it. -/
def measureRound (w : World) (fuel : Nat) (sizeBytes : SizeT abi) (src dst k : Nat) (st : Work) :
    Except Stop Work := do
  let n := sizeBytes.toNat
  let (checksum, read) ← timed w n k (readLines st.ram src sizeBytes fuel 0 st.checksum)
  let (written, write) ← timed w n (k + 2) (onRam (st.ram.memset dst 0x55 n))
  let (copied, copy) ← timed w n (k + 4) (onRam (written.memcpy dst src n))
  return {
    ram := copied
    checksum := checksum
    rates :=
      { read := st.rates.read ++ [read]
        write := st.rates.write ++ [write]
        copy := st.rates.copy ++ [copy] } }

def measureRoundsIn (w : World) (fuel : Nat) (sizeBytes : SizeT abi) (src dst : Nat) :
    Nat → Nat → Work → Except Stop Work
  | 0, _, st => .ok st
  | rounds + 1, k, st =>
      match measureRound w fuel sizeBytes src dst k st with
      | .ok st' => measureRoundsIn w fuel sizeBytes src dst rounds (k + 6) st'
      | .error stop => .error stop

/-- The part of `measure` between the allocation and the release of the buffers. -/
def measureRatesIn (w : World) (fuel : Nat) (sizeBytes : SizeT abi) (repeats src dst : Nat)
    (ram : Ram) : Except Stop Work := do
  -- First touch, outside of the timed sections.
  let ram ← onRam (ram.memset src 0xAA sizeBytes.toNat)
  let ram ← onRam (ram.memset dst 0x55 sizeBytes.toNat)
  -- `read_rates`, `write_rates` and `copy_rates`.
  if w.reserve 0 repeats && w.reserve 1 repeats && w.reserve 2 repeats then
    measureRoundsIn w fuel sizeBytes src dst repeats 0
      { ram := ram, checksum := 0, rates := { read := [], write := [], copy := [] } }
  else
    .error (.thrown .allocation)

/-- What a measurement leaves behind in memory when it returns. -/
structure Measured (abi : Abi) where
  result : BandwidthResult abi ℚ
  bytes : Nat → UInt8
  checksum : UInt8

/-- `measure` on the bytes that memory holds when the buffers are obtained. -/
def measureIn (w : World) (bytes : Nat → UInt8) (fuel : Nat) (sizeBytes : SizeT abi)
    (method : Text) (repeats numaNode : Int) : Except Stop (Measured abi) :=
  if sizeBytes = 0 ∨ repeats ≤ 0 then
    .error (.thrown (.invalidArgument "Bandwidth size and repeats must be positive".toList))
  else
    match allocateBuffer w 0 sizeBytes method numaNode,
        allocateBuffer w 1 sizeBytes method numaNode with
    | .error thrown, _ => .error (.thrown thrown)
    | .ok _, .error thrown => .error (.thrown thrown)
    | .ok (src, _), .ok (dst, _) =>
        match src.pointer, dst.pointer with
        | some p, some q =>
            let ram : Ram :=
              { blocks := [⟨p, src.size.toNat⟩, ⟨q, dst.size.toNat⟩], bytes := bytes }
            match measureRatesIn w fuel sizeBytes repeats.toNat p q ram with
            | .ok st =>
                .ok {
                  result :=
                    { allocator := String.ofList
                        (if 0 ≤ numaNode then numaMethod numaNode else method)
                      sizeBytes := sizeBytes
                      readGbS := median st.rates.read
                      writeGbS := median st.rates.write
                      copyGbS := median st.rates.copy }
                  bytes := st.ram.bytes
                  checksum := st.checksum }
            | .error stop => .error stop
        | _, _ =>
            .error (.thrown (.runtimeError
              ("Allocation failed for bandwidth method: ".toList ++ method)))

/-! ## Sections that cannot stop -/

theorem timed_ok {α : Type} (w : World) (bytes k : Nat) (value : α) :
    timed w bytes k (.ok value) =
      match timedRate w bytes k with
      | some rate => .ok (value, rate)
      | none => .error (.thrown .clock) := by
  unfold timed reading timedRate
  cases w.clock k with
  | none => rfl
  | some t0 =>
      cases w.clock (k + 1) with
      | none => rfl
      | some t1 => rfl

/-- The passes of the loop over the cache lines. -/
def lines (sizeBytes : SizeT abi) : Nat :=
  (sizeBytes.toNat + (Config.cacheLineSize - 1)) / Config.cacheLineSize

/-- The loop ends, and each pass reads the same byte, as long as its counter cannot wrap. -/
theorem readLines_eq {ram : Ram} {src : Nat} {sizeBytes : SizeT abi} {value : UInt8}
    (hinside : ram.Inside src sizeBytes.toNat)
    (hbytes : ∀ i < sizeBytes.toNat, ram.bytes (src + i) = value)
    (hroom : sizeBytes.toNat + 64 ≤ 2 ^ abi.sizeBits) :
    ∀ (fuel j : Nat) (i : SizeT abi) (checksum : UInt8), i.toNat = 64 * j →
      lines sizeBytes - j < fuel →
      readLines ram src sizeBytes fuel i checksum =
        .ok ((· ^^^ value)^[lines sizeBytes - j] checksum) := by
  have hlines : lines sizeBytes = (sizeBytes.toNat + 63) / 64 := rfl
  intro fuel
  induction fuel with
  | zero => exact fun j i checksum _ hfuel => absurd hfuel (Nat.not_lt_zero _)
  | succ fuel ih =>
      intro j i checksum hi hfuel
      -- Pass `j` reads the first byte of line `j`; by `hroom` the counter cannot wrap on the way
      -- to the next line.
      unfold readLines
      by_cases hlt : i < sizeBytes
      · have hlt' : i.toNat < sizeBytes.toNat := BitVec.lt_def.1 hlt
        have hpasses : lines sizeBytes - j = (lines sizeBytes - (j + 1)) + 1 := by omega
        have hnext : (i + BitVec.ofNat _ Config.cacheLineSize).toNat = 64 * (j + 1) := by
          have hstep : (BitVec.ofNat abi.sizeBits Config.cacheLineSize).toNat = 64 :=
            SizeT.toNat_ofNat (by decide)
          rw [BitVec.toNat_add_of_lt] <;> omega
        rw [if_pos hlt, hinside.load hlt', hbytes _ hlt', hpasses, Function.iterate_succ_apply]
        exact ih (j + 1) _ _ hnext (by omega)
      · have hge : sizeBytes.toNat ≤ i.toNat := BitVec.le_def.1 (BitVec.not_lt.1 hlt)
        have hdone : lines sizeBytes - j = 0 := by omega
        rw [if_neg hlt, hdone]
        rfl

/-! ## Rounds in two buffers -/

/-- Two ranges of `n` bytes that may be accessed and do not overlap. -/
structure Buffered (ram : Ram) (src dst n : Nat) : Prop where
  source : ram.Inside src n
  target : ram.Inside dst n
  apart : Apart dst src n

/-- The memory with the buffers as they are while the rounds go on: nothing but the value in the
target changes. -/
def painted (ram : Ram) (src dst n : Nat) (value : UInt8) : Ram :=
  (ram.filled src 0xAA n).filled dst value n

namespace Buffered

variable {ram : Ram} {src dst n : Nat} (h : Buffered ram src dst n) (value : UInt8)

include h

theorem source_bytes : ∀ i < n, (painted ram src dst n value).bytes (src + i) = 0xAA := by
  intro i hi
  unfold painted
  rw [Ram.bytes_filled_apart h.apart.symm value hi, Ram.bytes_filled _ hi]

theorem memset (value' : UInt8) : (painted ram src dst n value).memset dst value' n =
    .ok (painted ram src dst n value') := by
  have htarget : (painted ram src dst n value).Inside dst n := h.target
  rw [htarget.memset]
  unfold painted
  rw [Ram.filled_filled]

theorem memcpy : (painted ram src dst n value).memcpy dst src n =
    .ok (painted ram src dst n 0xAA) := by
  have hsource : (painted ram src dst n value).Inside src n := h.source
  have htarget : (painted ram src dst n value).Inside dst n := h.target
  rw [htarget.memcpy hsource h.apart, Ram.copied_eq_filled (h.source_bytes value)]
  unfold painted
  rw [Ram.filled_filled]

end Buffered

section Rounds

variable (w : World) {ram : Ram} {src dst fuel : Nat} {sizeBytes : SizeT abi}
  (h : Buffered ram src dst sizeBytes.toNat) (hroom : sizeBytes.toNat + 64 ≤ 2 ^ abi.sizeBits)
  (hfuel : lines sizeBytes < fuel)

include h hroom hfuel

theorem measureRound_eq (k : Nat) (value checksum : UInt8) (rates : Rates) :
    measureRound w fuel sizeBytes src dst k
        { ram := painted ram src dst sizeBytes.toNat value, checksum := checksum, rates := rates } =
      match timedRate w sizeBytes.toNat k, timedRate w sizeBytes.toNat (k + 2),
          timedRate w sizeBytes.toNat (k + 4) with
      | some read, some write, some copy =>
          .ok {
            ram := painted ram src dst sizeBytes.toNat 0xAA
            checksum := (· ^^^ 0xAA)^[lines sizeBytes] checksum
            rates :=
              { read := rates.read ++ [read]
                write := rates.write ++ [write]
                copy := rates.copy ++ [copy] } }
      | _, _, _ => .error (.thrown .clock) := by
  -- Each section of the round is run in turn; a reading of the clock that fails ends all three.
  have hsource : (painted ram src dst sizeBytes.toNat value).Inside src sizeBytes.toNat := h.source
  have hread := readLines_eq hsource (h.source_bytes value) hroom fuel 0 0 checksum rfl hfuel
  unfold measureRound
  dsimp only
  rw [hread, timed_ok]
  cases timedRate w sizeBytes.toNat k with
  | none => rfl
  | some read =>
      change (timed w _ (k + 2) _ >>= _) = _
      rw [h.memset value 0x55, onRam, timed_ok]
      cases timedRate w sizeBytes.toNat (k + 2) with
      | none => rfl
      | some write =>
          change (timed w _ (k + 4) _ >>= _) = _
          rw [h.memcpy 0x55, onRam, timed_ok]
          cases timedRate w sizeBytes.toNat (k + 4) with
          | none => rfl
          | some copy => rfl

/-- By induction on the rounds: the first one fills the target with the bytes of the source, and
every other one finds them there. -/
theorem measureRoundsIn_eq (rounds k : Nat) (value checksum : UInt8) (rates : Rates) :
    measureRoundsIn w fuel sizeBytes src dst rounds k
        { ram := painted ram src dst sizeBytes.toNat value, checksum := checksum, rates := rates } =
      match measureRounds w sizeBytes.toNat rounds k rates with
      | some rates' =>
          .ok {
            ram := painted ram src dst sizeBytes.toNat (if rounds = 0 then value else 0xAA)
            checksum := (· ^^^ 0xAA)^[rounds * lines sizeBytes] checksum
            rates := rates' }
      | none => .error (.thrown .clock) := by
  induction rounds generalizing k value checksum rates with
  | zero =>
      rw [Nat.zero_mul]
      rfl
  | succ rounds ih =>
      unfold measureRoundsIn measureRounds
      rw [measureRound_eq w h hroom hfuel]
      cases timedRate w sizeBytes.toNat k with
      | none => rfl
      | some read =>
          cases timedRate w sizeBytes.toNat (k + 2) with
          | none => rfl
          | some write =>
              cases timedRate w sizeBytes.toNat (k + 4) with
              | none => rfl
              | some copy =>
                  dsimp only
                  rw [ih, ite_self, if_neg (Nat.succ_ne_zero rounds), Nat.succ_mul,
                    Function.iterate_add_apply]

theorem measureRatesIn_eq {repeats : Nat} (hrepeats : repeats ≠ 0) :
    measureRatesIn w fuel sizeBytes repeats src dst ram =
      match measureRates w sizeBytes.toNat repeats with
      | .ok rates =>
          .ok {
            ram := painted ram src dst sizeBytes.toNat 0xAA
            checksum := (· ^^^ 0xAA)^[repeats * lines sizeBytes] 0
            rates := rates }
      | .error thrown => .error (.thrown thrown) := by
  have htarget : (ram.filled src 0xAA sizeBytes.toNat).Inside dst sizeBytes.toNat := h.target
  unfold measureRatesIn measureRates
  rw [h.source.memset, onRam]
  change (onRam _ >>= _) = _
  rw [htarget.memset, onRam]
  by_cases hreserve : (w.reserve 0 repeats && w.reserve 1 repeats && w.reserve 2 repeats) = true
  · rw [if_pos hreserve]
    change (if _ then _ else _) = _
    rw [if_pos hreserve]
    change measureRoundsIn w fuel sizeBytes src dst repeats 0
      { ram := painted ram src dst sizeBytes.toNat 0x55, checksum := 0, rates := _ } = _
    rw [measureRoundsIn_eq w h hroom hfuel, if_neg hrepeats]
    cases measureRounds w sizeBytes.toNat repeats 0 _ with
    | none => rfl
    | some rates => rfl
  · rw [if_neg hreserve]
    change (if _ then _ else _) = _
    rw [if_neg hreserve]

end Rounds

/-! ## Where the buffers are -/

/-- The bytes that an allocator is asked for. -/
def lengthOf (sizeBytes : SizeT abi) (method : Text) (numaNode : Int) : SizeT abi :=
  if numaNode < 0 ∧ method = "LargePage".toList then largePageLength sizeBytes else sizeBytes

/-- What the allocators promise of the two blocks that they hand out for a length: the blocks are
not empty, lie in the address space and have no byte in common. -/
structure World.Places (w : World) (abi : Abi) (length : Nat) : Prop where
  nonempty : ∀ k < 2, ∀ p, w.memory k = some p → 0 < length
  inside : ∀ k < 2, ∀ p, w.memory k = some p → p + length ≤ 2 ^ abi.sizeBits
  apart : ∀ p q, w.memory 0 = some p → w.memory 1 = some q → Apart q p length

theorem allocateBuffer_spec {w : World} {k : Nat} {sizeBytes : SizeT abi} {method : Text}
    {numaNode : Int} {allocation : Allocation abi} {log : List (Entry (Memory abi))}
    (h : allocateBuffer w k sizeBytes method numaNode = .ok (allocation, log)) :
    allocation.size = lengthOf sizeBytes method numaNode ∧
      ∀ p, allocation.pointer = some p → w.memory k = some p := by
  unfold allocateBuffer at h
  unfold lengthOf
  by_cases hnode : 0 ≤ numaNode
  · rw [if_pos hnode] at h
    rw [if_neg fun hlarge => absurd hlarge.1 (not_lt.2 hnode)]
    split at h
    · cases h
      refine ⟨rfl, fun p hp => ?_⟩
      -- `numa_alloc_onnode` may return null, and then there is no block.
      unfold allocateOnNode at hp
      split at hp
      · cases hp
      · exact hp
    · cases h
      exact ⟨rfl, fun p hp => nomatch hp⟩
  · rw [if_neg hnode] at h
    have hneg : numaNode < 0 := not_le.1 hnode
    -- Only `LargePage` rounds the length that it asks for.
    by_cases hlarge : method = "LargePage".toList
    · subst hlarge
      cases h
      rw [if_pos ⟨hneg, rfl⟩]
      exact ⟨rfl, fun p hp => hp⟩
    · rw [if_neg fun hboth => hlarge hboth.2]
      rw [if_neg hlarge] at h
      split at h
      · cases h
        exact ⟨rfl, fun p hp => hp⟩
      split at h
      · cases h
        exact ⟨rfl, fun p hp => hp⟩
      · cases h

/-- The bits under a mask and the others add up to the number. -/
theorem toNat_and_add_toNat_and {width : Nat} (x m : BitVec width) :
    (x &&& ~~~m).toNat + (x &&& m).toNat = x.toNat := by
  -- Without a common bit, the sum is the union.
  have hdisjoint : (x &&& ~~~m) &&& (x &&& m) = BitVec.ofNat width 0 := by
    ext i hi
    simp only [BitVec.getElem_and, BitVec.getElem_not, BitVec.getElem_zero]
    cases x[i] <;> cases m[i] <;> rfl
  have hunion : (x &&& ~~~m) ||| (x &&& m) = x := by
    ext i hi
    simp only [BitVec.getElem_or, BitVec.getElem_and, BitVec.getElem_not]
    cases x[i] <;> cases m[i] <;> rfl
  rw [← BitVec.toNat_add_of_and_eq_zero hdisjoint, BitVec.add_eq_or_of_and_eq_zero _ _ hdisjoint,
    hunion]

/-- The length as a number: whole pages of what is left of the sum in `size_t`. -/
theorem toNat_largePageLength (requested : SizeT abi) :
    (largePageLength requested).toNat =
      (requested.toNat + 2097151) % 2 ^ abi.sizeBits / 2097152 * 2097152 := by
  have hmask : (BitVec.ofNat abi.sizeBits Config.largePageSize - 1).toNat = 2097151 := by
    cases abi <;> rfl
  have hsum : (requested + BitVec.ofNat abi.sizeBits Config.largePageSize - 1).toNat =
      (requested.toNat + 2097151) % 2 ^ abi.sizeBits := by
    rw [BitVec.sub_eq_add_neg, BitVec.add_assoc, ← BitVec.sub_eq_add_neg, BitVec.toNat_add, hmask]
  have hsplit := toNat_and_add_toNat_and
    (requested + BitVec.ofNat abi.sizeBits Config.largePageSize - 1)
    (BitVec.ofNat abi.sizeBits Config.largePageSize - 1)
  have hlow : (2097151 : Nat) = 2 ^ 21 - 1 := rfl
  rw [BitVec.toNat_and (_ - 1) (_ - 1), hmask, hsum, hlow, Nat.and_two_pow_sub_one_eq_mod,
    ← hlow] at hsplit
  unfold largePageLength
  dsimp only
  omega

/-- The sum wraps where the pages do not fit into `size_t`, and the length is 0 then. -/
theorem le_largePageLength {requested : SizeT abi} (hpos : 0 < (largePageLength requested).toNat) :
    requested.toNat ≤ (largePageLength requested).toNat := by
  have hlt := requested.isLt
  have hroom := abi.two_pow_le_sizeMax
  rw [toNat_largePageLength] at hpos ⊢
  generalize 2 ^ abi.sizeBits = size at *
  by_cases hfits : requested.toNat + 2097151 < size
  -- Rounding down takes away less than the sum has added.
  · rw [Nat.mod_eq_of_lt hfits]
    omega
  -- What is left after a wrap is less than a page, which contradicts the positive length.
  · have hwraps : (requested.toNat + 2097151) % size < 2097152 := by
      rw [Nat.mod_eq_sub_mod (not_lt.1 hfits), Nat.mod_eq_of_lt] <;> omega
    omega

theorem le_lengthOf {sizeBytes : SizeT abi} {method : Text} {numaNode : Int}
    (hpos : 0 < (lengthOf sizeBytes method numaNode).toNat) :
    sizeBytes.toNat ≤ (lengthOf sizeBytes method numaNode).toNat := by
  unfold lengthOf at hpos ⊢
  by_cases hlarge : numaNode < 0 ∧ method = "LargePage".toList
  · rw [if_pos hlarge] at hpos ⊢
    exact le_largePageLength hpos
  · rw [if_neg hlarge]

namespace World.Places

variable {w : World} {length n src dst : Nat} (h : w.Places abi length) (hle : n ≤ length)
  (hsrc : w.memory 0 = some src) (hdst : w.memory 1 = some dst)

include h hle hsrc hdst

theorem buffered (bytes : Nat → UInt8) :
    Buffered { blocks := [⟨src, length⟩, ⟨dst, length⟩], bytes := bytes } src dst n where
  source := ⟨⟨src, length⟩, List.mem_cons_self, le_rfl, Nat.add_le_add_left hle src⟩
  target := ⟨⟨dst, length⟩, List.mem_cons_of_mem _ List.mem_cons_self, le_rfl,
    Nat.add_le_add_left hle dst⟩
  apart := (h.apart src dst hsrc hdst).mono hle

/-- Neither of two such blocks takes up more than half of the address space, so a counter of their
bytes is far from its end. -/
theorem room : n + 64 ≤ 2 ^ abi.sizeBits := by
  have hsrcEnd := h.inside 0 (by decide) src hsrc
  have hdstEnd := h.inside 1 (by decide) dst hdst
  -- One block ends before the other one starts, and neither leaves the address space.
  have hapart := h.apart src dst hsrc hdst
  have hsize := abi.two_pow_le_sizeMax
  unfold Apart at hapart
  omega

end World.Places

/-! ## The measurement in memory -/

theorem involutive_xor (value : UInt8) : Function.Involutive (· ^^^ value) := by
  intro checksum
  dsimp only
  rw [UInt8.xor_assoc, UInt8.xor_self, UInt8.xor_zero]

theorem checksum_eq (passes : Nat) :
    (· ^^^ (0xAA : UInt8))^[passes] 0 = if passes % 2 = 0 then 0 else 0xAA := by
  by_cases heven : passes % 2 = 0
  -- Passes cancel in pairs.
  · rw [if_pos heven, (involutive_xor 0xAA).iterate_even (Nat.even_iff.2 heven)]
    rfl
  · have hodd : Odd passes := Nat.odd_iff.2 (Nat.mod_two_ne_zero.1 heven)
    rw [if_neg heven, (involutive_xor 0xAA).iterate_odd hodd]
    rfl

theorem bytes_painted (ram : Ram) (src dst n : Nat) :
    (painted ram src dst n 0xAA).bytes = fun a =>
      if (src ≤ a ∧ a < src + n) ∨ (dst ≤ a ∧ a < dst + n) then 0xAA else ram.bytes a := by
  funext a
  unfold painted Ram.filled
  dsimp only
  by_cases hdst : dst ≤ a ∧ a < dst + n
  · rw [if_pos hdst, if_pos (Or.inr hdst)]
  · rw [if_neg hdst]
    by_cases hsrc : src ≤ a ∧ a < src + n
    · rw [if_pos hsrc, if_pos (Or.inl hsrc)]
    · rw [if_neg hsrc, if_neg (not_or.2 ⟨hsrc, hdst⟩)]

/-- Whatever the size, the allocator and the number of repetitions are, the measurement accesses no
byte outside of its buffers and all of its loops end; it returns and throws what it does without
the bytes.  When it returns, the buffers hold the byte of the first touch, the checksum is known
and no other byte has changed. -/
theorem measure_in_buffers (w : World) (bytes : Nat → UInt8) {fuel : Nat} {sizeBytes : SizeT abi}
    (method : Text) (repeats numaNode : Int)
    (hplaces : w.Places abi (lengthOf sizeBytes method numaNode).toNat)
    (hfuel : lines sizeBytes < fuel) :
    match (measure w sizeBytes method repeats numaNode).1 with
    | .error thrown =>
        measureIn w bytes fuel sizeBytes method repeats numaNode = .error (.thrown thrown)
    | .ok result => ∃ src dst, w.memory 0 = some src ∧ w.memory 1 = some dst ∧
        measureIn w bytes fuel sizeBytes method repeats numaNode = .ok {
          result := result
          bytes := fun a =>
            if (src ≤ a ∧ a < src + sizeBytes.toNat) ∨ (dst ≤ a ∧ a < dst + sizeBytes.toNat) then
              0xAA
            else bytes a
          checksum := if repeats.toNat * lines sizeBytes % 2 = 0 then 0 else 0xAA } := by
  unfold measure measureIn
  by_cases harguments : sizeBytes = 0 ∨ repeats ≤ 0
  · rw [if_pos harguments, if_pos harguments]
  rw [if_neg harguments, if_neg harguments]
  have hrepeats : repeats.toNat ≠ 0 := by
    have hpositive := not_le.1 fun hle => harguments (Or.inr hle)
    omega
  cases hsrc : allocateBuffer w 0 sizeBytes method numaNode with
  | error thrown => rfl
  | ok src =>
      obtain ⟨src, srcLog⟩ := src
      cases hdst : allocateBuffer w 1 sizeBytes method numaNode with
      | error thrown => rfl
      | ok dst =>
          obtain ⟨dst, dstLog⟩ := dst
          obtain ⟨hsrcSize, hsrcMemory⟩ := allocateBuffer_spec hsrc
          obtain ⟨hdstSize, hdstMemory⟩ := allocateBuffer_spec hdst
          dsimp only
          cases hp : src.pointer with
          | none => rw [if_pos (Or.inl rfl)]
          | some p =>
              cases hq : dst.pointer with
              | none => rw [if_pos (Or.inr rfl)]
              | some q =>
                  have hp := hsrcMemory p hp
                  have hq := hdstMemory q hq
                  have hle := le_lengthOf (hplaces.nonempty 0 (by decide) p hp)
                  -- Both blocks are there, and large enough for what was asked for.
                  rw [if_neg (by simp), hsrcSize, hdstSize]
                  dsimp only
                  rw [measureRatesIn_eq w (hplaces.buffered hle hp hq bytes)
                    (hplaces.room hle hp hq) hfuel hrepeats]
                  cases measureRates w sizeBytes.toNat repeats.toNat with
                  | error thrown => rfl
                  | ok rates =>
                      refine ⟨p, q, hp, hq, ?_⟩
                      dsimp only
                      rw [bytes_painted, checksum_eq]

/-- A page on a node that is copied once: 64 passes leave the checksum as it was. -/
theorem measure_in_buffers_page :
    ∃ result, measureIn (meteredWorld 6) (fun _ => 0) 65 (4096 : SizeT .x8664) "numa".toList 1 1 =
      .ok {
        result := result
        bytes := fun a => if (4096 ≤ a ∧ a < 8192) ∨ (8192 ≤ a ∧ a < 12288) then 0xAA else 0
        checksum := 0 } := by
  have hplaces : (meteredWorld 6).Places .x8664
      (lengthOf (4096 : SizeT .x8664) "numa".toList 1).toNat := by
    have hlength : (lengthOf (4096 : SizeT .x8664) "numa".toList 1).toNat = 4096 := by decide
    rw [hlength]
    refine ⟨fun _ _ _ _ => by decide, ?_, ?_⟩
    · rintro k hk p ⟨⟩
      have hend : 4096 * (k + 1) + 4096 ≤ 2 ^ 14 := by omega
      exact hend.trans (by decide)
    · rintro p q ⟨⟩ ⟨⟩
      decide
  have hrun := measure_in_buffers (meteredWorld 6) (fun _ => 0) "numa".toList 1 1 hplaces
    (by decide : lines (4096 : SizeT .x8664) < 65)
  have hreturns :
      (measure (meteredWorld 6) (4096 : SizeT .x8664) "numa".toList 1 1).1.isOk = true := by
    decide
  cases hmeasure : (measure (meteredWorld 6) (4096 : SizeT .x8664) "numa".toList 1 1).1 with
  | error thrown =>
      rw [hmeasure] at hreturns
      cases hreturns
  | ok result =>
      rw [hmeasure] at hrun
      obtain ⟨_, _, ⟨⟩, ⟨⟩, hrun⟩ := hrun
      exact ⟨result, hrun⟩

end Buffers

end Bandwidth
end LatencyAnalyzer
