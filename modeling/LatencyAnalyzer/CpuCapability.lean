import Mathlib.Data.List.DropRight
import LatencyAnalyzer.Cxx.Text
import LatencyAnalyzer.CpuInfo.Caches
import LatencyAnalyzer.Lib.Chunks

/-!
# CpuCapability — how `cpu_capability.cpp` identifies the processor

The vendor is twelve bytes of the first leaf, the brand 48 bytes of three extended leaves, and the
signature packs stepping, model and family, of which large ones are split over two fields.  From
the registers that describe a processor its identity comes back.
-/

namespace LatencyAnalyzer
namespace CpuCapability

open Cxx
open CpuInfo (Registers)
open Lib

/-! ## The code -/

/-- What `detect` asks the processor for. -/
structure Leaves where
  /-- `max_basic_leaf()` and `max_extended_leaf()`, which are 0 without such leaves. -/
  maxBasicLeaf : BitVec 32
  maxExtendedLeaf : BitVec 32
  leaf0 : Registers
  leaf1 : Registers
  /-- The leaves from `0x80000002` on. -/
  brandLeaf : Fin 3 → Registers
  /-- `__builtin_cpu_supports`. -/
  avx2 : Bool
  avx512f : Bool

structure CpuCapabilityInfo where
  vendor : Text
  brand : Text
  family : BitVec 32
  model : BitVec 32
  stepping : BitVec 32
  sse : Bool
  sse2 : Bool
  sse42 : Bool
  avx : Bool
  avx2 : Bool
  avx512f : Bool
  deriving DecidableEq, Repr

/-- The four bytes of a register in memory. -/
def bytes (r : BitVec 32) : Text :=
  [Char.ofNat (r &&& 0xFF#32).toNat, Char.ofNat ((r >>> 8) &&& 0xFF#32).toNat,
    Char.ofNat ((r >>> 16) &&& 0xFF#32).toNat, Char.ofNat ((r >>> 24) &&& 0xFF#32).toNat]

/-- The string in a buffer of characters, which a zero ends. -/
def cString (buffer : Text) : Text :=
  buffer.takeWhile (· != '\x00')

def unknown : Text :=
  "Unknown".toList

def readBrand (leaves : Leaves) : Text :=
  if leaves.maxExtendedLeaf.toNat < 0x80000004 then unknown
  else
    let regs := (List.finRange 3).map leaves.brandLeaf
    let brand := regs.flatMap fun r => bytes r.eax ++ bytes r.ebx ++ bytes r.ecx ++ bytes r.edx
    -- The loops over `front()` and `back()`.
    let value := ((cString (brand ++ ['\x00'])).dropWhile (· == ' ')).rdropWhile (· == ' ')
    if value.isEmpty then unknown else value

/-- Some bits of `regs[0]` of the first leaf. -/
def signatureField (leaves : Leaves) (offset : Nat) (mask : BitVec 32) : BitVec 32 :=
  (leaves.leaf1.eax >>> offset) &&& mask

def familyOf (leaves : Leaves) : BitVec 32 :=
  let baseFamily := signatureField leaves 8 0xF
  let extFamily := signatureField leaves 20 0xFF
  if baseFamily = 0xF then baseFamily + extFamily else baseFamily

def modelOf (leaves : Leaves) : BitVec 32 :=
  let baseFamily := signatureField leaves 8 0xF
  let baseModel := signatureField leaves 4 0xF
  let extModel := signatureField leaves 16 0xF
  if baseFamily = 0x6 ∨ baseFamily = 0xF then (extModel <<< 4) ||| baseModel else baseModel

/-- The maximal frequency, which `detect` reads from a file, is left out. -/
def detect (leaves : Leaves) : CpuCapabilityInfo :=
  let vendor := bytes leaves.leaf0.ebx ++ bytes leaves.leaf0.edx ++ bytes leaves.leaf0.ecx
  let info : CpuCapabilityInfo :=
    { vendor := cString (vendor ++ ['\x00'])
      brand := readBrand leaves
      family := 0
      model := 0
      stepping := 0
      sse := false
      sse2 := false
      sse42 := false
      avx := false
      avx2 := leaves.avx2
      avx512f := leaves.avx512f }
  if leaves.maxBasicLeaf.toNat < 1 then info
  else
    { info with
      family := familyOf leaves
      model := modelOf leaves
      stepping := leaves.leaf1.eax &&& 0xF#32
      sse := leaves.leaf1.edx &&& (1#32 <<< 25) != 0
      sse2 := leaves.leaf1.edx &&& (1#32 <<< 26) != 0
      sse42 := leaves.leaf1.ecx &&& (1#32 <<< 20) != 0
      avx := leaves.leaf1.ecx &&& (1#32 <<< 28) != 0 }

/-! ## A processor -/

/-- Family, model and stepping, as far as the signature can hold them. -/
structure Signature where
  family : Nat
  model : Nat
  stepping : Fin 16
  family_le : family ≤ 15 + 255
  model_lt : model < if family = 6 ∨ 15 ≤ family then 256 else 16

namespace Signature

/-- The families whose models take two fields. -/
def Extended (s : Signature) : Prop :=
  s.family = 6 ∨ 15 ≤ s.family

instance (s : Signature) : Decidable s.Extended :=
  inferInstanceAs (Decidable (_ ∨ _))

def nibble (n : Nat) : BitField :=
  { width := 4, value := n % 16, fits := Nat.mod_lt _ (by decide) }

def baseFamily (s : Signature) : BitField :=
  { width := 4, value := min s.family 15, fits := by omega }

/-- The upper half of the model.  Where the format leaves it open it is that of `noise`. -/
def extModel (s : Signature) (noise : BitVec 32) : BitField :=
  { width := 4
    value := if s.Extended then s.model / 16 else BitField.extract noise.toNat 16 4
    fits := by
      have hmodel := s.model_lt
      split
      · rename_i h
        have hlt : s.model < 256 := lt_of_lt_of_eq hmodel (if_pos h)
        omega
      · exact Nat.mod_lt _ (by decide) }

def extFamily (s : Signature) (noise : BitVec 32) : BitField :=
  { width := 8
    value := if 15 ≤ s.family then s.family - 15 else BitField.extract noise.toNat 20 8
    fits := by
      have hfamily := s.family_le
      split
      · omega
      · exact Nat.mod_lt _ (by decide) }

def register (s : Signature) (noise : BitVec 32) : BitVec 32 :=
  BitField.register 32
    [nibble s.stepping, nibble s.model, s.baseFamily, BitField.slice noise.toNat 12 4,
      s.extModel noise, s.extFamily noise, BitField.slice noise.toNat 28 4]

end Signature

/-- The characters of `cpuid` are bytes other than zero. -/
def IsName (text : Text) : Prop :=
  ∀ c ∈ text, c.toNat < 256 ∧ c ≠ '\x00'

instance (text : Text) : Decidable (IsName text) :=
  List.decidableBAll _ text

/-- A brand with the spaces around it, which are not part of it.  It may be blank. -/
structure Brand where
  text : Text
  name : IsName text
  head : text.head? ≠ some ' '
  last : text.getLast? ≠ some ' '
  /-- Spaces in front of it and behind it. -/
  front : Nat
  back : Nat
  fits : front + text.length + back ≤ 48

/-- A processor, as its leaves describe it. -/
structure Processor where
  vendor : Text
  vendor_name : IsName vendor
  vendor_length : vendor.length ≤ 12
  brand : Brand
  signature : Signature
  sse : Bool
  sse2 : Bool
  sse42 : Bool
  avx : Bool
  avx2 : Bool
  avx512f : Bool
  maxBasicLeaf : BitVec 32
  maxExtendedLeaf : BitVec 32
  noise : Registers

def charField (c : Char) : BitField :=
  { width := 8, value := c.toNat % 256, fits := Nat.mod_lt _ (by decide) }

/-- Four characters in a register, the first one in the low byte. -/
def word (text : Text) : BitVec 32 :=
  BitField.register 32 (text.map charField)

/-- A buffer of some length, with zeros behind the text. -/
def padded (length : Nat) (text : Text) : Text :=
  text ++ List.replicate (length - text.length) '\x00'

def Brand.image (b : Brand) : Text :=
  padded 48 (List.replicate b.front ' ' ++ (b.text ++ List.replicate b.back ' '))

namespace Processor

variable (p : Processor)

def vendorWord (i : Nat) : BitVec 32 :=
  word (chunk 4 (padded 12 p.vendor) i)

def brandWord (i : Nat) : BitVec 32 :=
  word (chunk 4 p.brand.image i)

def leaves : Leaves :=
  { maxBasicLeaf := p.maxBasicLeaf
    maxExtendedLeaf := p.maxExtendedLeaf
    leaf0 :=
      { eax := p.maxBasicLeaf
        ebx := p.vendorWord 0
        -- The second part of the vendor stands in the last register.
        ecx := p.vendorWord 2
        edx := p.vendorWord 1 }
    leaf1 :=
      { eax := p.signature.register p.noise.eax
        ebx := p.noise.ebx
        ecx := BitField.register 32
          [BitField.slice p.noise.ecx.toNat 0 20, BitField.flag p.sse42,
            BitField.slice p.noise.ecx.toNat 21 7, BitField.flag p.avx,
            BitField.slice p.noise.ecx.toNat 29 3]
        edx := BitField.register 32
          [BitField.slice p.noise.edx.toNat 0 25, BitField.flag p.sse, BitField.flag p.sse2,
            BitField.slice p.noise.edx.toNat 27 5] }
    brandLeaf := fun k =>
      { eax := p.brandWord (4 * k)
        ebx := p.brandWord (4 * k + 1)
        ecx := p.brandWord (4 * k + 2)
        edx := p.brandWord (4 * k + 3) }
    avx2 := p.avx2
    avx512f := p.avx512f }

end Processor

/-! ## Texts in registers -/

section Texts

theorem bytes_word {text : Text} (hlength : text.length = 4) (h : ∀ c ∈ text, c.toNat < 256) :
    bytes (word text) = text := by
  match text, hlength with
  | [a, b, c, d], _ =>
      have hchar : ∀ x ∈ [a, b, c, d], Char.ofNat (charField x).value = x := by
        intro x hx
        have hvalue : (charField x).value = x.toNat := Nat.mod_eq_of_lt (h x hx)
        rw [hvalue, Char.ofNat_toNat]
      have ha := @BitField.toNat_register_and_mask 32 (charField a)
        [charField b, charField c, charField d] (le_refl 32)
      have hb := @BitField.toNat_register_shift_and_mask 32 [charField a]
        [charField c, charField d] (charField b) (le_refl 32)
      have hc := @BitField.toNat_register_shift_and_mask 32 [charField a, charField b]
        [charField d] (charField c) (le_refl 32)
      have hd := @BitField.toNat_register_shift_and_mask 32
        [charField a, charField b, charField c] [] (charField d) (le_refl 32)
      have hbytes : bytes (word [a, b, c, d]) = [Char.ofNat (charField a).value,
          Char.ofNat (charField b).value, Char.ofNat (charField c).value,
          Char.ofNat (charField d).value] := by
        rw [← ha, ← hb, ← hc, ← hd]
        rfl
      rw [hbytes, hchar a (by simp), hchar b (by simp), hchar c (by simp), hchar d (by simp)]

theorem length_padded {length : Nat} {text : Text} (h : text.length ≤ length) :
    (padded length text).length = length := by
  unfold padded
  rw [List.length_append, List.length_replicate]
  omega

theorem isByte_padded {length : Nat} {text : Text} (h : ∀ c ∈ text, c.toNat < 256) :
    ∀ c ∈ padded length text, c.toNat < 256 := by
  intro c hc
  rcases List.mem_append.1 hc with hc | hc
  · exact h c hc
  · rw [(List.mem_replicate.1 hc).2]
    decide

/-- A buffer that is kept in registers comes back from them. -/
theorem bytes_chunk {buffer : Text} {n i : Nat} (hlength : buffer.length = n * 4)
    (h : ∀ c ∈ buffer, c.toNat < 256) (hi : i < n) :
    bytes (word (chunk 4 buffer i)) = chunk 4 buffer i := by
  have hfull : i < buffer.length / 4 := by omega
  refine bytes_word (chunk_length hfull) fun c hc => h c ?_
  exact List.mem_of_mem_drop (List.mem_of_mem_take hc)

/-- The zeros behind a text end it. -/
theorem cString_padded {length : Nat} {text : Text} (h : '\x00' ∉ text) :
    cString (padded length text ++ ['\x00']) = text := by
  have htext : ∀ c ∈ text, (c != '\x00') = true := fun c hc =>
    bne_iff_ne.2 (ne_of_mem_of_not_mem hc h)
  have hzeros : (List.replicate (length - text.length) '\x00' ++ ['\x00']).takeWhile
      (· != '\x00') = [] := by
    rw [← List.replicate_succ']
    rfl
  unfold cString padded
  rw [List.append_assoc, List.takeWhile_append_of_pos htext, hzeros, List.append_nil]

theorem trim_spaces (front back : Nat) {text : Text}
    (hhead : text.head? ≠ some ' ') (hlast : text.getLast? ≠ some ' ') :
    ((List.replicate front ' ' ++ (text ++ List.replicate back ' ')).dropWhile
      (· == ' ')).rdropWhile (· == ' ') = text := by
  have hspaces : ∀ n rest, (List.replicate n ' ' ++ rest).dropWhile (· == ' ') =
      rest.dropWhile (· == ' ') := fun n rest =>
    List.dropWhile_append_of_pos fun c hc => beq_iff_eq.2 (List.mem_replicate.1 hc).2
  rw [hspaces]
  by_cases hblank : text = []
  · -- The first loop has taken all the spaces already.
    have hback := hspaces back []
    rw [List.append_nil] at hback
    rw [hblank, List.nil_append, hback]
    rfl
  have hfront : ∀ rest : Text, (text ++ rest).dropWhile (· == ' ') = text ++ rest := by
    intro rest
    cases text with
    | nil => exact absurd rfl hblank
    | cons c text =>
        have hc : ¬ (c == ' ') = true := fun heq => hhead (congrArg some (beq_iff_eq.1 heq))
        exact List.dropWhile_cons_of_neg hc
  rw [hfront]
  induction back with
  | zero =>
      rw [List.replicate_zero, List.append_nil, List.rdropWhile_eq_self_iff]
      intro hnonempty hspace
      rw [List.getLast?_eq_getLast_of_ne_nil hnonempty] at hlast
      exact hlast (congrArg some (beq_iff_eq.1 hspace))
  | succ back ih =>
      rw [List.replicate_succ', ← List.append_assoc, List.rdropWhile_concat_pos _ _ _ rfl, ih]

end Texts

/-! ## The signature -/

section Fields

variable (p : Processor)

theorem toNat_stepping : (p.leaves.leaf1.eax &&& 0xF#32).toNat = p.signature.stepping := by
  have hfield := @BitField.toNat_register_and_mask 32 (Signature.nibble p.signature.stepping)
    [Signature.nibble p.signature.model, p.signature.baseFamily,
      BitField.slice p.noise.eax.toNat 12 4, p.signature.extModel p.noise.eax,
      p.signature.extFamily p.noise.eax, BitField.slice p.noise.eax.toNat 28 4] (le_refl 32)
  exact hfield.trans (Nat.mod_eq_of_lt p.signature.stepping.isLt)

theorem toNat_baseModel : (signatureField p.leaves 4 0xF).toNat = p.signature.model % 16 :=
  @BitField.toNat_register_shift_and_mask 32 [Signature.nibble p.signature.stepping]
    [p.signature.baseFamily, BitField.slice p.noise.eax.toNat 12 4,
      p.signature.extModel p.noise.eax, p.signature.extFamily p.noise.eax,
      BitField.slice p.noise.eax.toNat 28 4] (Signature.nibble p.signature.model) (le_refl 32)

theorem toNat_baseFamily : (signatureField p.leaves 8 0xF).toNat = min p.signature.family 15 :=
  @BitField.toNat_register_shift_and_mask 32
    [Signature.nibble p.signature.stepping, Signature.nibble p.signature.model]
    [BitField.slice p.noise.eax.toNat 12 4, p.signature.extModel p.noise.eax,
      p.signature.extFamily p.noise.eax, BitField.slice p.noise.eax.toNat 28 4]
    p.signature.baseFamily (le_refl 32)

theorem toNat_extModel :
    (signatureField p.leaves 16 0xF).toNat = (p.signature.extModel p.noise.eax).value :=
  @BitField.toNat_register_shift_and_mask 32
    [Signature.nibble p.signature.stepping, Signature.nibble p.signature.model,
      p.signature.baseFamily, BitField.slice p.noise.eax.toNat 12 4]
    [p.signature.extFamily p.noise.eax, BitField.slice p.noise.eax.toNat 28 4]
    (p.signature.extModel p.noise.eax) (le_refl 32)

theorem toNat_extFamily :
    (signatureField p.leaves 20 0xFF).toNat = (p.signature.extFamily p.noise.eax).value :=
  @BitField.toNat_register_shift_and_mask 32
    [Signature.nibble p.signature.stepping, Signature.nibble p.signature.model,
      p.signature.baseFamily, BitField.slice p.noise.eax.toNat 12 4,
      p.signature.extModel p.noise.eax]
    [BitField.slice p.noise.eax.toNat 28 4] (p.signature.extFamily p.noise.eax) (le_refl 32)

/-- The base family tells which of the fields count. -/
theorem baseFamily_eq_iff (n : Nat) (h : n ≤ 15) :
    signatureField p.leaves 8 0xF = BitVec.ofNat 32 n ↔ min p.signature.family 15 = n := by
  rw [← BitVec.toNat_inj, toNat_baseFamily, BitVec.toNat_ofNat, Nat.mod_eq_of_lt (by omega)]

theorem familyOf_leaves : (familyOf p.leaves).toNat = p.signature.family := by
  have hbase := toNat_baseFamily p
  have hlarge : signatureField p.leaves 8 0xF = 0xF ↔ 15 ≤ p.signature.family :=
    (baseFamily_eq_iff p 15 (le_refl 15)).trans min_eq_right_iff
  unfold familyOf
  dsimp only
  by_cases h : 15 ≤ p.signature.family
  · have hext : (signatureField p.leaves 20 0xFF).toNat = p.signature.family - 15 :=
      (toNat_extFamily p).trans (if_pos h)
    have hle := p.signature.family_le
    rw [if_pos (hlarge.2 h), BitVec.toNat_add, hbase, hext]
    omega
  · rw [if_neg (fun heq => h (hlarge.1 heq)), hbase]
    omega

theorem modelOf_leaves : (modelOf p.leaves).toNat = p.signature.model := by
  have hbase := toNat_baseModel p
  have hextended : (signatureField p.leaves 8 0xF = 0x6 ∨ signatureField p.leaves 8 0xF = 0xF) ↔
      p.signature.Extended := by
    refine (or_congr (baseFamily_eq_iff p 6 (by decide))
      (baseFamily_eq_iff p 15 (le_refl 15))).trans ?_
    unfold Signature.Extended
    omega
  have hmodel := p.signature.model_lt
  unfold modelOf
  dsimp only
  by_cases h : p.signature.Extended
  · have hlt : p.signature.model < 256 := lt_of_lt_of_eq hmodel (if_pos h)
    have hext : (signatureField p.leaves 16 0xF).toNat = p.signature.model / 16 :=
      (toNat_extModel p).trans (if_pos h)
    have hshift :
        (p.signature.model / 16) <<< 4 % 2 ^ 32 = (p.signature.model / 16) <<< 4 := by
      rw [Nat.shiftLeft_eq]
      omega
    rw [if_pos (hextended.2 h), BitVec.toNat_or, BitVec.toNat_shiftLeft, hext, hbase, hshift,
      ← Nat.shiftLeft_add_eq_or_of_lt (Nat.mod_lt _ (by decide)), Nat.shiftLeft_eq]
    omega
  · have hlt : p.signature.model < 16 := lt_of_lt_of_eq hmodel (if_neg h)
    rw [if_neg (fun heq => h (hextended.1 heq)), hbase, Nat.mod_eq_of_lt hlt]

end Fields

/-! ## The identity -/

/-- A blank brand is reported like one that is missing. -/
def Brand.shown (b : Brand) : Text :=
  if b.text.isEmpty then unknown else b.text

/-- What there is to find out about a processor: without the leaves for them, brand and signature
stay at their defaults. -/
def Processor.identity (p : Processor) : CpuCapabilityInfo :=
  let signed := 1 ≤ p.maxBasicLeaf.toNat
  { vendor := p.vendor
    brand := if 0x80000004 ≤ p.maxExtendedLeaf.toNat then p.brand.shown else unknown
    family := if signed then BitVec.ofNat 32 p.signature.family else 0
    model := if signed then BitVec.ofNat 32 p.signature.model else 0
    stepping := if signed then BitVec.ofNat 32 p.signature.stepping else 0
    sse := signed && p.sse
    sse2 := signed && p.sse2
    sse42 := signed && p.sse42
    avx := signed && p.avx
    avx2 := p.avx2
    avx512f := p.avx512f }

section Identity

variable (p : Processor)

theorem IsName.zero_not_mem {text : Text} (h : IsName text) : '\x00' ∉ text :=
  fun hc => (h _ hc).2 rfl

theorem cString_vendor :
    cString (bytes p.leaves.leaf0.ebx ++ bytes p.leaves.leaf0.edx ++ bytes p.leaves.leaf0.ecx ++
      ['\x00']) = p.vendor := by
  have hlength : (padded 12 p.vendor).length = 3 * 4 := length_padded p.vendor_length
  have hbyte := @isByte_padded 12 _ fun c hc => (p.vendor_name c hc).1
  have hword : ∀ i < 3, bytes (p.vendorWord i) = chunk 4 (padded 12 p.vendor) i :=
    fun i hi => bytes_chunk hlength hbyte hi
  have hchunks : chunk 4 (padded 12 p.vendor) 0 ++ chunk 4 (padded 12 p.vendor) 1 ++
      chunk 4 (padded 12 p.vendor) 2 = padded 12 p.vendor := by
    have hflatten := flatten_chunks 4 (padded 12 p.vendor)
    unfold chunks at hflatten
    rw [hlength, List.take_of_length_le (le_of_eq hlength)] at hflatten
    simpa [List.range_succ] using hflatten
  calc
    cString (bytes (p.vendorWord 0) ++ bytes (p.vendorWord 1) ++ bytes (p.vendorWord 2) ++
        ['\x00']) = cString (padded 12 p.vendor ++ ['\x00']) := by
      rw [hword 0 (by decide), hword 1 (by decide), hword 2 (by decide), hchunks]
    _ = p.vendor := cString_padded p.vendor_name.zero_not_mem

/-- The twelve registers of the brand, from the first to the last. -/
theorem brandRegisters_eq :
    ((List.finRange 3).map p.leaves.brandLeaf).flatMap
        (fun r => bytes r.eax ++ bytes r.ebx ++ bytes r.ecx ++ bytes r.edx) =
      (List.range 12).flatMap fun i => bytes (p.brandWord i) := by
  simp [List.finRange_succ, List.range_succ, Processor.leaves]

theorem readBrand_leaves (h : 0x80000004 ≤ p.maxExtendedLeaf.toNat) :
    readBrand p.leaves = p.brand.shown := by
  have hlength : p.brand.image.length = 12 * 4 := by
    refine length_padded ?_
    have hfits := p.brand.fits
    simp only [List.length_append, List.length_replicate]
    omega
  have hspaced : ∀ c ∈ List.replicate p.brand.front ' ' ++
      (p.brand.text ++ List.replicate p.brand.back ' '), c.toNat < 256 ∧ c ≠ '\x00' := by
    intro c hc
    have hspace : (' ').toNat < 256 ∧ ' ' ≠ '\x00' := by decide
    rcases List.mem_append.1 hc with hc | hc
    · rwa [(List.mem_replicate.1 hc).2]
    · rcases List.mem_append.1 hc with hc | hc
      · exact p.brand.name c hc
      · rwa [(List.mem_replicate.1 hc).2]
  have hbyte := @isByte_padded 48 _ fun c hc => (hspaced c hc).1
  have himage : (List.range 12).flatMap (fun i => bytes (p.brandWord i)) = p.brand.image := by
    have hword : ∀ i ∈ List.range 12, bytes (p.brandWord i) = chunk 4 p.brand.image i :=
      fun i hi => bytes_chunk hlength hbyte (List.mem_range.1 hi)
    have hflatten := flatten_chunks 4 p.brand.image
    unfold chunks at hflatten
    rw [hlength, List.take_of_length_le (le_of_eq hlength)] at hflatten
    rw [List.flatMap_def, List.map_congr_left hword]
    exact hflatten
  have hstring := @cString_padded 48 _ fun hc => (hspaced _ hc).2 rfl
  have htrim := trim_spaces p.brand.front p.brand.back p.brand.head p.brand.last
  have hleaf : ¬ p.leaves.maxExtendedLeaf.toNat < 0x80000004 := Nat.not_lt.2 h
  unfold readBrand
  dsimp only
  rw [if_neg hleaf, brandRegisters_eq, himage]
  unfold Brand.image
  rw [hstring, htrim]
  rfl

theorem detect_leaves : detect p.leaves = p.identity := by
  have hvendor := cString_vendor p
  have hbrand : readBrand p.leaves =
      if 0x80000004 ≤ p.maxExtendedLeaf.toNat then p.brand.shown else unknown := by
    split
    · rename_i h
      exact readBrand_leaves p h
    · rename_i h
      exact if_pos (Nat.lt_of_not_le h)
  have hsse := @BitField.register_flag 32 [BitField.slice p.noise.edx.toNat 0 25]
    [BitField.flag p.sse2, BitField.slice p.noise.edx.toNat 27 5] p.sse (le_refl 32)
  have hsse2 := @BitField.register_flag 32
    [BitField.slice p.noise.edx.toNat 0 25, BitField.flag p.sse]
    [BitField.slice p.noise.edx.toNat 27 5] p.sse2 (le_refl 32)
  have hsse42 := @BitField.register_flag 32 [BitField.slice p.noise.ecx.toNat 0 20]
    [BitField.slice p.noise.ecx.toNat 21 7, BitField.flag p.avx,
      BitField.slice p.noise.ecx.toNat 29 3] p.sse42 (le_refl 32)
  have havx := @BitField.register_flag 32
    [BitField.slice p.noise.ecx.toNat 0 20, BitField.flag p.sse42,
      BitField.slice p.noise.ecx.toNat 21 7]
    [BitField.slice p.noise.ecx.toNat 29 3] p.avx (le_refl 32)
  unfold detect Processor.identity
  dsimp only
  rw [hvendor, hbrand]
  by_cases h : 1 ≤ p.maxBasicLeaf.toNat
  · have hfamily : familyOf p.leaves = BitVec.ofNat 32 p.signature.family := by
      rw [← familyOf_leaves p, BitVec.ofNat_toNat, BitVec.setWidth_eq]
    have hmodel : modelOf p.leaves = BitVec.ofNat 32 p.signature.model := by
      rw [← modelOf_leaves p, BitVec.ofNat_toNat, BitVec.setWidth_eq]
    have hstepping : p.leaves.leaf1.eax &&& 0xF#32 = BitVec.ofNat 32 p.signature.stepping := by
      rw [← toNat_stepping p, BitVec.ofNat_toNat, BitVec.setWidth_eq]
    have hleaf : ¬ p.leaves.maxBasicLeaf.toNat < 1 := Nat.not_lt.2 h
    rw [if_neg hleaf, hfamily, hmodel, hstepping]
    simp only [h, if_true, decide_true, Bool.true_and, CpuCapabilityInfo.mk.injEq, true_and]
    exact ⟨hsse, hsse2, hsse42, havx, rfl, rfl⟩
  · have hleaf : p.leaves.maxBasicLeaf.toNat < 1 := Nat.lt_of_not_le h
    rw [if_pos hleaf]
    simp only [h, if_false, decide_false, Bool.false_and]
    rfl

/-- Whatever the bits that the format leaves open: the detection finds the processor that its
registers describe, and registers that describe two processors describe equal ones. -/
theorem detect_identity :
    detect p.leaves = p.identity ∧ ∀ q : Processor, q.leaves = p.leaves →
      q.identity = p.identity := by
  refine ⟨detect_leaves p, fun q hleaves => ?_⟩
  rw [← detect_leaves q, hleaves, detect_leaves p]

end Identity

/-! ### A processor of the sixth family -/

def skylake : Processor :=
  { vendor := "GenuineIntel".toList
    vendor_name := by decide
    vendor_length := by decide
    brand :=
      { text := "Intel(R) Core(TM) i7-6700 CPU".toList
        name := by decide
        head := by decide
        last := by decide
        front := 3
        back := 2
        fits := by decide }
    signature :=
      { family := 6
        model := 0x5E
        stepping := 3
        family_le := by decide
        model_lt := by decide }
    sse := true
    sse2 := true
    sse42 := true
    avx := true
    avx2 := true
    avx512f := false
    maxBasicLeaf := 0x16
    maxExtendedLeaf := 0x80000008
    noise := { eax := 0xFFFFFFFF, ebx := 0, ecx := 0xFFFFFFFF, edx := 0 } }

example : (detect skylake.leaves).brand = "Intel(R) Core(TM) i7-6700 CPU".toList ∧
    (detect skylake.leaves).model = 0x5E := by
  decide +kernel

end CpuCapability
end LatencyAnalyzer
