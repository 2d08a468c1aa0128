import Mathlib.Data.List.Sort
import Mathlib.Data.Prod.Lex
import Mathlib.Data.String.Basic
import LatencyAnalyzer.Cxx.Machine
import LatencyAnalyzer.Lib.BitField

/-!
# Caches — the caches that `cpuid` describes in its fourth leaf

Each subleaf describes a cache, and a subleaf of type 0 ends the list.  The detection keeps the
data and unified caches of the levels 1 to 3, of the first 32 subleaves, with their sizes as
products of the four fields that make them up.
-/

namespace LatencyAnalyzer
namespace CpuInfo

open Cxx
open Lib

/-! ## The code -/

/-- The registers behind a `cpuid` instruction. -/
structure Registers where
  eax : BitVec 32
  ebx : BitVec 32
  ecx : BitVec 32
  edx : BitVec 32
  deriving DecidableEq, Repr

/-- What `detect_caches` asks the processor for. -/
structure CacheLeaves where
  /-- `eax` of the first leaf, with `none` when `__get_cpuid` fails. -/
  maxLeaf : Option (BitVec 32)
  /-- The subleaves of the fourth leaf. -/
  subleaf : Nat → Registers

def CacheLeaves.maxBasicLeaf (leaves : CacheLeaves) : BitVec 32 :=
  leaves.maxLeaf.getD 0

structure CacheLevelInfo (abi : Abi) where
  level : Int
  sizeBytes : SizeT abi
  lineSize : SizeT abi
  type : String
  deriving DecidableEq, Repr

section Code

variable {abi : Abi}

/-- The entry that is pushed for a subleaf. -/
def cacheEntry (abi : Abi) (info : Registers) : CacheLevelInfo abi :=
  let cacheType := info.eax &&& 0x1F#32
  let level := (info.eax >>> 5) &&& 0x7#32
  let lineSize : SizeT abi := ((info.ebx &&& 0xFFF#32) + 1#32).setWidth abi.sizeBits
  let partitions : SizeT abi := (((info.ebx >>> 12) &&& 0x3FF#32) + 1#32).setWidth abi.sizeBits
  let ways : SizeT abi := (((info.ebx >>> 22) &&& 0x3FF#32) + 1#32).setWidth abi.sizeBits
  -- Here the addition is one of `size_t`.
  let sets : SizeT abi := info.ecx.setWidth abi.sizeBits + 1
  { level := level.toNat
    sizeBytes := lineSize * partitions * ways * sets
    lineSize := lineSize
    type := if cacheType = 1 then "Data" else "Unified" }

/-- The loop over the subleaves. -/
def scanCaches (abi : Abi) (subleaf : Nat → Registers) : List Nat → List (CacheLevelInfo abi)
  | [] => []
  | i :: rest =>
      let info := subleaf i
      let cacheType := info.eax &&& 0x1F#32
      if cacheType = 0 then []
      else
        let level := (info.eax >>> 5) &&& 0x7#32
        if level.toNat < 1 ∨ 3 < level.toNat then scanCaches abi subleaf rest
        -- 1=data, 2=instruction, 3=unified.
        else if cacheType = 2 then scanCaches abi subleaf rest
        else cacheEntry abi info :: scanCaches abi subleaf rest

/-- The comparison that `detect_caches` sorts by. -/
def cacheBefore (a b : CacheLevelInfo abi) : Prop :=
  if a.level ≠ b.level then a.level < b.level else a.type < b.type

instance (a b : CacheLevelInfo abi) : Decidable (cacheBefore a b) := by
  unfold cacheBefore
  infer_instance

/-- `std::sort`: the order of elements of which none comes before the other is its own. -/
structure CacheSort (abi : Abi) where
  sort : List (CacheLevelInfo abi) → List (CacheLevelInfo abi)
  perm : ∀ caches, (sort caches).Perm caches
  sorted : ∀ caches, (sort caches).Pairwise fun a b => ¬ cacheBefore b a

def detectCaches (order : CacheSort abi) (leaves : CacheLeaves) : List (CacheLevelInfo abi) :=
  if leaves.maxBasicLeaf.toNat < 4 then []
  else order.sort (scanCaches abi leaves.subleaf (List.range 32))

def cacheLineSize (order : CacheSort abi) (leaves : CacheLeaves) : SizeT abi :=
  match (detectCaches order leaves).find? (·.lineSize ≠ 0) with
  | some cache => cache.lineSize
  | none => 64

end Code

/-! ## A processor -/

inductive CacheKind
  | data
  | instruction
  | unified
  deriving DecidableEq, Repr

def CacheKind.code : CacheKind → Nat
  | .data => 1
  | .instruction => 2
  | .unified => 3

def CacheKind.name : CacheKind → String
  | .data => "Data"
  | _ => "Unified"

/-- A cache whose parameters the fourth leaf can hold. -/
structure Cache where
  kind : CacheKind
  level : Fin 8
  line : Nat
  partitions : Nat
  ways : Nat
  sets : Nat
  line_mem : 0 < line ∧ line ≤ 2 ^ 12
  partitions_mem : 0 < partitions ∧ partitions ≤ 2 ^ 10
  ways_mem : 0 < ways ∧ ways ≤ 2 ^ 10
  sets_mem : 0 < sets ∧ sets ≤ 2 ^ 32

namespace Cache

def capacity (c : Cache) : Nat :=
  c.line * c.partitions * c.ways * c.sets

/-- The caches that the analyzer is after. -/
def Reported (c : Cache) : Prop :=
  c.kind ≠ .instruction ∧ 1 ≤ c.level.val ∧ c.level.val ≤ 3

instance (c : Cache) : Decidable c.Reported :=
  inferInstanceAs (Decidable (_ ∧ _))

/-- A number from 1 on, as a field that starts at 0. -/
def less (width n : Nat) (h : 0 < n ∧ n ≤ 2 ^ width) : BitField :=
  { width := width, value := n - 1, fits := by omega }

def typeField (c : Cache) : BitField :=
  { width := 5, value := c.kind.code, fits := by cases c.kind <;> decide }

def levelField (c : Cache) : BitField :=
  { width := 3, value := c.level, fits := c.level.isLt }

/-- The subleaf of a cache.  What the description of the caches leaves open is that of `noise`. -/
def registers (c : Cache) (noise : Registers) : Registers :=
  { eax := BitField.register 32 [c.typeField, c.levelField, BitField.slice noise.eax.toNat 8 24]
    ebx := BitField.register 32
      [less 12 c.line c.line_mem, less 10 c.partitions c.partitions_mem, less 10 c.ways c.ways_mem]
    ecx := BitField.register 32 [less 32 c.sets c.sets_mem]
    edx := noise.edx }

/-- A lower level, or the data cache in front of the unified one. -/
def Nearer (c c' : Cache) : Prop :=
  c.level < c'.level ∨ c.level = c'.level ∧ c.kind = .data ∧ c'.kind ≠ .data

def entry (abi : Abi) (c : Cache) : CacheLevelInfo abi :=
  { level := c.level.val
    sizeBytes := BitVec.ofNat _ c.capacity
    lineSize := BitVec.ofNat _ c.line
    type := c.kind.name }

end Cache

/-- A processor with its caches, in the order in which it lists them, and the bits that the
description of the caches leaves open. -/
structure Processor where
  maxLeaf : BitVec 32
  caches : List Cache
  noise : Nat → Registers

namespace Processor

/-- The type of a subleaf without a cache. -/
def noCache : BitField :=
  { width := 5, value := 0, fits := by decide }

/-- A subleaf of type 0 stands behind the last cache, and anything behind that. -/
def subleaf (p : Processor) (i : Nat) : Registers :=
  match p.caches[i]? with
  | some c => c.registers (p.noise i)
  | none =>
      if i = p.caches.length then
        { p.noise i with
          eax := BitField.register 32 [noCache, BitField.slice (p.noise i).eax.toNat 5 27] }
      else
        p.noise i

def leaves (p : Processor) : CacheLeaves :=
  { maxLeaf := some p.maxLeaf, subleaf := p.subleaf }

/-- The caches that a detection can find: it looks at 32 subleaves. -/
def reported (p : Processor) : List Cache :=
  if p.maxLeaf.toNat < 4 then [] else (p.caches.take 32).filter (·.Reported)

end Processor

/-! ## The registers of a cache -/

section Subleaves

variable {abi : Abi}

namespace Cache

variable (c : Cache) (noise : Registers)

theorem toNat_type : ((c.registers noise).eax &&& 0x1F#32).toNat = c.kind.code :=
  @BitField.toNat_register_and_mask 32 c.typeField
    [c.levelField, BitField.slice noise.eax.toNat 8 24] (le_refl 32)

theorem toNat_level : (((c.registers noise).eax >>> 5) &&& 0x7#32).toNat = c.level :=
  @BitField.toNat_register_shift_and_mask 32 [c.typeField]
    [BitField.slice noise.eax.toNat 8 24] c.levelField (le_refl 32)

/-- A field that starts at 0 stands for one more. -/
theorem toNat_less {width n : Nat} (h : 0 < n ∧ n ≤ 2 ^ width) (hwidth : width < 32)
    {r : BitVec 32} (hr : r.toNat = (less width n h).value) : (r + 1#32).toNat = n := by
  have hlt : 2 ^ width < 2 ^ 32 := Nat.pow_lt_pow_right (by decide) hwidth
  have hvalue : r.toNat = n - 1 := hr
  rw [BitVec.toNat_add, hvalue, BitVec.toNat_ofNat, Nat.mod_eq_of_lt (by decide : 1 < 2 ^ 32),
    Nat.sub_add_cancel h.1, Nat.mod_eq_of_lt (by omega)]

theorem toNat_line : (((c.registers noise).ebx &&& 0xFFF#32) + 1#32).toNat = c.line :=
  toNat_less c.line_mem (by decide) (BitField.toNat_register_and_mask (le_refl 32))

theorem toNat_partitions :
    ((((c.registers noise).ebx >>> 12) &&& 0x3FF#32) + 1#32).toNat = c.partitions :=
  toNat_less c.partitions_mem (by decide)
    (@BitField.toNat_register_shift_and_mask 32 [less 12 c.line c.line_mem] _ _ (le_refl 32))

theorem toNat_ways :
    ((((c.registers noise).ebx >>> 22) &&& 0x3FF#32) + 1#32).toNat = c.ways :=
  toNat_less c.ways_mem (by decide)
    (@BitField.toNat_register_shift_and_mask 32
      [less 12 c.line c.line_mem, less 10 c.partitions c.partitions_mem] _ _ (le_refl 32))

theorem toNat_sets : (c.registers noise).ecx.toNat + 1 = c.sets := by
  have hpack : (c.registers noise).ecx.toNat = c.sets - 1 :=
    BitField.toNat_register (le_refl 32)
  rw [hpack, Nat.sub_add_cancel c.sets_mem.1]

/-- A subleaf stands for its cache, up to the width of `size_t`. -/
theorem cacheEntry_registers (h : c.kind ≠ .instruction) :
    cacheEntry abi (c.registers noise) = c.entry abi := by
  have hwidth : ∀ {r : BitVec 32} {n : Nat}, r.toNat = n →
      r.setWidth abi.sizeBits = BitVec.ofNat abi.sizeBits n := by
    intro r n hr
    rw [← hr, ← BitVec.ofNat_toNat]
  have hsets : (c.registers noise).ecx.setWidth abi.sizeBits + 1 =
      BitVec.ofNat abi.sizeBits c.sets := by
    rw [hwidth rfl, ← c.toNat_sets noise, BitVec.ofNat_add]
    rfl
  have htype : ((c.registers noise).eax &&& 0x1F#32 = 1) ↔ c.kind = .data := by
    rw [← BitVec.toNat_inj, c.toNat_type noise]
    cases c.kind <;> simp [CacheKind.code]
  unfold cacheEntry entry
  dsimp only
  rw [c.toNat_level, hwidth (c.toNat_line noise), hwidth (c.toNat_partitions noise),
    hwidth (c.toNat_ways noise), hsets, ← BitVec.ofNat_mul, ← BitVec.ofNat_mul, ← BitVec.ofNat_mul]
  congr 1
  -- The name is "Data" for type 1 and "Unified" for the others.
  simp only [htype]
  cases hkind : c.kind with
  | data => rfl
  | instruction => exact absurd hkind h
  | unified => rfl

/-- What the loop does with a cache. -/
theorem scanCaches_cons {subleaf : Nat → Registers} {i : Nat}
    (hi : subleaf i = c.registers noise) (rest : List Nat) :
    scanCaches abi subleaf (i :: rest) =
      if c.Reported then c.entry abi :: scanCaches abi subleaf rest
      else scanCaches abi subleaf rest := by
  have htype : ∀ n < 32, ((c.registers noise).eax &&& 0x1F#32 = BitVec.ofNat 32 n) ↔
      c.kind.code = n := by
    intro n hn
    rw [← BitVec.toNat_inj, c.toNat_type noise, BitVec.toNat_ofNat, Nat.mod_eq_of_lt (by omega)]
  -- Type 0 ends the loop, and no cache has it.
  have hnone : ¬ ((c.registers noise).eax &&& 0x1F#32) = 0 := by
    intro hzero
    have hcode := (htype 0 (by decide)).1 hzero
    cases hkind : c.kind <;> rw [hkind] at hcode <;> cases hcode
  have hinstruction : ((c.registers noise).eax &&& 0x1F#32 = 2) ↔ c.kind = .instruction := by
    refine (htype 2 (by decide)).trans ?_
    cases c.kind <;> simp [CacheKind.code]
  rw [scanCaches]
  dsimp only
  rw [hi, if_neg hnone, c.toNat_level]
  by_cases hlevel : 1 ≤ c.level.val ∧ c.level.val ≤ 3
  · rw [if_neg (by omega)]
    by_cases hkind : c.kind = .instruction
    · have hreported : ¬ c.Reported := fun h => h.1 hkind
      rw [if_pos (hinstruction.2 hkind), if_neg hreported]
    · have hreported : c.Reported := ⟨hkind, hlevel⟩
      rw [if_neg (fun h => hkind (hinstruction.1 h)), if_pos hreported,
        c.cacheEntry_registers noise hkind]
  -- Level 0 and those from 4 on are skipped, whatever their type is.
  · have hreported : ¬ c.Reported := fun h => hlevel h.2
    rw [if_pos (by omega), if_neg hreported]

end Cache

namespace Processor

variable (p : Processor)

theorem scanCaches_end (rest : List Nat) :
    scanCaches abi p.subleaf (p.caches.length :: rest) = [] := by
  have hnone : p.caches[p.caches.length]? = none := List.getElem?_eq_none (le_refl _)
  have htype : (p.subleaf p.caches.length).eax &&& 0x1F#32 = 0 := by
    unfold subleaf
    rw [hnone]
    dsimp only
    rw [if_pos rfl]
    exact BitVec.eq_of_toNat_eq
      (@BitField.toNat_register_and_mask 32 noCache
        [BitField.slice (p.noise p.caches.length).eax.toNat 5 27] (le_refl 32))
  unfold scanCaches
  exact if_pos htype

/-- The loop from a subleaf on, which it has come to. -/
theorem scanCaches_range' {i : Nat} (hle : i ≤ p.caches.length) (n : Nat) :
    scanCaches abi p.subleaf (List.range' i n) =
      (((p.caches.drop i).take n).filter (·.Reported)).map (Cache.entry abi) := by
  induction n generalizing i with
  | zero => simp [scanCaches]
  | succ n ih =>
      rw [List.range'_succ]
      rcases hle.lt_or_eq with hi | rfl
      · have hcache : p.subleaf i = p.caches[i].registers (p.noise i) := by
          unfold subleaf
          rw [List.getElem?_eq_getElem hi]
        rw [p.caches[i].scanCaches_cons (p.noise i) hcache, ih hi, List.drop_eq_getElem_cons hi,
          List.take_succ_cons, List.filter_cons]
        by_cases hreported : p.caches[i].Reported
        · simp [hreported]
        · simp [hreported]
      · -- The loop ends here, whatever the subleaves behind hold.
        rw [p.scanCaches_end, List.drop_length]
        rfl

theorem reported_of_mem {c : Cache} (hc : c ∈ p.reported) : c.Reported := by
  unfold reported at hc
  split at hc
  · cases hc
  · exact of_decide_eq_true (List.mem_filter.1 hc).2

theorem scanCaches_leaves (h : 4 ≤ p.maxLeaf.toNat) :
    scanCaches abi p.leaves.subleaf (List.range 32) = p.reported.map (Cache.entry abi) := by
  unfold reported
  rw [if_neg (Nat.not_lt.2 h), List.range_eq_range']
  exact p.scanCaches_range' (Nat.zero_le _) 32

end Processor

end Subleaves

/-! ## What is detected -/

section Detection

variable {abi : Abi}

theorem Cache.before_entry_iff (c c' : Cache) :
    cacheBefore (c.entry abi) (c'.entry abi) ↔ c.Nearer c' := by
  have hname : c.kind.name < c'.kind.name ↔ c.kind = .data ∧ c'.kind ≠ .data := by
    cases c.kind <;> cases c'.kind <;> decide
  have hlevel : ((c.level.val : Int) = c'.level.val) ↔ c.level = c'.level := by
    rw [Int.natCast_inj, Fin.val_inj]
  unfold cacheBefore entry Nearer
  dsimp only
  rw [hname]
  by_cases heq : c.level = c'.level
  · rw [if_neg (fun h => h (hlevel.2 heq))]
    simp [heq]
  · rw [if_pos (fun h => heq (hlevel.1 h)), Nat.cast_lt, Fin.val_fin_lt]
    simp [heq]

/-- Reported caches of which none is nearer agree in level and kind. -/
theorem Cache.Reported.alike {c c' : Cache} (h : c.Reported) (h' : c'.Reported)
    (hnot : ¬ c.Nearer c') (hnot' : ¬ c'.Nearer c) : c.level = c'.level ∧ c.kind = c'.kind := by
  unfold Nearer at hnot hnot'
  have hlevel : c.level = c'.level :=
    le_antisymm (not_lt.1 fun hlt => hnot' (Or.inl hlt)) (not_lt.1 fun hlt => hnot (Or.inl hlt))
  refine ⟨hlevel, ?_⟩
  have hkind := h.1
  have hkind' := h'.1
  cases hc : c.kind <;> cases hc' : c'.kind <;> simp_all

theorem Cache.toNat_lineSize (c : Cache) : (c.entry abi).lineSize.toNat = c.line :=
  SizeT.toNat_ofNat (c.line_mem.2.trans_lt (by decide))

theorem detectCaches_perm (order : CacheSort abi) (p : Processor) :
    (detectCaches order p.leaves).Perm (p.reported.map (Cache.entry abi)) := by
  by_cases hleaf : p.maxLeaf.toNat < 4
  · have hnone : detectCaches order p.leaves = [] := if_pos hleaf
    have hreported : p.reported = [] := if_pos hleaf
    rw [hnone, hreported]
    exact List.Perm.nil
  · have hscan : detectCaches order p.leaves =
        order.sort (scanCaches abi p.leaves.subleaf (List.range 32)) := if_neg hleaf
    rw [hscan, p.scanCaches_leaves (Nat.le_of_not_lt hleaf)]
    exact order.perm _

theorem detectCaches_sorted (order : CacheSort abi) (leaves : CacheLeaves) :
    (detectCaches order leaves).Pairwise fun a b => ¬ cacheBefore b a := by
  unfold detectCaches
  split
  · exact List.Pairwise.nil
  · exact order.sorted _

/-- The line size is that of a nearest cache, since none is 0. -/
theorem cacheLineSize_eq (order : CacheSort abi) (p : Processor) :
    (p.reported = [] ∧ cacheLineSize order p.leaves = 64) ∨
      ∃ c ∈ p.reported, (∀ c' ∈ p.reported, ¬ c'.Nearer c) ∧
        (cacheLineSize order p.leaves).toNat = c.line := by
  have hperm := detectCaches_perm order p
  have hsorted := detectCaches_sorted order p.leaves
  unfold cacheLineSize
  cases hcaches : detectCaches order p.leaves with
  | nil =>
      rw [hcaches] at hperm
      exact Or.inl ⟨List.map_eq_nil_iff.1 (List.nil_perm.1 hperm), rfl⟩
  | cons first caches =>
      rw [hcaches] at hperm hsorted
      obtain ⟨c, hc, rfl⟩ := List.mem_map.1 (hperm.mem_iff.1 List.mem_cons_self)
      have hline : (c.entry abi).lineSize ≠ 0 := by
        intro hzero
        have hsize : (c.entry abi).lineSize.toNat = c.line := c.toNat_lineSize
        rw [hzero] at hsize
        exact absurd hsize.symm (Nat.pos_iff_ne_zero.1 c.line_mem.1)
      refine Or.inr ⟨c, hc, ?_, ?_⟩
      · intro c' hc' hnearer
        have hmem := hperm.mem_iff.2 (List.mem_map_of_mem (f := Cache.entry abi) hc')
        rcases List.mem_cons.1 hmem with heq | hmem
        · -- A cache with the same entry is not nearer than itself.
          have hbefore : cacheBefore (c'.entry abi) (c.entry abi) :=
            (c'.before_entry_iff c).2 hnearer
          rw [heq] at hbefore
          rcases (c.before_entry_iff c).1 hbefore with hlt | ⟨_, hdata, hnot⟩
          · exact absurd hlt (lt_irrefl _)
          · exact hnot hdata
        · exact (List.pairwise_cons.1 hsorted).1 _ hmem ((c'.before_entry_iff c).2 hnearer)
      · rw [List.find?_cons_of_pos (by simpa using hline)]
        exact c.toNat_lineSize

/-- Each cache of the levels 1 to 3 is detected once, with its size, and instruction caches are
not; the nearer ones stand in front.  The list is the same for every sort if no two of the caches
agree in level and type. -/
theorem detect_caches_processor (order : CacheSort abi) (p : Processor) :
    let caches := detectCaches order p.leaves
    caches.Perm (p.reported.map (Cache.entry abi)) ∧
      (caches.Pairwise fun a b => ¬ cacheBefore b a) ∧
      (∀ c ∈ p.reported, c.capacity < 2 ^ abi.sizeBits →
        ∃ cache ∈ caches, cache.level = c.level.val ∧ cache.sizeBytes.toNat = c.capacity ∧
          cache.lineSize.toNat = c.line ∧ cache.type = c.kind.name) ∧
      ((p.reported.map fun c => (c.level, c.kind)).Nodup → ∀ order' : CacheSort abi,
        detectCaches order' p.leaves = caches) ∧
      ((p.reported = [] ∧ cacheLineSize order p.leaves = 64) ∨
        ∃ c ∈ p.reported, (∀ c' ∈ p.reported, ¬ c'.Nearer c) ∧
          (cacheLineSize order p.leaves).toNat = c.line) := by
  intro caches
  have hperm := detectCaches_perm order p
  refine ⟨hperm, detectCaches_sorted order p.leaves, ?_, ?_, cacheLineSize_eq order p⟩
  · intro c hc hfits
    refine ⟨c.entry abi, hperm.mem_iff.2 (List.mem_map_of_mem hc), rfl, ?_, c.toNat_lineSize, rfl⟩
    exact (BitVec.toNat_ofNat _ _).trans (Nat.mod_eq_of_lt hfits)
  · intro hdistinct order'
    have hperm' := detectCaches_perm order' p
    -- Two sorts of one list agree if what they cannot tell apart is the same.
    refine (hperm'.trans hperm.symm).eq_of_pairwise ?_ (detectCaches_sorted order' p.leaves)
      (detectCaches_sorted order p.leaves)
    intro a b ha hb hab hba
    obtain ⟨c, hc, rfl⟩ := List.mem_map.1 (hperm'.mem_iff.1 ha)
    obtain ⟨c', hc', rfl⟩ := List.mem_map.1 (hperm.mem_iff.1 hb)
    rw [Cache.before_entry_iff] at hab hba
    have halike := (p.reported_of_mem hc).alike (p.reported_of_mem hc') hba hab
    have heq : c = c' := List.inj_on_of_nodup_map hdistinct hc hc'
      (Prod.ext halike.1 halike.2)
    rw [heq]

/-! ### A processor with three levels -/

/-- What a cache is sorted by. -/
def CacheLevelInfo.key (cache : CacheLevelInfo abi) : Lex (Int × String) :=
  toLex (cache.level, cache.type)

theorem not_cacheBefore_iff (a b : CacheLevelInfo abi) : ¬ cacheBefore b a ↔ a.key ≤ b.key := by
  rw [← not_lt, not_iff_not]
  unfold cacheBefore CacheLevelInfo.key
  rw [Prod.Lex.toLex_lt_toLex]
  by_cases hlevel : b.level = a.level
  · simp [hlevel]
  · simp [hlevel]

def insertionOrder (abi : Abi) : CacheSort abi :=
  { sort := List.insertionSort fun a b => a.key ≤ b.key
    perm := List.perm_insertionSort _
    sorted := fun caches =>
      have : Std.Total fun a b : CacheLevelInfo abi => a.key ≤ b.key :=
        ⟨fun a b => le_total a.key b.key⟩
      have : IsTrans (CacheLevelInfo abi) fun a b => a.key ≤ b.key :=
        ⟨fun _ _ _ => le_trans⟩
      (List.pairwise_insertionSort (fun a b : CacheLevelInfo abi => a.key ≤ b.key) caches).imp
        fun {a b} => (not_cacheBefore_iff a b).2 }

def cacheOf (kind : CacheKind) (level : Fin 8) (ways : Fin 1024) (sets : Fin 65536) : Cache :=
  { kind := kind
    level := level
    line := 64
    partitions := 1
    ways := ways + 1
    sets := sets + 1
    line_mem := by decide
    partitions_mem := by decide
    ways_mem := by omega
    sets_mem := by omega }

/-- A processor that lists its largest cache first, with remains of data caches behind the end. -/
def threeLevels : Processor :=
  { maxLeaf := 0x16
    caches :=
      [cacheOf .unified 3 15 8191, cacheOf .data 1 7 63, cacheOf .instruction 1 7 63,
        cacheOf .unified 2 3 1023]
    noise := fun i => { eax := 0x1C004121, ebx := 0, ecx := BitVec.ofNat 32 i, edx := 0 } }

example : (detectCaches (insertionOrder .x8664) threeLevels.leaves).map
    (fun cache => (cache.level, cache.sizeBytes.toNat, cache.type)) =
    [(1, 32768, "Data"), (2, 262144, "Unified"), (3, 8388608, "Unified")] := by
  decide +kernel

end Detection

end CpuInfo
end LatencyAnalyzer
