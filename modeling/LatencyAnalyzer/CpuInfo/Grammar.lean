import LatencyAnalyzer.CpuInfo.CpuList

/-!
# Grammar — which texts the two CPU list parsers accept

`std::stoi` reads the front of an item and ignores the rest, so a malformed item can be accepted
for its front.  A text outside of the grammar is rejected only if the parsers come to an item that
`std::stoi` cannot read at all, or whose bounds are in the wrong order.
-/

namespace LatencyAnalyzer
namespace CpuInfo

open Cxx
open Lib
open Numa (Stop)

/-! ## The grammar -/

/-- A plain decimal number that fits in `int`. -/
structure IsNumber (text : Text) (n : Nat) : Prop where
  nonempty : text ≠ []
  digits : ∀ c ∈ text, c.isDigit = true
  value : Text.decimalValue text = n
  fits : (n : Int) ≤ intMax

inductive IsItem : Text → Prop
  | number {text : Text} {n : Nat} (h : IsNumber text n) : IsItem text
  | range {first last : Text} {m n : Nat} (hfirst : IsNumber first m) (hlast : IsNumber last n)
      (hle : m ≤ n) : IsItem (first ++ '-' :: last)

/-- Items with commas between them, and one more comma behind the last item or none. -/
def IsCpuList (text : Text) : Prop :=
  ∃ list : List Text, (∀ item ∈ list, IsItem item) ∧
    (text = List.intercalate [','] list ∨
      list ≠ [] ∧ text = List.intercalate [','] list ++ [','])

/-- The characters of the grammar. -/
def listChar (c : Char) : Bool :=
  c.isDigit || c == '-' || c == ','

theorem listChar_of_isItem {item : Text} (h : IsItem item) : ∀ c ∈ item, listChar c = true := by
  intro c hc
  cases h with
  | number h => simp [listChar, h.digits c hc]
  | range hfirst hlast _ =>
      rcases List.mem_append.1 hc with hmem | hmem
      · simp [listChar, hfirst.digits c hmem]
      · rcases List.mem_cons.1 hmem with rfl | hmem
        · rfl
        · simp [listChar, hlast.digits c hmem]

theorem mem_intercalate {sep c : Char} {list : List Text}
    (h : c ∈ List.intercalate [sep] list) : c = sep ∨ ∃ item ∈ list, c ∈ item := by
  induction list with
  | nil => simp at h
  | cons item rest ih =>
      cases rest with
      | nil =>
          rw [List.intercalate_singleton] at h
          exact Or.inr ⟨item, List.mem_cons_self, h⟩
      | cons next others =>
          rw [List.intercalate_cons_cons] at h
          rcases List.mem_append.1 h with hfront | hrest
          · rcases List.mem_append.1 hfront with hitem | hsep
            · exact Or.inr ⟨item, List.mem_cons_self, hitem⟩
            · exact Or.inl (List.mem_singleton.1 hsep)
          · rcases ih hrest with heq | ⟨other, hother, hmem⟩
            · exact Or.inl heq
            · exact Or.inr ⟨other, List.mem_cons_of_mem _ hother, hmem⟩

theorem listChar_of_isCpuList {text : Text} (h : IsCpuList text) :
    ∀ c ∈ text, listChar c = true := by
  rcases h with ⟨list, hitems, htext⟩
  have hjoined : ∀ c ∈ List.intercalate [','] list, listChar c = true := by
    intro c hc
    rcases mem_intercalate hc with rfl | ⟨item, hitem, hmem⟩
    · rfl
    · exact listChar_of_isItem (hitems item hitem) c hmem
  rcases htext with rfl | ⟨_, rfl⟩
  · exact hjoined
  · intro c hc
    rcases List.mem_append.1 hc with hmem | hmem
    · exact hjoined c hmem
    · rw [List.mem_singleton.1 hmem]
      rfl

/-! ## What the parsers read of an item -/

/-- An item that is read: a number at its front, or numbers in order at its front and behind its
first dash.  Other characters may follow each of them. -/
inductive ReadsItem : Text → Int → Int → Prop
  | number {item : Text} {cpu : Int} (hdash : '-' ∉ item) (h : Text.IntFront item cpu) :
      ReadsItem item cpu cpu
  | range {front back : Text} {first last : Int} (hdash : '-' ∉ front)
      (hfirst : Text.IntFront front first) (hlast : Text.IntFront back last)
      (hle : first ≤ last) : ReadsItem (front ++ '-' :: back) first last

theorem bounds_of_no_dash {item : Text} (h : '-' ∉ item) :
    bounds item = item.stoi.map fun cpu => (cpu, cpu) := by
  have hfind : item.find '-' 0 = none := Text.find_of_absent rfl h
  unfold bounds
  rw [hfind]

theorem bounds_of_dash {front back : Text} (h : '-' ∉ front) (first last : Int) :
    bounds (front ++ '-' :: back) = some (first, last) ↔
      front.stoi = some first ∧ back.stoi = some last ∧ first ≤ last := by
  have hfind : Text.find (front ++ '-' :: back) '-' 0 = some (0 + front.length) :=
    Text.find_of_drop rfl h
  have hfront : Text.substr (front ++ '-' :: back) 0 (0 + front.length) = front := by
    simp [Text.substr]
  have hback : Text.substrFrom (front ++ '-' :: back) (0 + front.length + 1) = back := by
    simp [Text.substrFrom]
  unfold bounds
  rw [hfind]
  dsimp only
  rw [hfront, hback]
  cases front.stoi with
  | none => simp
  | some m =>
      cases back.stoi with
      | none => simp
      | some n =>
          dsimp only
          split
          · rename_i horder
            refine iff_of_false (by simp) ?_
            rintro ⟨hfirst, hlast, hle⟩
            cases hfirst
            cases hlast
            exact absurd horder (not_lt.2 hle)
          · rename_i horder
            simp only [Option.some.injEq, Prod.mk.injEq]
            constructor
            · rintro ⟨rfl, rfl⟩
              exact ⟨rfl, rfl, not_lt.1 horder⟩
            · rintro ⟨rfl, rfl, _⟩
              exact ⟨rfl, rfl⟩

theorem bounds_eq_some_iff {item : Text} {first last : Int} :
    bounds item = some (first, last) ↔ ReadsItem item first last := by
  constructor
  · intro h
    by_cases hdash : '-' ∈ item
    · obtain ⟨front, back, rfl, hfront⟩ := List.eq_append_cons_of_mem hdash
      obtain ⟨hfirst, hlast, hle⟩ := (bounds_of_dash hfront first last).1 h
      exact .range hfront (Text.stoi_eq_some_iff.1 hfirst) (Text.stoi_eq_some_iff.1 hlast) hle
    · rw [bounds_of_no_dash hdash] at h
      obtain ⟨cpu, hcpu, hpair⟩ := Option.map_eq_some_iff.1 h
      cases hpair
      exact .number hdash (Text.stoi_eq_some_iff.1 hcpu)
  · intro h
    cases h with
    | number hdash h => rw [bounds_of_no_dash hdash, Text.stoi_eq_some_iff.2 h, Option.map_some]
    | range hdash hfirst hlast hle =>
        exact (bounds_of_dash hdash first last).2
          ⟨Text.stoi_eq_some_iff.2 hfirst, Text.stoi_eq_some_iff.2 hlast, hle⟩

theorem bounds_eq_none_iff (item : Text) :
    bounds item = none ↔ ∀ first last, ¬ ReadsItem item first last := by
  rw [Option.eq_none_iff_forall_ne_some, Prod.forall]
  exact forall_congr' fun _ => forall_congr' fun _ => not_congr bounds_eq_some_iff

/-! ## Rejection -/

/-- The parsers come to an item that they do not read, and to no range up to `INT_MAX` in front of
it. -/
def RejectedFirst (text : Text) : Prop :=
  ∃ before item after, items ',' text = before ++ item :: after ∧
    (∀ first last, ¬ ReadsItem item first last) ∧
    ∀ earlier ∈ before, ∃ first last, ReadsItem earlier first last ∧
      ¬ ('-' ∈ earlier ∧ last = intMax)

theorem find_dash_iff (item : Text) : item.find '-' 0 ≠ none ↔ '-' ∈ item := by
  constructor
  · intro h
    by_contra hdash
    exact h (Text.find_of_absent rfl hdash)
  · intro hdash
    obtain ⟨front, back, rfl, hfront⟩ := List.eq_append_cons_of_mem hdash
    have hfind : Text.find (front ++ '-' :: back) '-' 0 = some (0 + front.length) :=
      Text.find_of_drop rfl hfront
    rw [hfind]
    exact Option.some_ne_none _

/-- The items behind which the parsers go on. -/
theorem stopOf_eq_none_iff_reads (item : Text) :
    stopOf item = none ↔
      ∃ first last, ReadsItem item first last ∧ ¬ ('-' ∈ item ∧ last = intMax) := by
  unfold stopOf
  cases hbounds : bounds item with
  | none =>
      refine iff_of_false (by simp) ?_
      rintro ⟨first, last, hreads, _⟩
      exact (bounds_eq_none_iff item).1 hbounds first last hreads
  | some range =>
      rcases range with ⟨first, last⟩
      simp only [find_dash_iff]
      constructor
      · intro h
        refine ⟨first, last, bounds_eq_some_iff.1 hbounds, fun hover => ?_⟩
        rw [if_pos hover] at h
        cases h
      · rintro ⟨first', last', hreads, hover⟩
        cases hbounds.symm.trans (bounds_eq_some_iff.2 hreads)
        exact if_neg hover

theorem rejectedFirst_iff (text : Text) :
    RejectedFirst text ↔ (items ',' text).findSome? stopOf = some .rejected := by
  rw [List.findSome?_eq_some_iff]
  simp only [stopOf_eq_rejected_iff, bounds_eq_none_iff, stopOf_eq_none_iff_reads]
  rfl

/-- An item that is read stands for one CPU at least. -/
theorem cpusOf_ne_nil {item : Text} (h : stopOf item = none) : cpusOf item ≠ [] := by
  have hsome := ((stopOf_eq_none_iff item).1 h).1
  unfold cpusOf
  cases hbounds : bounds item with
  | none => exact absurd hbounds hsome
  | some range =>
      have horder := bounds_ordered hbounds
      have hcount : (range.2 + 1 - range.1).toNat ≠ 0 := by omega
      simp [interval, hcount]

/-- The empty list is the result for the empty text and for those that are rejected. -/
theorem outcome_eq_nil_iff (text : Text) :
    outcome text = some [] ↔ text = [] ∨ RejectedFirst text := by
  rw [outcome_eq, rejectedFirst_iff]
  cases hstop : (items ',' text).findSome? stopOf with
  | some reason =>
      have hne : text ≠ [] := by
        rintro rfl
        rw [items_nil] at hstop
        cases hstop
      cases reason <;> simp [hne]
  | none =>
      simp only [Option.some.injEq, reduceCtorEq, or_false]
      constructor
      · intro hnil
        by_contra hnonempty
        have hne : items ',' text ≠ [] := fun hitems => hnonempty (eq_nil_of_items_eq_nil hitems)
        rcases List.exists_mem_of_ne_nil _ hne with ⟨item, hmem⟩
        have hitem := List.findSome?_eq_none_iff.1 hstop item hmem
        exact cpusOf_ne_nil hitem (List.flatMap_eq_nil_iff.1 hnil item hmem)
      · rintro rfl
        rw [items_nil]
        rfl

theorem isCpuList_nil : IsCpuList [] :=
  ⟨[], fun _ hmem => absurd hmem List.not_mem_nil, Or.inl rfl⟩

/-- Exactly when a text outside of the grammar gives no CPU: the parsers come to an item that
`std::stoi` does not read. -/
theorem cpu_list_rejection_iff (text : Text) :
    (¬ IsCpuList text →
      parseCpuList text = some [] ∧ Numa.parseCpuList text = some []) ↔
    (IsCpuList text ∨ RejectedFirst text) := by
  rw [parseCpuList_eq, numa_parseCpuList_eq, and_self, outcome_eq_nil_iff]
  constructor
  · intro h
    by_cases hlist : IsCpuList text
    · exact Or.inl hlist
    · rcases h hlist with rfl | hrejected
      · exact absurd isCpuList_nil hlist
      · exact Or.inr hrejected
  · rintro (hlist | hrejected) hnot
    · exact absurd hlist hnot
    · exact Or.inr hrejected

/-- Letters behind a number are ignored. -/
theorem trailing_letters_accepted :
    ¬ (¬ IsCpuList "3abc".toList →
      parseCpuList "3abc".toList = some [] ∧ Numa.parseCpuList "3abc".toList = some []) := by
  intro h
  have hlist : ¬ IsCpuList "3abc".toList := fun hlist =>
    absurd (listChar_of_isCpuList hlist 'a' (by decide)) (by decide)
  have hempty := (h hlist).1
  rw [parseCpuList_eq] at hempty
  revert hempty
  decide

/-! ## Overflow -/

/-- Every range up to `INT_MAX` stands behind an item that is rejected. -/
def CounterFits (text : Text) : Prop :=
  ∀ before item after, items ',' text = before ++ item :: after → Overflows item →
    ∃ earlier ∈ before, bounds earlier = none

theorem counterFits_iff (text : Text) :
    CounterFits text ↔ (items ',' text).findSome? stopOf ≠ some .overflow := by
  constructor
  · intro h hstop
    rcases List.findSome?_eq_some_iff.1 hstop with ⟨before, item, after, hitems, hover, hbefore⟩
    rcases h before item after hitems ((stopOf_eq_overflow_iff item).1 hover) with
      ⟨earlier, hmem, hnone⟩
    exact ((stopOf_eq_none_iff earlier).1 (hbefore earlier hmem)).1 hnone
  · intro hstop before item after hitems hover
    rw [hitems, List.findSome?_append, List.findSome?_cons,
      (stopOf_eq_overflow_iff item).2 hover] at hstop
    -- Something in front of the range has stopped the parsers, and it is no overflow.
    cases hbefore : before.findSome? stopOf with
    | none => simp [hbefore] at hstop
    | some reason =>
        cases reason with
        | overflow => simp [hbefore] at hstop
        | rejected =>
            rcases List.exists_of_findSome?_eq_some hbefore with ⟨earlier, hmem, hrejected⟩
            exact ⟨earlier, hmem, (stopOf_eq_rejected_iff earlier).1 hrejected⟩

/-- Both parsers get to their end, with a counter that stays in `int`, if and only if they come to
no range up to `INT_MAX`. -/
theorem cpu_list_terminates_iff (text : Text) :
    ((∃ cpus, parseCpuList text = some cpus) ∧ ∃ cpus, Numa.parseCpuList text = some cpus) ↔
      CounterFits text := by
  rw [parseCpuList_eq, numa_parseCpuList_eq, and_self, ← Option.isSome_iff_exists,
    ← Option.ne_none_iff_isSome, counterFits_iff]
  exact not_congr (outcome_eq_none_iff text)

/-- The shortest range of this kind. -/
theorem counter_overflows :
    ¬ ((∃ cpus, parseCpuList "2147483647-2147483647".toList = some cpus) ∧
      ∃ cpus, Numa.parseCpuList "2147483647-2147483647".toList = some cpus) := by
  rintro ⟨⟨cpus, hcpus⟩, _⟩
  have hstop : (items ',' "2147483647-2147483647".toList).findSome? stopOf =
      some .overflow := by decide
  rw [parseCpuList_eq, (outcome_eq_none_iff _).2 hstop] at hcpus
  cases hcpus

end CpuInfo
end LatencyAnalyzer
