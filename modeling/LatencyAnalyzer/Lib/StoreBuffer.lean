import Mathlib.Logic.Function.Basic

/-!
# StoreBuffer — x86-TSO memory with one store buffer per process

A store enters the buffer of its process.  The oldest buffered store of a process can reach memory
at any time.  A load takes the newest value that its own process has buffered for the location,
and the value in memory if there is none.

`pending` restricts a buffer to the locations of interest.  Buffers keep their order, so the
restriction behaves like a buffer of its own.
-/

namespace LatencyAnalyzer
namespace Lib

structure Tso (P L V : Type*) where
  memory : L → V
  /-- Oldest store first. -/
  buffer : P → List (L × V)

section Latest

variable {L V : Type*} [DecidableEq L]

/-- The newest value buffered for a location. -/
def latest (l : L) : List (L × V) → Option V
  | [] => none
  | (l', v) :: rest => (latest l rest).or (if l' = l then some v else none)

theorem latest_filter {S : L → Bool} {l : L} (hl : S l = true) (buffer : List (L × V)) :
    latest l (buffer.filter fun e => S e.1) = latest l buffer := by
  induction buffer with
  | nil => rfl
  | cons e rest ih =>
      by_cases hS : S e.1 = true
      · simp only [List.filter_cons, hS, if_true, latest, ih]
      · have hne : e.1 ≠ l := by
          rintro rfl
          exact hS hl
        simp only [List.filter_cons, hS, if_false, Bool.false_eq_true, latest, hne, ih,
          Option.or_none]

end Latest

namespace Tso

variable {P L V : Type*} [DecidableEq P] [DecidableEq L]

def load (σ : Tso P L V) (p : P) (l : L) : V :=
  (latest l (σ.buffer p)).getD (σ.memory l)

def store (σ : Tso P L V) (p : P) (l : L) (v : V) : Tso P L V :=
  { σ with buffer := Function.update σ.buffer p (σ.buffer p ++ [(l, v)]) }

/-- The oldest store of a process reaches memory. -/
def drain (σ : Tso P L V) (p : P) : Tso P L V :=
  match σ.buffer p with
  | [] => σ
  | (l, v) :: rest =>
      { memory := Function.update σ.memory l v
        buffer := Function.update σ.buffer p rest }

omit [DecidableEq L] in
theorem buffer_store_self (σ : Tso P L V) (p : P) (l : L) (v : V) :
    (σ.store p l v).buffer p = σ.buffer p ++ [(l, v)] :=
  Function.update_self p _ _

omit [DecidableEq L] in
theorem buffer_store_of_ne (σ : Tso P L V) {p q : P} (hq : q ≠ p) (l : L) (v : V) :
    (σ.store p l v).buffer q = σ.buffer q :=
  Function.update_of_ne hq _ _

/-- A process does not see what another one has buffered. -/
theorem load_store_of_ne (σ : Tso P L V) {p q : P} (hq : q ≠ p) (l l' : L) (v : V) :
    (σ.store p l v).load q l' = σ.load q l' := by
  unfold load
  rw [buffer_store_of_ne _ hq]
  rfl

theorem drain_nil (σ : Tso P L V) {p : P} (h : σ.buffer p = []) : σ.drain p = σ := by
  unfold drain
  rw [h]

theorem buffer_drain_of_ne (σ : Tso P L V) {p q : P} (hq : q ≠ p) :
    (σ.drain p).buffer q = σ.buffer q := by
  unfold drain
  split
  · rfl
  · exact Function.update_of_ne hq _ _

theorem length_buffer_drain (σ : Tso P L V) {p : P} (h : σ.buffer p ≠ []) :
    ((σ.drain p).buffer p).length + 1 = (σ.buffer p).length := by
  unfold drain
  split
  · exact absurd ‹σ.buffer p = []› h
  · rename_i hbuffer
    dsimp only
    rw [Function.update_self, hbuffer, List.length_cons]

/-! ## Restriction to some locations -/

def pending (σ : Tso P L V) (S : L → Bool) (p : P) : List (L × V) :=
  (σ.buffer p).filter fun e => S e.1

variable {S : L → Bool}

omit [DecidableEq P] in
theorem load_eq (σ : Tso P L V) (p : P) {l : L} (hl : S l = true) :
    σ.load p l = (latest l (σ.pending S p)).getD (σ.memory l) := by
  unfold load pending
  rw [latest_filter hl]

omit [DecidableEq L] in
theorem pending_store_self (σ : Tso P L V) (p : P) {l : L} (hl : S l = true) (v : V) :
    (σ.store p l v).pending S p = σ.pending S p ++ [(l, v)] := by
  unfold pending store
  dsimp only
  rw [Function.update_self, List.filter_append]
  simp only [List.filter_cons, hl, if_true, List.filter_nil]

omit [DecidableEq L] in
theorem pending_store_of_ne (σ : Tso P L V) {p q : P} (hq : q ≠ p) (l : L) (v : V) :
    (σ.store p l v).pending S q = σ.pending S q := by
  unfold pending store
  dsimp only
  rw [Function.update_of_ne hq]

omit [DecidableEq L] in
theorem pending_store_outside (σ : Tso P L V) (p q : P) {l : L} (hl : ¬ S l = true) (v : V) :
    (σ.store p l v).pending S q = σ.pending S q := by
  by_cases hq : q = p
  · subst hq
    unfold pending store
    dsimp only
    rw [Function.update_self, List.filter_append]
    simp only [List.filter_cons, hl, if_false, Bool.false_eq_true, List.filter_nil, List.append_nil]
  · exact σ.pending_store_of_ne hq l v

/-- Seen from some locations, a drain is a drain of the restricted buffer or no change. -/
theorem drain_cases (σ : Tso P L V) (p : P) :
    ((∀ q, (σ.drain p).pending S q = σ.pending S q) ∧
        ∀ l, S l = true → (σ.drain p).memory l = σ.memory l) ∨
      ∃ l v rest, S l = true ∧ σ.pending S p = (l, v) :: rest ∧
        (σ.drain p).pending S p = rest ∧
        (∀ q, q ≠ p → (σ.drain p).pending S q = σ.pending S q) ∧
        (σ.drain p).memory = Function.update σ.memory l v := by
  unfold drain pending
  cases hbuffer : σ.buffer p with
  | nil => exact Or.inl ⟨fun q => rfl, fun l _ => rfl⟩
  | cons e rest =>
      rcases e with ⟨l, v⟩
      -- The oldest store is to a location of interest, or it is invisible from there.
      by_cases hl : S l = true
      · refine Or.inr ⟨l, v, rest.filter fun e => S e.1, hl, ?_, ?_, ?_, rfl⟩
        · simp only [List.filter_cons, hl, if_true]
        · dsimp only
          rw [Function.update_self]
        · intro q hq
          dsimp only
          rw [Function.update_of_ne hq]
      · refine Or.inl ⟨?_, ?_⟩
        · intro q
          dsimp only
          by_cases hq : q = p
          · subst hq
            rw [Function.update_self, hbuffer]
            simp only [List.filter_cons, hl, if_false, Bool.false_eq_true]
          · rw [Function.update_of_ne hq]
        · intro l' hl'
          have hne : l' ≠ l := by
            rintro rfl
            exact hl hl'
          exact Function.update_of_ne hne _ _

/-! ## Signals

A location that one process sets once, for all to see. -/

def exactly (l : L) : L → Bool :=
  fun l' => decide (l' = l)

theorem exactly_self (l : L) : exactly l l = true :=
  decide_eq_true rfl

theorem not_exactly_of_ne {l l' : L} (h : l' ≠ l) : ¬ exactly l l' = true := by
  unfold exactly
  rwa [decide_eq_true_eq]

omit [DecidableEq P] in
theorem load_of_pending_nil (σ : Tso P L V) {p : P} {l : L}
    (h : σ.pending (exactly l) p = []) : σ.load p l = σ.memory l := by
  rw [σ.load_eq p (S := exactly l) (exactly_self l), h]
  rfl

/-- Whether the owner has issued its store yet, and how far that store has come. -/
inductive Signal (σ : Tso P L V) (owner : P) (l : L) (off on : V) : Bool → Prop
  | unset (hmemory : σ.memory l = off)
      (hbuffer : ∀ p, σ.pending (exactly l) p = []) : Signal σ owner l off on false
  | issued (hmemory : σ.memory l = off)
      (howner : σ.pending (exactly l) owner = [(l, on)])
      (hothers : ∀ p, p ≠ owner → σ.pending (exactly l) p = []) :
      Signal σ owner l off on true
  | landed (hmemory : σ.memory l = on)
      (hbuffer : ∀ p, σ.pending (exactly l) p = []) : Signal σ owner l off on true

namespace Signal

variable {σ : Tso P L V} {owner : P} {l : L} {off on : V} {isSet : Bool}

omit [DecidableEq P] in
theorem load_unset (h : σ.Signal owner l off on false) (p : P) : σ.load p l = off := by
  cases h with
  | unset hmemory hbuffer => rw [σ.load_of_pending_nil (hbuffer p), hmemory]

omit [DecidableEq P] in
/-- Whoever sees another value than the initial one knows that the store was issued. -/
theorem isSet_of_load (h : σ.Signal owner l off on isSet) {p : P} (hload : σ.load p l ≠ off) :
    isSet = true := by
  cases h with
  | unset hmemory hbuffer =>
      rw [σ.load_of_pending_nil (hbuffer p), hmemory] at hload
      exact absurd rfl hload
  | issued => rfl
  | landed => rfl

omit [DecidableEq P] in
theorem load_drained (h : σ.Signal owner l off on true) (hempty : σ.buffer owner = []) (p : P) :
    σ.load p l = on := by
  cases h with
  | issued hmemory howner hothers =>
      unfold pending at howner
      rw [hempty] at howner
      cases howner
  | landed hmemory hbuffer => rw [σ.load_of_pending_nil (hbuffer p), hmemory]

theorem store_other (h : σ.Signal owner l off on isSet) (p : P) {l' : L}
    (hne : l' ≠ l) (v : V) : (σ.store p l' v).Signal owner l off on isSet := by
  have hpending : ∀ q, (σ.store p l' v).pending (exactly l) q =
      σ.pending (exactly l) q := fun q =>
    σ.pending_store_outside p q (not_exactly_of_ne hne) v
  cases h with
  | unset hmemory hbuffer => exact unset hmemory fun q => (hpending q).trans (hbuffer q)
  | issued hmemory howner hothers =>
      exact issued hmemory ((hpending owner).trans howner)
        fun q hq => (hpending q).trans (hothers q hq)
  | landed hmemory hbuffer => exact landed hmemory fun q => (hpending q).trans (hbuffer q)

/-- The owner issues its one store. -/
theorem issue (h : σ.Signal owner l off on false) :
    (σ.store owner l on).Signal owner l off on true := by
  cases h with
  | unset hmemory hbuffer =>
      refine issued hmemory ?_ fun p hp => ?_
      · rw [pending_store_self _ _ (exactly_self l), hbuffer owner]
        rfl
      · rw [pending_store_of_ne _ hp]
        exact hbuffer p

theorem drain (h : σ.Signal owner l off on isSet) (p : P) :
    (σ.drain p).Signal owner l off on isSet := by
  rcases σ.drain_cases (S := exactly l) p with
    ⟨hpending, hmemory⟩ | ⟨l', v, rest, _, hhead, htail, hothers, hmemory⟩
  · have hmem := hmemory l (exactly_self l)
    cases h with
    | unset hm hb => exact unset (hmem.trans hm) fun q => (hpending q).trans (hb q)
    | issued hm ho hb =>
        exact issued (hmem.trans hm) ((hpending owner).trans ho)
          fun q hq => (hpending q).trans (hb q hq)
    | landed hm hb => exact landed (hmem.trans hm) fun q => (hpending q).trans (hb q)
  · -- Something of the location drains, so it is the one store of the owner.
    cases h with
    | unset hm hb => exact absurd (hhead.symm.trans (hb p)) (by simp)
    | landed hm hb => exact absurd (hhead.symm.trans (hb p)) (by simp)
    | issued hm ho hb =>
        by_cases hp : p = owner
        · subst hp
          rw [hhead] at ho
          cases ho
          refine landed ?_ fun q => ?_
          · rw [hmemory, Function.update_self]
          · by_cases hq : q = p
            · rw [hq, htail]
            · rw [hothers q hq]
              exact hb q hq
        · exact absurd (hhead.symm.trans (hb p hp)) (by simp)

end Signal

end Tso

end Lib
end LatencyAnalyzer
