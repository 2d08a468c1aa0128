import Mathlib.Logic.Basic

/-!
# Settles — computations that return exactly under a condition

A computation that can throw is described by the condition under which it returns and by what holds
of the value then.  The conditions of the parts of a sequence are the conditions of the whole.
-/

namespace LatencyAnalyzer
namespace Lib

section Settles

universe u

variable {ε : Type*} {α β : Type u} {x : Except ε α} {p q : Prop} {post : α → Prop}

/-- The computation returns a value with the postcondition if `p` holds, and throws if it does
not. -/
def Settles (x : Except ε α) (p : Prop) (post : α → Prop) : Prop :=
  (p ∧ ∃ a, x = .ok a ∧ post a) ∨ (¬ p ∧ ∃ thrown, x = .error thrown)

theorem Settles.returns (h : Settles x p post) (hp : p) : ∃ a, x = .ok a ∧ post a := by
  rcases h with ⟨_, hok⟩ | ⟨hnot, _⟩
  · exact hok
  · exact absurd hp hnot

theorem Settles.of_ok (h : Settles x p post) {a : α} (hx : x = .ok a) : p ∧ post a := by
  rcases h with ⟨hp, b, hok, hpost⟩ | ⟨_, thrown, hthrown⟩
  · cases hx.symm.trans hok
    exact ⟨hp, hpost⟩
  · cases hx.symm.trans hthrown

theorem settles_ok {a : α} (h : post a) : Settles (.ok a : Except ε α) True post :=
  Or.inl ⟨trivial, a, rfl, h⟩

theorem settles_ok_eq (a : α) : Settles (.ok a : Except ε α) True (· = a) :=
  settles_ok rfl

theorem Settles.congr (h : Settles x p post) (hpq : p ↔ q) : Settles x q post := by
  rwa [propext hpq] at h

theorem Settles.mono (h : Settles x p post) {post' : α → Prop}
    (hpost : p → ∀ a, post a → post' a) : Settles x p post' := by
  rcases h with ⟨hp, a, hok, ha⟩ | hthrown
  · exact Or.inl ⟨hp, a, hok, hpost hp a ha⟩
  · exact Or.inr hthrown

/-- A guard in front of a computation. -/
theorem Settles.guard (c : Prop) [Decidable c] (thrown : ε) (h : c → Settles x p post) :
    Settles (if c then x else .error thrown) (c ∧ p) post := by
  by_cases hc : c
  · rw [if_pos hc]
    exact (h hc).congr (and_iff_right hc).symm
  · rw [if_neg hc]
    exact Or.inr ⟨fun hboth => hc hboth.1, thrown, rfl⟩

/-- The second computation is reached if the first one returns. -/
theorem Settles.bind (h : Settles x p post) {f : α → Except ε β} {post' : β → Prop}
    (hf : p → ∀ a, post a → Settles (f a) q post') : Settles (x >>= f) (p ∧ q) post' := by
  rcases h with ⟨hp, a, rfl, ha⟩ | ⟨hnot, thrown, rfl⟩
  · exact (hf hp a ha).congr (and_iff_right hp).symm
  · exact Or.inr ⟨fun hboth => hnot hboth.1, thrown, rfl⟩

end Settles

end Lib
end LatencyAnalyzer
