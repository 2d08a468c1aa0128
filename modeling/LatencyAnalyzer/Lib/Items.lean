import Mathlib.Data.List.Basic

/-!
# Items — what stands between the separators of a text

A separator at the end closes the last item and opens no further one.  Texts are taken apart from
the front: a text is empty, a last item, or an item in front of a separator and a shorter text.
-/

namespace LatencyAnalyzer
namespace Lib

section Items

variable {α : Type*} [BEq α] [LawfulBEq α] {sep : α}

/-- The items of a text. -/
def items (sep : α) (text : List α) : List (List α) :=
  let pieces := text.splitOn sep
  if pieces.getLastD [] = [] then pieces.dropLast else pieces

omit [LawfulBEq α] in
theorem items_nil : items sep [] = [] := by
  simp [items, List.splitOn_nil]

theorem items_of_absent {item : List α} (hne : item ≠ []) (habsent : sep ∉ item) :
    items sep item = [item] := by
  simp [items, List.splitOn_eq_singleton habsent, hne]

theorem items_append_cons {item rest : List α} (habsent : sep ∉ item) :
    items sep (item ++ sep :: rest) = item :: items sep rest := by
  have hpieces : rest.splitOn sep ≠ [] := List.splitOn_ne_nil sep rest
  unfold items
  rw [List.splitOn_append_cons_self_of_not_mem habsent]
  generalize rest.splitOn sep = pieces at hpieces ⊢
  cases pieces with
  | nil => exact absurd rfl hpieces
  | cons piece others =>
      simp only [List.getLastD_cons, List.dropLast_cons_cons]
      split <;> rfl

/-- What is joined by separators is taken apart again. -/
theorem items_intercalate {list : List (List α)} (h : ∀ item ∈ list, item ≠ [] ∧ sep ∉ item) :
    items sep (List.intercalate [sep] list) = list := by
  induction list with
  | nil => exact items_nil
  | cons item rest ih =>
      rcases h item List.mem_cons_self with ⟨hne, habsent⟩
      have hrest := ih fun x hx => h x (List.mem_cons_of_mem item hx)
      cases rest with
      | nil =>
          rw [List.intercalate_singleton]
          exact items_of_absent hne habsent
      | cons next others =>
          rw [List.intercalate_cons_cons, List.append_assoc, List.singleton_append,
            items_append_cons habsent, hrest]

/-- The cases of a text, for a proof by induction on its separators. -/
theorem items_induction (sep : α) {motive : List α → Prop} (nil : motive [])
    (last : ∀ item, item ≠ [] → sep ∉ item → motive item)
    (step : ∀ item rest, sep ∉ item → motive rest → motive (item ++ sep :: rest))
    (text : List α) : motive text := by
  by_cases hmem : sep ∈ text
  · rcases List.eq_append_cons_of_mem hmem with ⟨item, rest, rfl, habsent⟩
    exact step item rest habsent (items_induction sep nil last step rest)
  · by_cases hnil : text = []
    · rw [hnil]
      exact nil
    · exact last text hnil hmem
termination_by text.length

/-- Only the empty text has no item. -/
theorem eq_nil_of_items_eq_nil {text : List α} (h : items sep text = []) : text = [] := by
  induction text using items_induction sep with
  | nil => rfl
  | last item hne habsent =>
      rw [items_of_absent hne habsent] at h
      cases h
  | step item rest habsent ih =>
      rw [items_append_cons habsent] at h
      cases h

end Items

end Lib
end LatencyAnalyzer
