import Mathlib.Data.List.Forall2

/-!
# Outcomes of steps that may fail

A computation of several steps has a result if and only if each of its steps
has one. Where a step is taken for each element of a list, the results are
paired with the elements.
-/

namespace RecordText

section Outcomes

variable {α β ε ε' : Type}

theorem bind_eq_ok_iff (result : Except ε α) (next : α → Except ε β) (b : β) :
    (result >>= next) = .ok b ↔ ∃ a, result = .ok a ∧ next a = .ok b := by
  cases result <;> simp [bind, Except.bind]

theorem bind_eq_error_iff (result : Except ε α) (next : α → Except ε β) (e : ε) :
    (result >>= next) = .error e ↔
      result = .error e ∨ ∃ a, result = .ok a ∧ next a = .error e := by
  cases result <;> simp [bind, Except.bind]

/-- How a computation goes on matters only for the results that it has. -/
theorem bind_congr_of_ok (result : Except ε α) {next next' : α → Except ε β}
    (h : ∀ a, result = .ok a → next a = next' a) : (result >>= next) = (result >>= next') := by
  cases result with
  | error e => rfl
  | ok a => exact h a rfl

theorem pure_eq_ok_iff (a b : α) : (pure a : Except ε α) = .ok b ↔ b = a := by
  simp [pure, Except.pure, eq_comm]

theorem mapError_eq_ok_iff (result : Except ε α) (change : ε → ε') (a : α) :
    result.mapError change = .ok a ↔ result = .ok a := by
  cases result <;> simp [Except.mapError]

theorem mapError_eq_error_iff (result : Except ε α) (change : ε → ε') (e : ε') :
    result.mapError change = .error e ↔ ∃ old, result = .error old ∧ change old = e := by
  cases result <;> simp [Except.mapError]

end Outcomes

section Pairs

variable {α β : Type} {R : α → β → Prop}

theorem exists_mem_of_forall₂ {xs : List α} {ys : List β} (h : List.Forall₂ R xs ys) {x : α}
    (hx : x ∈ xs) : ∃ y ∈ ys, R x y := by
  induction h with
  | nil => cases hx
  | cons hxy _ ih =>
      rcases List.mem_cons.1 hx with rfl | hx
      · exact ⟨_, List.mem_cons_self .., hxy⟩
      · obtain ⟨y, hy, hR⟩ := ih hx
        exact ⟨y, List.mem_cons_of_mem _ hy, hR⟩

end Pairs

end RecordText
