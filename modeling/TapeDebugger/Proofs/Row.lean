import Mathlib.Data.List.Basic

/-!
# Rows that follow a rule

Events, effects and the like are told one behind the other.  A rule says what can
come next by what was told before; a row follows it if each of its entries does.
-/

namespace TapeDebugger

namespace Row

variable {α : Type} {rule : List α → α → Prop} {row : List α} {entry : α}

/-- Every entry of a row can follow those before it. -/
def Lawful (rule : List α → α → Prop) (row : List α) : Prop :=
  ∀ before entry rest, row = before ++ entry :: rest → rule before entry

theorem lawful_nil : Lawful rule [] := by
  intro before entry rest split
  cases before <;> cases split

theorem Lawful.concat (lawful : Lawful rule row) (allowed : rule row entry) :
    Lawful rule (row ++ [entry]) := by
  intro before other rest split
  -- the last entry is either the one that is looked at, or it stands behind it
  rcases List.eq_nil_or_concat rest with rfl | ⟨front, last, rfl⟩
  · obtain ⟨rfl, same⟩ := List.append_inj' split rfl
    cases same
    exact allowed
  · rw [List.concat_eq_append, ← List.cons_append, ← List.append_assoc] at split
    obtain ⟨row_eq, -⟩ := List.append_inj' split rfl
    exact lawful before other front row_eq

end Row

end TapeDebugger
