/-!
# Totals

What a count adds up to over the members of a list.

* `total_append` says that a list cut in two has the total of its parts.
-/

namespace MdxPress

/-- What `f` adds up to over the members of a list. -/
def total {α : Type} (f : α → Nat) (xs : List α) : Nat :=
  xs.foldr (fun x n => f x + n) 0

variable {α : Type}

@[simp]
theorem total_nil (f : α → Nat) : total f [] = 0 := rfl

@[simp]
theorem total_cons (f : α → Nat) (x : α) (xs : List α) :
    total f (x :: xs) = f x + total f xs := rfl

/-- A list cut in two has the total of its parts. -/
@[simp]
theorem total_append (f : α → Nat) (xs ys : List α) :
    total f (xs ++ ys) = total f xs + total f ys := by
  induction xs with
  | nil => simp
  | cons x xs ih => rw [List.cons_append, total_cons, total_cons, ih, Nat.add_assoc]

theorem total_congr {f g : α → Nat} {xs : List α} (same : ∀ x ∈ xs, f x = g x) :
    total f xs = total g xs := by
  induction xs with
  | nil => rfl
  | cons x xs ih =>
    rw [total_cons, total_cons, same x (.head _), ih fun y mem => same y (.tail _ mem)]

theorem total_eq_zero {f : α → Nat} {xs : List α} (zero : ∀ x ∈ xs, f x = 0) :
    total f xs = 0 := by
  induction xs with
  | nil => rfl
  | cons x xs ih => rw [total_cons, zero x (.head _), ih fun y mem => zero y (.tail _ mem)]

end MdxPress
