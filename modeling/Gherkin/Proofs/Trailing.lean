import Gherkin.Trailing
import Mathlib.Data.List.Basic
import Mathlib.Data.List.DropRight

/-!
# The trailing run, member by member

`dropTrailing` recurses from the front of a list, but what reads a list grows it
at its end.  The lemmas here say what one more member at the end does to the
trailing run, and that a member outside the run hides everything before it:

> `takeTrailing_append_cons`: behind a member that fails `p`, the trailing run
> is that of the rest.
-/

namespace Gherkin

variable {α : Type} {p : α → Bool}

theorem dropTrailing_concat (p : α → Bool) (a : α) :
    ∀ l : List α, dropTrailing p (l ++ [a]) = if p a then dropTrailing p l else l ++ [a]
  | [] => by simp [dropTrailing]
  | b :: l => by
    rw [List.cons_append, dropTrailing, dropTrailing_concat p a l]
    by_cases ha : p a
    · rw [if_pos ha, if_pos ha, dropTrailing]
    · rw [if_neg ha, if_neg ha]
      cases l with
      | nil => rfl
      | cons c l => rfl

/-- The library's name for the same function. -/
theorem dropTrailing_eq_rdropWhile (p : α → Bool) (l : List α) :
    dropTrailing p l = l.rdropWhile p := by
  induction l using List.reverseRecOn with
  | nil => rfl
  | append_singleton l a ih => rw [dropTrailing_concat, List.rdropWhile_concat, ih]

theorem takeTrailing_eq_rtakeWhile (p : α → Bool) (l : List α) :
    takeTrailing p l = l.rtakeWhile p := by
  have h := dropTrailing_append_takeTrailing p l
  rw [dropTrailing_eq_rdropWhile] at h
  exact List.append_cancel_left (h.trans List.rdropWhile_append_rtakeWhile.symm)

theorem takeTrailing_concat (p : α → Bool) (l : List α) (a : α) :
    takeTrailing p (l ++ [a]) = if p a then takeTrailing p l ++ [a] else [] := by
  rw [takeTrailing_eq_rtakeWhile, takeTrailing_eq_rtakeWhile, List.rtakeWhile_concat]

@[simp] theorem takeTrailing_nil (p : α → Bool) : takeTrailing p [] = [] := rfl

@[simp] theorem dropTrailing_nil (p : α → Bool) : dropTrailing p [] = [] := rfl

/-- Members of the trailing run satisfy `p`. -/
theorem of_mem_takeTrailing {l : List α} {a : α} (h : a ∈ takeTrailing p l) : p a = true := by
  rw [takeTrailing_eq_rtakeWhile] at h
  exact List.mem_rtakeWhile_imp h

/-- What is left without the trailing run does not end in a member of such a run. -/
theorem of_getLast?_dropTrailing {l : List α} {a : α} (h : (dropTrailing p l).getLast? = some a) :
    p a = false := by
  induction l using List.reverseRecOn with
  | nil => cases h
  | append_singleton l b ih =>
    rw [dropTrailing_concat] at h
    by_cases hb : p b
    · rw [if_pos hb] at h
      exact ih h
    · rw [if_neg hb, List.getLast?_concat, Option.some.injEq] at h
      rw [← h]
      simpa using hb

/-- A member that fails `p` hides what stands before it. -/
theorem takeTrailing_append_cons {a : α} (ha : p a = false) (l m : List α) :
    takeTrailing p (l ++ a :: m) = takeTrailing p m := by
  induction m using List.reverseRecOn with
  | nil => simp [takeTrailing_concat, ha]
  | append_singleton m b ih =>
    rw [← List.cons_append, ← List.append_assoc, takeTrailing_concat, takeTrailing_concat, ih]

theorem dropTrailing_append_cons {a : α} (ha : p a = false) (l m : List α) :
    dropTrailing p (l ++ a :: m) = l ++ a :: dropTrailing p m := by
  induction m using List.reverseRecOn with
  | nil => simp [dropTrailing_concat, ha]
  | append_singleton m b ih =>
    rw [← List.cons_append, ← List.append_assoc, dropTrailing_concat, dropTrailing_concat, ih]
    split
    · rfl
    · rw [List.append_assoc, List.cons_append]

/-- What ends in a member that fails `p` adds nothing to a trailing run behind it. -/
theorem takeTrailing_append_of_getLast {l : List α} (hl : ∀ a, l.getLast? = some a → p a = false)
    (m : List α) : takeTrailing p (l ++ m) = takeTrailing p m := by
  induction m using List.reverseRecOn with
  | nil =>
    rcases List.eq_nil_or_concat' l with rfl | ⟨l, a, rfl⟩
    · rfl
    · have ha : p a = false := hl a (by simp)
      simp [takeTrailing_concat, ha]
  | append_singleton m b ih =>
    rw [← List.append_assoc, takeTrailing_concat, takeTrailing_concat, ih]

/-- A run of members satisfying `p` is cut off whole. -/
theorem dropTrailing_append_of_forall {m : List α} (hm : ∀ a ∈ m, p a = true) (l : List α) :
    dropTrailing p (l ++ m) = dropTrailing p l := by
  induction m using List.reverseRecOn with
  | nil => rw [List.append_nil]
  | append_singleton m b ih =>
    rw [← List.append_assoc, dropTrailing_concat, if_pos (hm b (by simp))]
    exact ih fun a ha => hm a (List.mem_append_left _ ha)

/-- It joins the run that was there before. -/
theorem takeTrailing_append_of_forall {m : List α} (hm : ∀ a ∈ m, p a = true) (l : List α) :
    takeTrailing p (l ++ m) = takeTrailing p l ++ m := by
  induction m using List.reverseRecOn with
  | nil => rw [List.append_nil, List.append_nil]
  | append_singleton m b ih =>
    rw [← List.append_assoc, takeTrailing_concat, if_pos (hm b (by simp)),
      ih fun a ha => hm a (List.mem_append_left _ ha), List.append_assoc]

end Gherkin
