/-!
# The trailing run of a list

`dropTrailing p l` removes the longest run of members satisfying `p` at the end
of `l`, and `takeTrailing p l` is that run; `dropTrailing_append_takeTrailing`
says that together they are `l`.  Texts lose their trailing white space this
way, and a run of tokens the tags at its end.
-/

namespace Gherkin

variable {α : Type}

/-- `l` without the longest run of members satisfying `p` at its end. -/
def dropTrailing (p : α → Bool) : List α → List α
  | [] => []
  | a :: l =>
    match dropTrailing p l with
    | [] => if p a then [] else [a]
    | b :: m => a :: b :: m

/-- The longest run of members satisfying `p` at the end of `l`. -/
def takeTrailing (p : α → Bool) (l : List α) : List α :=
  l.drop (dropTrailing p l).length

/-- Only the end of the list is cut off. -/
theorem dropTrailing_isPrefix (p : α → Bool) : ∀ l : List α, dropTrailing p l <+: l
  | [] => List.prefix_rfl
  | a :: l => by
    have ih := dropTrailing_isPrefix p l
    rw [dropTrailing]
    split
    · split
      · exact List.nil_prefix
      · exact (List.cons_prefix_cons).2 ⟨rfl, List.nil_prefix⟩
    · rename_i b m h
      rw [h] at ih
      exact (List.cons_prefix_cons).2 ⟨rfl, ih⟩

theorem dropTrailing_append_takeTrailing (p : α → Bool) (l : List α) :
    dropTrailing p l ++ takeTrailing p l = l :=
  (List.prefix_iff_eq_append.1 (dropTrailing_isPrefix p l))

end Gherkin
