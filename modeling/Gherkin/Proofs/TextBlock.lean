import Gherkin.Document.Block
import Gherkin.Proofs.Neat

/-!
# A text block, line by line

What a line does to an open text block depends on one thing: whether it ends in
the quotes of the block.

> `OpenBlock.addLine_cases`: a line that does not is kept, and one that does
> closes the block.
>
> `OpenBlock.start?_cases`: a block is opened by quotes at the start of a line, and
> what stands behind these is a line of the block already.
-/

namespace Gherkin

namespace Text

/-- The line that consists of `s`; none if `s` is empty. -/
def lineUnlessEmpty : Text → List Text
  | [] => []
  | c :: s => [c :: s]

theorem eq_of_mem_lineUnlessEmpty {r s : Text} (h : r ∈ lineUnlessEmpty s) :
    r = s ∧ lineUnlessEmpty s = [s] := by
  cases s with
  | nil => cases h
  | cons c s => exact ⟨List.mem_singleton.1 h, rfl⟩

/-- What is cut off the start leaves the last character, if it leaves any. -/
theorem getLast?_trimStart {s : Text} {c : Char} (h : (trimStart s).getLast? = some c) :
    s.getLast? = some c := by
  obtain ⟨w, hw⟩ := List.dropWhile_suffix isBlank (l := s)
  rw [← hw, List.getLast?_append]
  show ((trimStart s).getLast?.or w.getLast?) = some c
  rw [h]
  rfl

/-- Behind the start of a trimmed text there is no white space at the end. -/
theorem trimStart_eq_trim {p s : Text} (h : trim (p ++ s) = p ++ s) : trimStart s = trim s := by
  have hlast : ∀ c, (trimStart s).getLast? = some c → isBlank c = false := by
    intro c hc
    apply getLast?_trim (s := p ++ s)
    rw [h, List.getLast?_append, getLast?_trimStart hc]
    rfl
  have hself := trim_eq_self (fun c hc => head?_trimStart hc) hlast
  have hstart : trimStart (trimStart s) = trimStart s := List.dropWhile_idempotent isBlank s
  rw [trim, hstart] at hself
  exact hself.symm

/-- Before the end of a trimmed text there is no white space at the start. -/
theorem trimEnd_eq_trim {p s : Text} (h : trim (s ++ p) = s ++ p) : trimEnd s = trim s := by
  cases s with
  | nil => rfl
  | cons c s =>
    have hc : isBlank c = false := by
      apply head?_trim (s := c :: s ++ p)
      rw [h]
      rfl
    rw [trim, trimStart, List.dropWhile_cons_of_neg (by simp [hc])]

end Text

namespace OpenBlock

theorem addLine_of_not_closing {b : OpenBlock} {s : Text} (h : ¬ b.delimiter <:+ s) :
    b.addLine s = .unfinished { b with body := b.body ++ [s] } := by
  unfold addLine
  split
  next => rfl
  next r hr => exact absurd ⟨r, (Text.before?_eq_some.1 hr).symm⟩ h

theorem addLine_append (b : OpenBlock) (s : Text) :
    b.addLine (s ++ b.delimiter) =
      .finished (b.token (b.body ++ Text.lineUnlessEmpty (Text.trimEnd s))) := by
  rw [addLine, Text.before?_append]
  cases h : Text.trimEnd s with
  | nil => simp [h, Text.lineUnlessEmpty]
  | cons c r => simp [h, Text.lineUnlessEmpty]

/-- All that a line can do to an open block. -/
theorem addLine_cases (b : OpenBlock) (s : Text) :
    (¬ b.delimiter <:+ s ∧ b.addLine s = .unfinished { b with body := b.body ++ [s] }) ∨
      ∃ r, s = r ++ b.delimiter ∧
        b.addLine s = .finished (b.token (b.body ++ Text.lineUnlessEmpty (Text.trimEnd r))) := by
  by_cases h : b.delimiter <:+ s
  · obtain ⟨r, rfl⟩ := h
    exact Or.inr ⟨r, rfl, addLine_append b r⟩
  · exact Or.inl ⟨h, addLine_of_not_closing h⟩

/-- The block behind the opening quotes, which may have a line already. -/
def begin (b : OpenBlock) (rest : Text) : BlockState :=
  match Text.trimStart rest with
  | [] => .unfinished b
  | first => b.addLine first

theorem opening?_append {q : Text} (hq : q ∈ delimiters) (rest : Text) :
    opening? (q ++ rest) = some (q, rest) := by
  simp only [delimiters, List.mem_cons, List.not_mem_nil, or_false] at hq
  rcases hq with rfl | rfl <;> rfl

theorem start?_append {q : Text} (hq : q ∈ delimiters) (n : Nat) (rest : Text) :
    start? n (q ++ rest) = some (begin ⟨q, n, []⟩ rest) := by
  rw [start?, opening?_append hq]
  rfl

/-- All that a line can open. -/
theorem start?_cases {n : Nat} {s : Text} {state : BlockState} (h : start? n s = some state) :
    ∃ q ∈ delimiters, ∃ rest, s = q ++ rest ∧ state = begin ⟨q, n, []⟩ rest := by
  obtain ⟨⟨q, rest⟩, hopening, rfl⟩ := Option.map_eq_some_iff.1 h
  obtain ⟨d, hd, hpair⟩ := List.exists_of_findSome?_eq_some hopening
  obtain ⟨r, hr, heq⟩ := Option.map_eq_some_iff.1 hpair
  obtain ⟨rfl, rfl⟩ := Prod.mk.inj heq
  exact ⟨d, hd, r, Text.after?_eq_some.1 hr, rfl⟩

/-- A block that has just begun: it goes on, or what stands behind its quotes
closes it. -/
theorem begin_cases (b : OpenBlock) (rest : Text) :
    (∃ body, begin b rest = .unfinished { b with body := body }) ∨
      b.delimiter <:+ rest ∧ ∃ body, begin b rest = .finished (b.token body) := by
  unfold begin
  split
  next => exact Or.inl ⟨b.body, rfl⟩
  next first hfirst =>
    rcases b.addLine_cases (Text.trimStart rest) with ⟨-, hadd⟩ | ⟨r, hr, hadd⟩
    · exact Or.inl ⟨_, hadd⟩
    · have hsuffix : b.delimiter <:+ Text.trimStart rest := ⟨r, hr.symm⟩
      exact Or.inr ⟨hsuffix.trans (List.dropWhile_suffix _), _, hadd⟩

end OpenBlock

end Gherkin
