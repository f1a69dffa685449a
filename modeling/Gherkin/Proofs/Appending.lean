import Gherkin.Proofs.Scanning
import Gherkin.Dialect.Standard

/-!
# Documents that are written on

A document can be read before it is complete.  More lines at its end leave what was
read as it is, with one exception: a description that stands last may have more lines
to come.

> `parse_append_lines`: the tokens of a document go on behind those of its first
> lines, and so do its features behind all of theirs but the last, which keeps its
> heading.

That the description is the only exception comes from the scan: no other mode has
anything pending (`ScanMode.tokensFrom_feature`).  A feature is settled once the next
one opens, because only the slice of the last part of a list can still grow
(`build_append_right`).
-/

namespace Gherkin

namespace Text

theorem ofLines_append :
    ∀ {ls ms : List Text}, ls ≠ [] → ms ≠ [] →
      ofLines (ls ++ ms) = ofLines ls ++ '\n' :: ofLines ms
  | [], _, h, _ => absurd rfl h
  | [l], ms, _, hms => by
    rw [ofLines, List.singleton_append, join_cons _ l hms]
    simp [ofLines, join]
  | l :: m :: ls, ms, _, hms => by
    have ih := ofLines_append (List.cons_ne_nil m ls) hms
    simp only [ofLines] at ih ⊢
    rw [List.cons_append, join_cons _ l (by simp), ih, join_cons _ l (List.cons_ne_nil m ls)]
    simp only [List.append_assoc]

end Text

/-- That `us` can be the tokens of a document whose first lines have the tokens `ts`:
all of these stay, but a description in the last place may have more lines. -/
def Token.Continue (ts us : List Token) : Prop :=
  ts <+: us ∨ ∃ front description more, description.kind = .description ∧
    ts = front ++ [description] ∧
    front ++ [{ description with text := description.text ++ '\n' :: more }] <+: us

namespace ScanMode

/-- A description that has lines already is the next token, with those of the
following lines that still belong to it. -/
theorem tokensFrom_feature (d : Dialect) (first : NumberedLine) :
    ∀ ls others : List NumberedLine, ∃ more behind,
      tokensFrom d (feature (first :: others)) ls =
        ⟨.description, [], Text.ofLines ((first :: others ++ more).map (·.text)), first.number⟩
          :: behind
  | [], others => ⟨[], [], by simp [tokensFrom, run, atEnd, pending]⟩
  | l :: ls, others => by
    by_cases hs : Line.shape d l.text = .free
    · obtain ⟨more, behind, ih⟩ := tokensFrom_feature d first ls (others ++ [l])
      refine ⟨l :: more, behind, ?_⟩
      rw [tokensFrom_cons, advance_of_free hs rfl]
      simpa [free] using ih
    · refine ⟨[], foundTokens (advance d l plain).2 ++
        tokensFrom d (advance d l plain).1 ls, ?_⟩
      rw [tokensFrom_cons, advance_of_ne_free hs rfl]
      simp [pending]

/-- What is found behind some lines goes on where the document would have ended. -/
theorem continue_atEnd (d : Dialect) (mode : ScanMode) (ts : List Token)
    (ls : List NumberedLine) :
    Token.Continue (ts ++ foundTokens mode.atEnd) (ts ++ tokensFrom d mode ls) := by
  have hnone (h : foundTokens mode.atEnd = []) :
      Token.Continue (ts ++ foundTokens mode.atEnd) (ts ++ tokensFrom d mode ls) := by
    rw [h, List.append_nil]
    exact Or.inl (List.prefix_append ts _)
  -- only a description that has lines gives a token at the end of the document
  cases mode with
  | plain | step | block b => exact hnone rfl
  | feature description =>
    cases description with
    | nil => exact hnone rfl
    | cons first others =>
      obtain ⟨more, behind, hfound⟩ := tokensFrom_feature d first ls others
      rw [hfound]
      cases more with
      | nil => exact Or.inl ⟨behind, by simp [atEnd, pending]⟩
      | cons l more =>
        have htext : Text.ofLines ((first :: others).map (·.text) ++ (l :: more).map (·.text)) =
            Text.ofLines ((first :: others).map (·.text)) ++
              '\n' :: Text.ofLines ((l :: more).map (·.text)) :=
          Text.ofLines_append (by simp) (by simp)
        refine Or.inr ⟨ts, _, Text.ofLines ((l :: more).map (·.text)), rfl, rfl, behind, ?_⟩
        rw [List.map_append, htext, List.append_assoc, List.singleton_append]

end ScanMode

theorem Line.continue_scan_append (d : Dialect) (xs ys : List Text) :
    Token.Continue (foundTokens (scan d xs)) (foundTokens (scan d (xs ++ ys))) := by
  have hxs : foundTokens (scan d xs) = foundTokens (ScanMode.plain.run d (effective xs)).2 ++
      foundTokens (ScanMode.plain.run d (effective xs)).1.atEnd := foundTokens_append _ _
  rw [hxs, foundTokens_scan, effective_append, ScanMode.tokensFrom_append]
  exact ScanMode.continue_atEnd d _ _ _

/-! ## Features -/

/-- Behind some tokens without a feature among them, others may follow instead: all
features but the last stay, and that one keeps its heading. -/
theorem build_append_right {ts m : List Token} (hm : ∀ t ∈ m, t.isFeature = false)
    (n : List Token) {front : List Feature} {f : Feature} (h : build (ts ++ m) = front ++ [f]) :
    ∃ g rest, build (ts ++ n) = front ++ g :: rest ∧ g.toHeading = f.toHeading := by
  rw [build_eq_features, Reading.features, parts_append, parts_eq_nil.2 hm, List.map_nil,
    List.append_nil] at h
  rw [build_eq_features, Reading.features, parts_append]
  rcases List.eq_nil_or_concat' (parts Token.isFeature ts) with hp | ⟨qs, q, hp⟩
  · -- no feature among these tokens, so none to be the last
    rw [hp] at h
    simp [modifyLast] at h
  · rw [hp, modifyLast_concat, List.map_append] at h
    obtain ⟨rfl, hf⟩ := List.append_inj' h rfl
    obtain rfl := List.singleton_inj.1 hf
    rw [hp, modifyLast_concat, List.append_assoc, List.map_append, List.singleton_append,
      List.map_cons]
    exact ⟨_, _, rfl, rfl⟩

theorem Token.Continue.build {ts us : List Token} (h : Token.Continue ts us)
    {front : List Feature} {f : Feature} (hts : build ts = front ++ [f]) :
    ∃ g rest, Gherkin.build us = front ++ g :: rest ∧ g.toHeading = f.toHeading := by
  rcases h with ⟨n, rfl⟩ | ⟨ts, t, more, hk, rfl, n, rfl⟩
  · rw [← List.append_nil ts] at hts
    exact build_append_right (by simp) n hts
  · have ht : ∀ u ∈ [t], u.isFeature = false := by simp [Token.isFeature, hk]
    rw [List.append_assoc]
    exact build_append_right ht _ hts

namespace DialectTable

variable {t : DialectTable} {d : Dialect} {xs ys : List Text}

/-- **More lines at the end disturb nothing.**  Tokens stay as they are, and so do
features, up to the place where the first lines ended: a description that stood last
may go on, and the last feature gets what follows, under the same heading. -/
theorem parse_append_lines (hxs : t.dialectOf xs = .ok d)
    (hboth : t.dialectOf (xs ++ ys) = .ok d) :
    ∃ ts us fs gs, t.tokenize xs = .ok ts ∧ t.tokenize (xs ++ ys) = .ok us ∧
      Token.Continue ts us ∧ t.parse xs = .ok fs ∧ t.parse (xs ++ ys) = .ok gs ∧
      ∀ front f, fs = front ++ [f] →
        ∃ g rest, gs = front ++ g :: rest ∧ g.toHeading = f.toHeading := by
  have hcontinue := Line.continue_scan_append d xs ys
  refine ⟨_, _, _, _, tokenize_of_dialectOf hxs, tokenize_of_dialectOf hboth, hcontinue,
    parse_of_dialectOf hxs, parse_of_dialectOf hboth, fun front f hfs => ?_⟩
  exact hcontinue.build hfs

/-- The first lines end in a description, and in tags that wait. -/
theorem parse_append_lines_description :
    let xs : List Text := ["Feature: A", "@x", "Feature: B", "told"]
    let ys : List Text := ["", "here", "@y", "Feature: C"]
    let first : List Token :=
      [⟨.feature, "Feature", "A", 0⟩, ⟨.tag, ['@'], "x", 1⟩, ⟨.feature, "Feature", "B", 2⟩]
    standard.dialectOf xs = .ok Dialect.english ∧
      standard.dialectOf (xs ++ ys) = .ok Dialect.english ∧
      standard.tokenize xs = .ok (first ++ [⟨.description, [], "told", 3⟩]) ∧
      standard.tokenize (xs ++ ys) = .ok (first ++ [⟨.description, [], "told\nhere", 3⟩,
        ⟨.tag, ['@'], "y", 6⟩, ⟨.feature, "Feature", "C", 7⟩]) ∧
      ∃ ts us fs gs, standard.tokenize xs = .ok ts ∧ standard.tokenize (xs ++ ys) = .ok us ∧
        Token.Continue ts us ∧ standard.parse xs = .ok fs ∧ standard.parse (xs ++ ys) = .ok gs ∧
        ∀ front f, fs = front ++ [f] →
          ∃ g rest, gs = front ++ g :: rest ∧ g.toHeading = f.toHeading := by
  intro xs ys first
  have hxs : standard.dialectOf xs = .ok Dialect.english := rfl
  have hboth : standard.dialectOf (xs ++ ys) = .ok Dialect.english := rfl
  exact ⟨hxs, hboth, by decide, by decide, parse_append_lines hxs hboth⟩

end DialectTable

end Gherkin
