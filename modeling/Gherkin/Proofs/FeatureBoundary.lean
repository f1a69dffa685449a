import Gherkin.Proofs.Scanning
import Gherkin.Proofs.Segments
import Gherkin.Dialect.Standard

/-!
# Documents in a row

Two documents written one behind the other read as they read alone, if the
second starts at a feature: with the line of a feature, or with tag lines that
belong to one.  Such a line has the same meaning in every mode but an open text
block, it completes a description that was still pending, and the features
before it are cut off there.

> `parse_append`: the tokens and the features of the two documents in a row are
> those of the first and then those of the second, whose lines are counted on.
-/

namespace Gherkin

namespace Line

/-- Whether a text block is open behind the last line. -/
def leavesBlockOpen (d : Dialect) (lines : List Text) : Bool :=
  (ScanMode.plain.run d (effective lines)).1.isBlock

/-- The tokens of the first line that is neither blank nor a comment. -/
def firstTokens (d : Dialect) (lines : List Text) : List Token :=
  match effective lines with
  | [] => []
  | l :: _ => foundTokens (ScanMode.plain.advance d l).2

/-- A scan goes on behind other lines as it starts, if its first line is one that
is not free. -/
theorem foundTokens_scan_append {d : Dialect} {xs ys : List Text}
    (hopen : leavesBlockOpen d xs = false)
    (hfirst : ∃ t ∈ firstTokens d ys, t.isFeature = true ∨ t.isTag = true) :
    foundTokens (scan d (xs ++ ys)) =
      foundTokens (scan d xs) ++
        (foundTokens (scan d ys)).map (Token.renumber (xs.length + ·)) := by
  obtain ⟨t, ht, hk⟩ := hfirst
  unfold firstTokens at ht
  split at ht
  · simp at ht
  next l ls hys =>
    have hfree : shape d l.text ≠ .free := ScanMode.shape_ne_free ht hk
    have hshape : shape d (l.renumber (xs.length + ·)).text ≠ .free := hfree
    have hplain : ScanMode.plain.renumber (xs.length + ·) = .plain := rfl
    have hrenumber := ScanMode.tokensFrom_renumber (g := (xs.length + ·)) d .plain (l :: ls)
    rw [hplain, List.map_cons, ScanMode.tokensFrom_cons] at hrenumber
    rw [foundTokens_scan d (xs ++ ys), foundTokens_scan d ys, hys, effective_append, hys,
      List.map_cons, ScanMode.tokensFrom_append, ScanMode.tokensFrom_cons,
      ScanMode.advance_of_ne_free hshape hopen, ← hrenumber]
    -- the pending description moves from the end of the first scan to the second
    simp only [scan, ScanMode.atEnd_of_not_isBlock hopen, foundTokens_append, List.append_assoc]

end Line

theorem StartsWithFeature.map_renumber {ts : List Token} (h : StartsWithFeature ts)
    (g : Nat → Nat) : StartsWithFeature (ts.map (Token.renumber g)) := by
  obtain ⟨tags, t, rest, rfl, htags, ht⟩ := h
  refine ⟨tags.map (Token.renumber g), t.renumber g, rest.map (Token.renumber g), ?_, ?_, ht⟩
  · rw [List.map_append, List.map_cons]
  · intro u hu
    obtain ⟨v, hv, rfl⟩ := List.mem_map.1 hu
    exact htags v hv

namespace DialectTable

variable {t : DialectTable} {d : Dialect}

/-- Two documents in a row, the second of which starts at a feature. -/
theorem parse_append {xs ys : List Text} {us vs : List Token}
    (hxs : t.dialectOf xs = .ok d) (hys : t.dialectOf ys = .ok d)
    (hboth : t.dialectOf (xs ++ ys) = .ok d)
    (hus : t.tokenize xs = .ok us) (hvs : t.tokenize ys = .ok vs)
    (hopen : Line.leavesBlockOpen d xs = false)
    (hlast : ∀ u, us.getLast? = some u → u.isTag = false)
    (hfirst : ∃ u ∈ Line.firstTokens d ys, u.isFeature = true ∨ u.isTag = true)
    (hstart : StartsWithFeature vs) :
    t.tokenize (xs ++ ys) = .ok (us ++ vs.map (Token.renumber (xs.length + ·))) ∧
      ∃ fs gs, t.parse xs = .ok fs ∧ t.parse ys = .ok gs ∧
        t.parse (xs ++ ys) = .ok (fs ++ gs) := by
  have hus' : foundTokens (Line.scan d xs) = us := by
    rw [tokenize_of_dialectOf hxs] at hus
    exact Except.ok.inj hus
  have hvs' : foundTokens (Line.scan d ys) = vs := by
    rw [tokenize_of_dialectOf hys] at hvs
    exact Except.ok.inj hvs
  have hscan := Line.foundTokens_scan_append hopen hfirst
  rw [hus', hvs'] at hscan
  refine ⟨by rw [tokenize_of_dialectOf hboth, hscan], build us, build vs, ?_, ?_, ?_⟩
  · rw [parse_of_dialectOf hxs, hus']
  · rw [parse_of_dialectOf hys, hvs']
  · rw [parse_of_dialectOf hboth, hscan, build_append hlast (hstart.map_renumber _),
      build_renumber]

/-- A description that is still pending where a line of two tags stands next. -/
theorem parse_append_pending_description :
    let xs : List Text := ["Feature: A", "  told here"]
    let ys : List Text := ["", "@x @y", "Feature: B"]
    let us : List Token := [⟨.feature, "Feature", "A", 0⟩, ⟨.description, [], "told here", 1⟩]
    let vs : List Token :=
      [⟨.tag, ['@'], "x", 1⟩, ⟨.tag, ['@'], "y", 1⟩, ⟨.feature, "Feature", "B", 2⟩]
    standard.tokenize (xs ++ ys) = .ok (us ++ vs.map (Token.renumber (xs.length + ·))) ∧
      ∃ fs gs, standard.parse xs = .ok fs ∧ standard.parse ys = .ok gs ∧
        standard.parse (xs ++ ys) = .ok (fs ++ gs) := by
  intro xs ys us vs
  have hus : standard.tokenize xs = .ok us := by decide
  have hvs : standard.tokenize ys = .ok vs := by decide
  have hstart : StartsWithFeature vs := ⟨vs.take 2, vs[2], [], rfl, by decide, rfl⟩
  exact parse_append (d := Dialect.english) rfl rfl rfl hus hvs (by decide) (by decide)
    ⟨vs[0], by decide, by decide⟩ hstart

end DialectTable

end Gherkin
