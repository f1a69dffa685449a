import Gherkin.Proofs.Layout

/-!
# The locale of a document

A language directive names the locale of its document from wherever it stands.  It
does no more than that: a document with directives is read as it would be without
them in a table whose base is the locale that the last one stands for.

> `tokenize_rebase`: the directives can be replaced by other comments if the table
> is rebased instead.

Which locale a code stands for is said by `DialectTable.Selects`, without looking
into the table entry by entry; `Selects.lookup?` says that a table finds the dialect
of that locale.
-/

namespace Gherkin

namespace Catalogue

variable {α : Type} {c : Catalogue α} {code : Text} {p : Text → Bool}

/-- What is filed under a code stands behind the lesser codes. -/
theorem exists_append_of_mem (h : code ∈ c) :
    ∃ before value after, c.entries = before ++ (code, value) :: after ∧
      ∀ e ∈ before, e.1 < code := by
  obtain ⟨⟨_, value⟩, hmem, rfl⟩ := List.mem_map.1 h
  obtain ⟨before, after, hsplit⟩ := List.append_of_mem hmem
  have hascending := c.ascending
  rw [hsplit, List.pairwise_append] at hascending
  exact ⟨before, value, after, hsplit,
    fun e he => hascending.2.2 e he _ List.mem_cons_self⟩

theorem get?_eq_none (h : code ∉ c) : c.get? code = none := by
  rw [get?, first?, Option.map_eq_none_iff, List.find?_eq_none]
  intro e he heq
  exact h (List.mem_map.2 ⟨e, he, by simpa using heq⟩)

/-- The first code that satisfies `p` is the least one. -/
theorem exists_first?_of_least (h : code ∈ c) (hp : p code = true)
    (hleast : ∀ k ∈ c, p k = true → ¬ k < code) :
    ∃ value, c.first? p = some value ∧ c.get? code = some value := by
  obtain ⟨before, value, after, hsplit, hlt⟩ := exists_append_of_mem h
  have hfirst {q : Text → Bool} (hq : q code = true)
      (hbefore : ∀ e ∈ before, ¬ q e.1 = true) : c.first? q = some value := by
    have hnone : before.find? (fun e => q e.1) = none := List.find?_eq_none.2 hbefore
    rw [first?, hsplit, List.find?_append, hnone]
    simp [hq]
  -- the entries before are less than `code`, so they neither satisfy `p` nor are it
  refine ⟨value, hfirst hp ?_, hfirst (by simp) ?_⟩
  · intro e he hpe
    have hmem : e.1 ∈ c := List.mem_map.2 ⟨e, by rw [hsplit]; simp [he], rfl⟩
    exact hleast e.1 hmem hpe (hlt e he)
  · intro e he heq
    have hcode : e.1 = code := by simpa using heq
    exact List.lt_irrefl _ (hcode ▸ hlt e he)

end Catalogue

namespace DialectTable

variable {t : DialectTable} {code key : Text}

/-- That a code stands for the locale `key` of a table: for itself, if the table has
it, and otherwise for the least code that differs from it in case only. -/
structure Selects (t : DialectTable) (code key : Text) : Prop where
  mem : key ∈ t.dialects
  eq_of_mem : code ∈ t.dialects → key = code
  least : code ∉ t.dialects → Text.sameIgnoringCase key code = true ∧
    ∀ k ∈ t.dialects, Text.sameIgnoringCase k code = true → ¬ k < key

/-- A table finds the dialect of the locale that a code stands for. -/
theorem Selects.lookup? (h : t.Selects code key) :
    ∃ d, t.lookup? code = some d ∧ t.lookup? key = some d := by
  have hself {k : Text} (hk : k ∈ t.dialects) : ∃ d, t.dialects.get? k = some d := by
    obtain ⟨d, hd, -⟩ := Catalogue.exists_first?_of_least (p := (· == k)) hk (by simp)
      fun j _ hj => by
        have heq : j = k := by simpa using hj
        exact heq ▸ List.lt_irrefl _
    exact ⟨d, hd⟩
  by_cases hmem : code ∈ t.dialects
  · obtain rfl := h.eq_of_mem hmem
    obtain ⟨d, hd⟩ := hself hmem
    exact ⟨d, by rw [DialectTable.lookup?, hd], by rw [DialectTable.lookup?, hd]⟩
  · obtain ⟨hsame, hleast⟩ := h.least hmem
    obtain ⟨d, hfirst, hd⟩ := Catalogue.exists_first?_of_least
      (p := (Text.sameIgnoringCase · code)) h.mem hsame hleast
    exact ⟨d, by rw [DialectTable.lookup?, Catalogue.get?_eq_none hmem, hfirst],
      by rw [DialectTable.lookup?, hd]⟩

end DialectTable

/-! ## Documents without their directives -/

namespace Line

/-- `m` is the line `l`, or another comment in the place of a language directive. -/
def WithoutDirective (l m : Text) : Prop :=
  if (directive? l).isSome then IsRemark m else m = l

theorem WithoutDirective.directive?_eq {l m : Text} (h : WithoutDirective l m) :
    directive? m = none := by
  unfold WithoutDirective at h
  split at h
  · exact h.noDirective
  next hnone => rw [h, Option.not_isSome_iff_eq_none.1 hnone]

theorem WithoutDirective.saysTheSame {l m : Text} (h : WithoutDirective l m) :
    SaysTheSame l m := by
  unfold WithoutDirective at h
  split at h
  next hsome =>
    refine Or.inr ⟨?_, isEffective_of_comment h.comment⟩
    by_contra heff
    rw [directive?_of_isEffective (by simpa using heff)] at hsome
    cases hsome
  next => exact Or.inl (by rw [h])

/-- The same document up to its comments. -/
def SameButComments (l m : Text) : Prop :=
  m = l ∨ (Text.trim l).head? = some '#' ∧ (Text.trim m).head? = some '#'

theorem SameButComments.saysTheSame {l m : Text} (h : SameButComments l m) :
    SaysTheSame l m := by
  rcases h with rfl | ⟨hl, hm⟩
  · exact Or.inl rfl
  · exact Or.inr ⟨isEffective_of_comment hl, isEffective_of_comment hm⟩

theorem lastDirective?_of_withoutDirective {ls ms : List Text}
    (h : List.Forall₂ WithoutDirective ls ms) : lastDirective? ms = none := by
  have hnone : ms.filterMap directive? = [] := by
    induction h with
    | nil => rfl
    | cons hlm _ ih => rw [List.filterMap_cons_none hlm.directive?_eq, ih]
  rw [lastDirective?, hnone, List.getLast?_nil]

end Line

namespace DialectTable

variable {t : DialectTable} {d : Dialect} {code key : Text} {lines plain : List Text}

theorem rebase_of_mem (h : key ∈ t.dialects) : t.rebase key = .ok { t with base := key } := by
  rw [rebase, if_pos h]

/-- Documents that say the same give the same tokens in the same dialect, whichever
table it comes from. -/
theorem tokenize_of_saysTheSame (hd : t.lookup? (t.localeOf plain) = some d)
    (h : List.Forall₂ Line.SaysTheSame lines plain) :
    t.tokenize plain = .ok (foundTokens (Line.scan d lines)) := by
  have hdialect : t.dialectOf plain = .ok d := by rw [dialectOf, hd]
  rw [tokenize_of_dialectOf hdialect, Line.scan, Line.scan, Line.effective_congr h]

/-- **A directive is a change of base.**  What the last directive of a document stands
for can as well be made the base of the table; then other comments in the place of
the directives do.  Neither the base that the table had nor what the other comments
say makes a difference. -/
theorem tokenize_rebase (hcode : Line.lastDirective? lines = some code)
    (hkey : t.Selects code key) (hplain : List.Forall₂ Line.WithoutDirective lines plain) :
    ∃ t' ts, t.rebase key = .ok t' ∧ t.tokenize lines = .ok ts ∧ t'.tokenize plain = .ok ts ∧
      ∀ base other, Line.lastDirective? other = some code →
        List.Forall₂ Line.SameButComments lines other →
          ({ t with base := base } : DialectTable).tokenize other = .ok ts := by
  obtain ⟨d, hd, hbase⟩ := hkey.lookup?
  have hlocale {u : DialectTable} {ms : List Text} (hms : Line.lastDirective? ms = some code) :
      u.localeOf ms = code := by
    rw [localeOf, hms, Option.getD_some]
  have hnone : localeOf { t with base := key } plain = key := by
    rw [localeOf, Line.lastDirective?_of_withoutDirective hplain, Option.getD_none]
  -- each of the three tables resolves to `d` in its own way
  refine ⟨{ t with base := key }, foundTokens (Line.scan d lines), rebase_of_mem hkey.mem,
    ?_, ?_, fun base other hother hsame => ?_⟩
  · apply tokenize_of_saysTheSame (by rw [hlocale hcode, hd])
    exact List.forall₂_same.2 fun _ _ => Or.inl rfl
  · apply tokenize_of_saysTheSame (by rw [hnone]; exact hbase)
    exact hplain.imp fun _ _ => Line.WithoutDirective.saysTheSame
  · apply tokenize_of_saysTheSame (by rw [hlocale hother]; exact hd)
    exact hsame.imp fun _ _ => Line.SameButComments.saysTheSame

/-- The last of two directives stands in a text block, and two locales of the table
differ from its code in case only. -/
theorem tokenize_rebase_in_block :
    let t := (standard.insert "Pt" Dialect.french).insert "PT" Dialect.german
    let code : Text := "pT"
    let key : Text := "PT"
    let lines : List Text :=
      ["# language: fr", "Funktion: A", "Szenario: S", "Wenn x", "'''", " # LANGUAGE :pT", "'''"]
    let plain : List Text :=
      ["# note", "Funktion: A", "Szenario: S", "Wenn x", "'''", "#", "'''"]
    let ts : List Token :=
      [⟨.feature, "Funktion", "A", 1⟩, ⟨.scenario, "Szenario", "S", 2⟩,
        ⟨.step .whenStep, "Wenn", "x", 3⟩, ⟨.block, [], [], 4⟩]
    Line.lastDirective? lines = some code ∧ t.Selects code key ∧
      List.Forall₂ Line.WithoutDirective lines plain ∧ t.tokenize lines = .ok ts ∧
      ∃ t', t.rebase key = .ok t' ∧ t'.tokenize plain = .ok ts := by
  intro t code key lines plain ts
  have hcode : Line.lastDirective? lines = some code := by decide
  have hkey : t.Selects code key := ⟨by decide, by decide, by decide⟩
  have hplain : List.Forall₂ Line.WithoutDirective lines plain := by
    have hfirst : Line.WithoutDirective "# language: fr" "# note" := ⟨by decide, by decide⟩
    have hlast : Line.WithoutDirective " # LANGUAGE :pT" "#" := ⟨by decide, by decide⟩
    exact .cons hfirst <| .cons rfl <| .cons rfl <| .cons rfl <| .cons rfl <| .cons hlast <|
      .cons rfl .nil
  have hts : t.tokenize lines = .ok ts := by decide
  obtain ⟨t', us, hrebase, hlines, hus, -⟩ := tokenize_rebase hcode hkey hplain
  obtain rfl : ts = us := Except.ok.inj (hts.symm.trans hlines)
  exact ⟨hcode, hkey, hplain, hts, t', hrebase, hus⟩

end DialectTable

end Gherkin
