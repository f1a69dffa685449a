import Gherkin.Proofs.DumpReading
import Gherkin.Proofs.Renumbering

/-!
# Dumps are documents

What a document without tags means can be dumped, and the dump is a document
that means the same.  This takes a dialect whose keywords are distinct, such as
the English, the German or the Spanish one; the French `Et que` could also be
read as `Et` and a text.

> `parseText_dump`: the features of an untagged document are read back from
> their dump, if no line of a text block looks like a comment or like the end
> of the block.
-/

namespace Gherkin

namespace Line

variable {ls : List Text}

/-- A scan leaves out none of these lines; only their numbers differ. -/
theorem effective_renumber (h : ∀ l ∈ ls, Dump.IsScanned l) :
    (effective ls).map (NumberedLine.renumber fun _ => 0) = Dump.scanned ls := by
  have hall : effective ls = (ls.map Text.trim).zipIdx.map fun p => ⟨p.2, p.1⟩ := by
    apply List.filter_eq_self.2
    intro l hl
    obtain ⟨⟨text, n⟩, hpair, rfl⟩ := List.mem_map.1 hl
    obtain ⟨line, hline, rfl⟩ := List.mem_map.1 (List.fst_mem_of_mem_zipIdx hpair)
    exact (h line hline).effective
  calc (effective ls).map (NumberedLine.renumber fun _ => 0)
    _ = ((ls.map Text.trim).zipIdx.map Prod.fst).map fun s => ⟨0, s⟩ := by
      rw [hall, List.map_map, List.map_map]
      rfl
    _ = Dump.scanned ls := by
      rw [List.zipIdx_map_fst, List.map_map]
      rfl

/-- None of these lines is a language directive. -/
theorem lastDirective?_of_isScanned (h : ∀ l ∈ ls, Dump.IsScanned l) :
    lastDirective? ls = none := by
  have hnone : ls.filterMap directive? = [] :=
    List.filterMap_eq_nil_iff.2 fun l hl => directive?_of_isEffective (h l hl).effective
  rw [lastDirective?, hnone, List.getLast?_nil]

end Line

namespace DialectTable

variable {t : DialectTable} {d : Dialect}

/-- The dump of legible features is read back, if its locale needs no directive. -/
theorem parseText_dump_of_isLegible (hd : d.IsDistinct) (hbase : t.lookup? t.base = some d)
    {fs : List Feature} (hfs : ∀ f ∈ fs, f.IsLegible d) (huntagged : ∀ f ∈ fs, f.IsUntagged)
    (hblocks : ∀ f ∈ fs, ∀ l ∈ f.blockLines, Dump.IsBlockLine l) :
    t.parseText (dump fs) = .ok fs := by
  obtain ⟨m, hm, ls, hdump, hls, rfl, hts⟩ := Dump.readsAs_dump hd hfs huntagged hblocks
  have hlines : Text.lines (dump fs) = ls := by
    rw [hdump]
    exact Text.lines_flatMap fun l hl => (hls l hl).line
  have hdialect : t.dialectOf ls = .ok d := by
    have hlocale : t.localeOf ls = t.base := by
      rw [localeOf, Line.lastDirective?_of_isScanned hls]
      rfl
    rw [dialectOf, hlocale, hbase]
  -- the lines of the dump are counted, those of `Dump.ReadsAs` are not
  have htokens : (foundTokens (Line.scan d ls)).map (Token.renumber fun _ => 0) =
      fs.flatMap Feature.tokens := by
    have hplain : ScanMode.plain.renumber (fun _ => 0) = .plain := rfl
    have hrenumber := ScanMode.tokensFrom_renumber (g := fun _ => 0) d .plain (Line.effective ls)
    rw [hplain, Line.effective_renumber hls, ScanMode.tokensFrom, foundTokens_append,
      ScanMode.atEnd_of_not_isBlock hm, hts] at hrenumber
    exact hrenumber.symm
  rw [parseText, hlines, parse_of_dialectOf hdialect, ← build_renumber fun _ => 0, htokens,
    build_flatMap_tokens hfs huntagged]

/-- Locales of the standard table in which dumps are read back. -/
def dumpLocales : List Text := ["en".toList, "de".toList, "es".toList]

theorem exists_isDistinct {code : Text} (h : code ∈ dumpLocales) :
    ∃ d, standard.lookup? code = some d ∧ d.IsDistinct := by
  simp only [dumpLocales, List.mem_cons, List.not_mem_nil, or_false] at h
  rcases h with rfl | rfl | rfl
  · exact ⟨Dialect.english, by decide, Dialect.english_isDistinct⟩
  · exact ⟨Dialect.german, by decide, Dialect.german_isDistinct⟩
  · exact ⟨Dialect.spanish, by decide, Dialect.spanish_isDistinct⟩

/-- **The dump of an untagged document reads back as the same features.** -/
theorem parseText_dump {code : Text} (hcode : code ∈ dumpLocales)
    (ht : standard.rebase code = .ok t) {s : Text}
    (hs : t.lookup? (t.localeOf (Text.lines s)) = t.lookup? code) :
    ∃ fs, t.parseText s = .ok fs ∧
      ((∀ f ∈ fs, f.IsUntagged) → (∀ f ∈ fs, ∀ l ∈ f.blockLines, Dump.IsBlockLine l) →
        t.parseText (dump fs) = .ok fs) := by
  have htable : t = { standard with base := code } := by
    unfold rebase at ht
    split at ht
    · exact (Except.ok.inj ht).symm
    · cases ht
  obtain ⟨d, hlookup, hd⟩ := exists_isDistinct hcode
  have hbase : t.lookup? t.base = some d := by
    rw [htable]
    exact hlookup
  have hdialect : t.dialectOf (Text.lines s) = .ok d := by
    have hcodebase : t.base = code := by rw [htable]
    rw [← hcodebase, hbase] at hs
    rw [dialectOf, hs]
  -- whatever the source looked like, its features can be written down
  have hlegible := isLegible_of_mem_build
    (Line.areLegible_scan (d := d) fun l hl => Text.not_mem_of_mem_lines (s := s) hl)
  refine ⟨_, parse_of_dialectOf hdialect, fun huntagged hblocks => ?_⟩
  exact parseText_dump_of_isLegible hd hbase hlegible huntagged hblocks

/-- A description that looks like a row, a background that a dump moves to the
front, and a text block in other quotes. -/
theorem parseText_dump_german :
    let t : DialectTable := { standard with base := "de" }
    let s : Text :=
      "Funktion: Konto\n| frei |\nSzenario: S\nWenn x\n'''a\nb'''\n| c | |\nGrundlage:\nUnd y"
    let f : Feature :=
      { keyword := "Funktion", name := "Konto", tags := []
        description := some "| frei |"
        background := some
          ⟨⟨"Grundlage", [], []⟩, [⟨"Und", "y", .andStep, .givenStep, []⟩]⟩
        scenarios := [.scenario
          ⟨⟨"Szenario", "S", []⟩,
            [⟨"Wenn", "x", .whenStep, .whenStep, [.block "a\nb", .row ["c", []]]⟩]⟩] }
    t.parseText s = .ok [f] ∧ t.parseText (dump [f]) = .ok [f] := by
  intro t s f
  have hparse : t.parseText s = .ok [f] := by decide
  have ht : standard.rebase "de" = .ok t := by decide
  obtain ⟨fs, hfs, hdump⟩ := @parseText_dump t "de" (by decide) ht s (by decide)
  obtain rfl : [f] = fs := Except.ok.inj (hparse.symm.trans hfs)
  exact ⟨hparse, hdump (by decide) (by decide)⟩

end DialectTable

end Gherkin
