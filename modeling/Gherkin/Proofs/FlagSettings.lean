import Gherkin.Command.Run
import Gherkin.Proofs.KeywordDocument
import Mathlib.Logic.Function.Basic

/-!
# Flags and variables

A setting is read in two ways.  What a variable of the environment holds is checked
and trimmed, and a blank name of a keyword document counts as none; what a flag holds
is taken as it is.  For values that the checks leave alone (`IsClean`) it makes no
difference in which way they are given:

> `flags_as_variables`: the settings of an environment with flags beside it are those
> of the environment in which the flags' variables hold the flags' values, with the
> same table or the same error, and each of them depends on its own flag and variable
> only.

Flags may come in any order.  `Overrides.Reads` and `Settings.IsSetBy` say, one option
at a time, where a value comes from; reading one more flag changes this for its own
option and for no other (`reads_of_withOption`), and the rest follows along the list.
-/

namespace Gherkin

open Arguments (OptionName withOption request)

namespace Arguments.OptionName

/-- The variable of the environment that sets the same as an option. -/
def variableName : OptionName → String
  | logLevel => "FURROW_LOG_LEVEL"
  | keywords => "FURROW_KEYWORDS"
  | baseLocale => "FURROW_BASE_LOCALE"

theorem variableName_inj {n m : OptionName} : n.variableName = m.variableName ↔ n = m := by
  cases n <;> cases m <;> decide

/-- Every option has its variable, and there are no others. -/
example : [logLevel, keywords, baseLocale].map variableName = Environment.variableNames := rfl

/-- A value that the environment's checks leave as it is: the name of a level, a path
that is more than white space, a locale without white space at its ends. -/
def IsClean : OptionName → Text → Prop
  | logLevel, s => ∃ level, LogLevel.ofName? s = .ok level
  | keywords, s => ¬ Text.IsBlankRun s
  | baseLocale, s => Dialect.IsWord s

end Arguments.OptionName

/-- The items of a command line by which flags are given. -/
def Arguments.flagItems (flags : List (OptionName × Text)) : List Arguments.Item :=
  flags.map fun x => .option x.1 x.2

/-! ## What flags say -/

namespace Overrides

variable {o o' : Overrides} {n m : OptionName} {s : Text} {t : Option Text}
  {flags : List (OptionName × Text)}

/-- That what is given for an option is what a text says, or nothing. -/
def Reads (o : Overrides) : OptionName → Option Text → Prop
  | .logLevel, t => o.logLevel.map .ok = t.map LogLevel.ofName?
  | .keywords, t => o.keywords = t
  | .baseLocale, t => o.baseLocale = t

theorem reads_empty (n : OptionName) : Reads {} n none := by cases n <;> rfl

theorem Reads.eq_none (h : o.Reads n t) (hnone : o.Reads n none) : t = none := by
  cases n with
  | logLevel =>
    have hmap : t.map LogLevel.ofName? = none := h.symm.trans hnone
    simpa using hmap
  | keywords | baseLocale => exact h.symm.trans hnone

/-- One more flag is read only if its option was free, and changes this option alone. -/
theorem reads_of_withOption (h : withOption o s n = some o') :
    o.Reads n none ∧ o'.Reads n (some s) ∧ ∀ m, m ≠ n → ∀ t, o.Reads m t → o'.Reads m t := by
  cases n with
  | logLevel =>
    rw [withOption] at h
    split at h
    next level hfree hlevel =>
      cases h
      refine ⟨by simp [Reads, hfree], by simp [Reads, hlevel], fun m hm t ht => ?_⟩
      cases m with
      | logLevel => exact absurd rfl hm
      | keywords | baseLocale => exact ht
    next => cases h
  | keywords =>
    obtain ⟨hfree, rfl⟩ : (o.keywords = none ∧ s ≠ []) ∧ { o with keywords := some s } = o' := by
      simpa [withOption] using h
    refine ⟨hfree.1, rfl, fun m hm t ht => ?_⟩
    cases m with
    | keywords => exact absurd rfl hm
    | logLevel | baseLocale => exact ht
  | baseLocale =>
    obtain ⟨hfree, rfl⟩ : o.baseLocale = none ∧ { o with baseLocale := some s } = o' := by
      simpa [withOption] using h
    refine ⟨hfree, rfl, fun m hm t ht => ?_⟩
    cases m with
    | baseLocale => exact absurd rfl hm
    | logLevel | keywords => exact ht

/-- A clean value can be read for an option that is free. -/
theorem exists_withOption (hclean : n.IsClean s) (hfree : o.Reads n none) :
    ∃ o', withOption o s n = some o' := by
  cases n with
  | logLevel =>
    obtain ⟨level, hlevel⟩ := hclean
    have hnone : o.logLevel = none := by simpa [Reads] using hfree
    exact ⟨_, by rw [withOption, hnone, hlevel]⟩
  | keywords =>
    have hnone : o.keywords = none := hfree
    have hne : s ≠ [] := by
      rintro rfl
      exact hclean (by simp [Text.IsBlankRun])
    exact ⟨_, by rw [withOption, if_pos (by simp [hnone, hne])]⟩
  | baseLocale =>
    have hnone : o.baseLocale = none := hfree
    exact ⟨_, by rw [withOption, if_pos (by simp [hnone])]⟩

/-- Overrides with some more flags, read from left to right. -/
def withFlags? (o : Overrides) (flags : List (OptionName × Text)) : Option Overrides :=
  flags.foldlM (fun o x => withOption o x.2 x.1) o

theorem withFlags?_cons_eq_some {x : OptionName × Text} :
    o.withFlags? (x :: flags) = some o' ↔
      ∃ p, withOption o x.2 x.1 = some p ∧ p.withFlags? flags = some o' := by
  rw [withFlags?, List.foldlM_cons]
  exact Option.bind_eq_some_iff

/-- Flags in front of a command are read so. -/
theorem request_flagItems : ∀ (flags : List (OptionName × Text)) (o : Overrides)
    (is : List Arguments.Item),
    request o (Arguments.flagItems flags ++ is) = (o.withFlags? flags).bind fun p => request p is
  | [], _, _ => rfl
  | (n, s) :: flags, o, is => by
    rw [Arguments.flagItems, List.map_cons, List.cons_append, request, withFlags?, List.foldlM_cons]
    cases withOption o s n with
    | none => rfl
    | some p => exact request_flagItems flags p is

theorem reads_of_withFlags? :
    ∀ {flags : List (OptionName × Text)} {o : Overrides} {t : Option Text},
    o.withFlags? flags = some o' → o.Reads n t → o'.Reads n (t.or (flags.lookup n))
  | [], o, t, h, ht => by
    cases h
    rwa [List.lookup_nil, Option.or_none]
  | (m, s) :: flags, o, t, h, ht => by
    obtain ⟨p, hp, hrest⟩ := withFlags?_cons_eq_some.1 h
    obtain ⟨hfree, hread, hframe⟩ := reads_of_withOption hp
    by_cases hnm : n = m
    · subst hnm
      rw [ht.eq_none hfree, List.lookup_cons_self]
      exact reads_of_withFlags? hrest hread
    · rw [List.lookup_cons, beq_false_of_ne hnm]
      exact reads_of_withFlags? hrest (hframe n hnm t ht)

/-- A choice of flags: each option once at most, with a clean value. -/
structure IsChoice (flags : List (OptionName × Text)) : Prop where
  once : (flags.map (·.1)).Nodup
  clean : ∀ x ∈ flags, x.1.IsClean x.2

theorem IsChoice.exists_withFlags? : ∀ {flags : List (OptionName × Text)} {o : Overrides},
    IsChoice flags → (∀ x ∈ flags, o.Reads x.1 none) → ∃ o', o.withFlags? flags = some o'
  | [], o, _, _ => ⟨o, rfl⟩
  | x :: flags, o, hchoice, hfree => by
    have hmem : x ∈ x :: flags := List.mem_cons_self
    obtain ⟨hx, honce⟩ : x.1 ∉ flags.map (·.1) ∧ (flags.map (·.1)).Nodup :=
      List.nodup_cons.1 hchoice.once
    obtain ⟨p, hp⟩ := exists_withOption (hchoice.clean x hmem) (hfree x hmem)
    -- the options of the other flags are still free
    have hfree' : ∀ y ∈ flags, p.Reads y.1 none := by
      intro y hy
      have hyx : y.1 ≠ x.1 := by
        intro heq
        rw [← heq] at hx
        exact hx (List.mem_map_of_mem hy)
      exact (reads_of_withOption hp).2.2 y.1 hyx none (hfree y (List.mem_cons_of_mem x hy))
    obtain ⟨o', ho'⟩ := IsChoice.exists_withFlags?
      ⟨honce, fun y hy => hchoice.clean y (List.mem_cons_of_mem x hy)⟩ hfree'
    exact ⟨o', withFlags?_cons_eq_some.2 ⟨p, hp, ho'⟩⟩

end Overrides

/-! ## What variables say -/

namespace Environment

/-- Variables of which some hold the values of flags instead of their own. -/
def withFlags (flags : List (OptionName × Text)) (value : String → Option Text) :
    String → Option Text :=
  flags.foldr (fun x value => Function.update value x.1.variableName (some x.2)) value

theorem withFlags_variableName {value : String → Option Text} (n : OptionName) :
    ∀ flags, withFlags flags value n.variableName = (flags.lookup n).or (value n.variableName)
  | [] => rfl
  | (m, s) :: flags => by
    show Function.update (withFlags flags value) m.variableName (some s) n.variableName = _
    by_cases hnm : n = m
    · subst hnm
      rw [Function.update_self, List.lookup_cons_self]
      rfl
    · rw [Function.update_of_ne (mt OptionName.variableName_inj.1 hnm), List.lookup_cons,
        beq_false_of_ne hnm]
      exact withFlags_variableName n flags

end Environment

namespace Settings

variable {s s' : Settings} {o o' : Overrides} {n : OptionName} {t v : Option Text}
  {value : String → Option Text}

/-- That the setting of an option is what the environment's checks make of a value. -/
def IsSetBy (s : Settings) : OptionName → Option Text → Prop
  | .logLevel, v => logLevelOf v = .ok s.logLevel
  | .keywords, v => keywordsOf v = s.keywords
  | .baseLocale, v => baseLocaleOf v = .ok s.baseLocale

theorem ofEnvironment_eq_ok :
    ofEnvironment (.ofLookup value) = .ok s ↔ ∀ n, s.IsSetBy n (value n.variableName) := by
  constructor
  · intro h n
    simp only [ofEnvironment, bind, Except.bind] at h
    split at h
    next => cases h
    next level hlevel =>
      split at h
      next => cases h
      next locale hlocale =>
        cases h
        cases n with
        | logLevel => exact hlevel
        | keywords => rfl
        | baseLocale => exact hlocale
  · intro h
    have hlevel : logLevelOf (value "FURROW_LOG_LEVEL") = .ok s.logLevel := h .logLevel
    have hpath : keywordsOf (value "FURROW_KEYWORDS") = s.keywords := h .keywords
    have hlocale : baseLocaleOf (value "FURROW_BASE_LOCALE") = .ok s.baseLocale := h .baseLocale
    simp only [ofEnvironment, Environment.ofLookup, hlevel, hlocale, hpath]
    rfl

theorem isSetBy_of_isClean {u : Text} (hclean : n.IsClean u) (ho : o.Reads n (some u)) :
    (s.override o).IsSetBy n (some u) := by
  cases n with
  | logLevel =>
    obtain ⟨level, hlevel⟩ := hclean
    have hgiven : o.logLevel = some level := by simpa [Overrides.Reads, hlevel] using ho
    rw [IsSetBy, override, hgiven]
    exact hlevel
  | keywords =>
    have hgiven : o.keywords = some u := ho
    have htrim : Text.trim u ≠ [] := mt Text.trim_eq_nil.1 hclean
    rw [IsSetBy, override, hgiven, keywordsOf, Option.filter_some, if_pos (by simp [htrim])]
    rfl
  | baseLocale =>
    have hgiven : o.baseLocale = some u := ho
    have htrim : Text.trim u = u := Text.trim_eq_self hclean.head hclean.last
    rw [IsSetBy, override, hgiven, baseLocaleOf, htrim, if_neg (by simp [hclean.ne_nil])]
    rfl

/-- Overrides with a clean value set what its variable would set, and leave the rest. -/
theorem isSetBy_override (hs : s.IsSetBy n v) (ho : o.Reads n t)
    (hclean : ∀ u, t = some u → n.IsClean u) : (s.override o).IsSetBy n (t.or v) := by
  cases t with
  | some u => exact isSetBy_of_isClean (hclean u rfl) ho
  | none =>
    cases n with
    | logLevel =>
      have hnone : o.logLevel = none := by simpa [Overrides.Reads] using ho
      rwa [IsSetBy, override, hnone]
    | keywords =>
      have hnone : o.keywords = none := ho
      rwa [IsSetBy, override, hnone]
    | baseLocale =>
      have hnone : o.baseLocale = none := ho
      rwa [IsSetBy, override, hnone]

theorem override_nothing (s : Settings) : s.override {} = s := by
  simp [override]

/-- That two settings are the same where an option sets them. -/
def AgreesOn (s s' : Settings) : OptionName → Prop
  | .logLevel => s.logLevel = s'.logLevel
  | .keywords => s.keywords = s'.keywords
  | .baseLocale => s.baseLocale = s'.baseLocale

theorem agreesOn_override (hs : s.IsSetBy n v) (hs' : s'.IsSetBy n v) (ho : o.Reads n t)
    (ho' : o'.Reads n t) : (s.override o).AgreesOn (s'.override o') n := by
  cases n with
  | logLevel =>
    have hlevel : s.logLevel = s'.logLevel := Except.ok.inj (hs.symm.trans hs')
    have hgiven : o.logLevel = o'.logLevel :=
      Option.map_injective (fun _ _ => Except.ok.inj) (ho.trans ho'.symm)
    simp only [AgreesOn, override, hlevel, hgiven]
  | keywords =>
    have hpath : s.keywords = s'.keywords := hs.symm.trans hs'
    have hgiven : o.keywords = o'.keywords := ho.trans ho'.symm
    simp only [AgreesOn, override, hpath, hgiven]
  | baseLocale =>
    have hlocale : s.baseLocale = s'.baseLocale := Except.ok.inj (hs.symm.trans hs')
    have hgiven : o.baseLocale = o'.baseLocale := ho.trans ho'.symm
    simp only [AgreesOn, override, hlocale, hgiven]

end Settings

/-! ## The two ways compared -/

namespace Settings

open Overrides (IsChoice)

/-- **Flags can be given as variables.**  Beside an environment that has settings, a
choice of flags in front of a command is read, and the settings overridden by them are
those of the environment in which their variables hold their values; a command then
works with the same table or fails with the same error.  And whatever else is given
here and there, two settings agree where they have the same flag, or none, and the same
variable. -/
theorem flags_as_variables {value : String → Option Text} {s : Settings}
    {flags : List (OptionName × Text)} (hs : ofEnvironment (.ofLookup value) = .ok s)
    (hflags : IsChoice flags) :
    ∃ o, Overrides.withFlags? {} flags = some o ∧
      (∀ is, request {} (Arguments.flagItems flags ++ is) = request o is) ∧
      ofEnvironment (.ofLookup (Environment.withFlags flags value)) = .ok (s.override o) ∧
      (∀ command read, Invocation.table ⟨o, command⟩ (.ofLookup value) read =
        Invocation.table ⟨{}, command⟩ (.ofLookup (Environment.withFlags flags value)) read) ∧
      ∀ value' s' flags' o', ofEnvironment (.ofLookup value') = .ok s' →
        Overrides.withFlags? {} flags' = some o' →
        ∀ n : OptionName, flags.lookup n = flags'.lookup n →
          value n.variableName = value' n.variableName →
          (s.override o).AgreesOn (s'.override o') n := by
  obtain ⟨o, ho⟩ := hflags.exists_withFlags? fun x _ => Overrides.reads_empty x.1
  have hreads (n : OptionName) : o.Reads n (flags.lookup n) :=
    Overrides.reads_of_withFlags? ho (Overrides.reads_empty n)
  have hset := ofEnvironment_eq_ok.1 hs
  have hvariables :
      ofEnvironment (.ofLookup (Environment.withFlags flags value)) = .ok (s.override o) := by
    refine ofEnvironment_eq_ok.2 fun n => ?_
    rw [Environment.withFlags_variableName]
    refine isSetBy_override (hset n) (hreads n) fun u hu => ?_
    obtain ⟨before, after, hmem, -⟩ := List.lookup_eq_some_iff.1 hu
    exact hflags.clean (n, u) (by simp [hmem])
  refine ⟨o, ho, fun is => ?_, hvariables, fun command read => ?_, ?_⟩
  · rw [Overrides.request_flagItems, ho, Option.bind_some]
  · simp only [Invocation.table, Invocation.settings, hs, hvariables, Except.map, Except.mapError,
      override_nothing]
  · intro value' s' flags' o' hs' ho' n hflag hvariable
    have hreads' : o'.Reads n (flags'.lookup n) :=
      Overrides.reads_of_withFlags? ho' (Overrides.reads_empty n)
    have hset' := ofEnvironment_eq_ok.1 hs' n
    rw [← hflag] at hreads'
    rw [← hvariable] at hset'
    exact agreesOn_override (hset n) hset' (hreads n) hreads'

/-- An environment whose own values all need cleaning, with flags for two of them; and
one without flags that has nothing but the same blank path. -/
theorem flags_as_variables_of_padded :
    let value : String → Option Text := fun name =>
      if name = "FURROW_LOG_LEVEL" then some "WARNING"
      else if name = "FURROW_KEYWORDS" then some "  "
      else some " fr "
    let blank : String → Option Text := fun name =>
      if name = "FURROW_KEYWORDS" then some "  " else none
    let flags : List (OptionName × Text) := [(.baseLocale, "de"), (.logLevel, "Trace")]
    ofEnvironment (.ofLookup value) = .ok ⟨.warn, none, "fr"⟩ ∧
      ofEnvironment (.ofLookup blank) = .ok {} ∧
      ∃ o, Overrides.withFlags? {} flags = some o ∧
        ofEnvironment (.ofLookup (Environment.withFlags flags value)) =
          .ok (override ⟨.warn, none, "fr"⟩ o) ∧
        override ⟨.warn, none, "fr"⟩ o = ⟨.trace, none, "de"⟩ ∧
        (override ⟨.warn, none, "fr"⟩ o).AgreesOn (override {} {}) .keywords := by
  intro value blank flags
  have hvalue : ofEnvironment (.ofLookup value) = .ok ⟨.warn, none, "fr"⟩ := by decide
  have hblank : ofEnvironment (.ofLookup blank) = .ok {} := by decide
  have hflags : IsChoice flags := by
    refine ⟨by decide, fun x hx => ?_⟩
    simp only [flags, List.mem_cons, List.not_mem_nil, or_false] at hx
    rcases hx with rfl | rfl
    · exact ⟨by decide, by rintro _ ⟨⟩; decide, by rintro _ ⟨⟩; decide⟩
    · exact ⟨.trace, by decide⟩
  obtain ⟨o, ho, -, hvariables, -, hagrees⟩ := flags_as_variables hvalue hflags
  have hgiven : Overrides.withFlags? {} flags = some ⟨some .trace, none, some "de"⟩ := by decide
  have hsame := hagrees blank {} [] {} hblank rfl .keywords rfl rfl
  refine ⟨hvalue, hblank, o, ho, hvariables, ?_, hsame⟩
  rw [Option.some.inj (ho.symm.trans hgiven)]
  rfl

end Settings

end Gherkin
