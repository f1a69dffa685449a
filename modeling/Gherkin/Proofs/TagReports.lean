import Gherkin.Proofs.TagAccount
import Mathlib.Algebra.BigOperators.Group.List.Basic
import Mathlib.Algebra.GroupWithZero.Nat

/-!
# No tag is lost without a report

`TagAccount` says in which ways a tag can be on no node of the features.  Each of them
shows in the reports:

> `build_tags_accounted`: there is a report for each background that replaces another
> one, for examples that stand in no outline, and for what stands in front of everything;
> the tags that no node takes are counted.

The report about examples names them and does not count the tags that they take along.

What has been reported is said of the tokens of a body so far (`Reports`).  One token
keeps it (`Reports.place`), so it holds of a whole body, and the end of the segment adds
the tags that still wait (`coversBodies_ofTokens`).
-/

namespace Gherkin

/-! ## What reports say about tags -/

namespace Event

/-- How many tags a report counts that no node takes. -/
def tagCount : Event → Nat
  | tagsWithoutFeature n => n
  | tagsWithoutNode n => n
  | _ => 0

/-- The number of tokens in front of everything that are left out. -/
def outside? : Event → Option Nat
  | tokensOutsideFeature n => some n
  | _ => none

/-- The name of a background that replaces another one. -/
def replacing? : Event → Option Text
  | replacedBackground name => some name
  | _ => none

/-- The line of examples that stand in no outline. -/
def stray? : Event → Option Nat
  | examplesOutsideOutline line => some line
  | _ => none

end Event

/-- That the features `fs` and the reports `events` account for all tags among `ts`. -/
structure AccountsForTags (ts : List Token) (fs : List Feature) (events : List Event) : Prop where
  /-- A tag is in the features, or it is lost in one of four ways. -/
  tags : (tagsOf ts).Perm (fs.flatMap Feature.allTags ++ replacedTags ts ++ strayTags ts
    ++ tagsOf (unsegmented ts) ++ unclaimedTags ts)
  /-- Each background that replaces another one is reported. -/
  replaced : events.filterMap Event.replacing? =
    (bodies ts).flatMap fun body => (backgrounds body).tail.map (·.head.text)
  /-- Examples that stand in no outline are reported. -/
  stray : events.filterMap Event.stray? =
    (bodies ts).flatMap fun body => (strayExamples body).map (·.head.line)
  /-- The tokens in front of everything are reported and counted. -/
  outside : events.filterMap Event.outside? =
    if unsegmented ts = [] then [] else [(unsegmented ts).length]
  /-- The tags that no node takes are counted. -/
  unclaimed : (events.map Event.tagCount).sum = (unclaimedTags ts).length

/-! ## One body, by what is reported -/

/-- Whether a report concerns tags. -/
def Event.concernsTags (e : Event) : Bool :=
  e.tagCount != 0 || e.outside?.isSome || e.replacing?.isSome || e.stray?.isSome

/-- What has been reported about tags behind the tokens `body` of a feature, when the
containers `closed` have joined it: nothing of what is left out in front of a feature or
at an end. -/
structure Reports (body : List Token) (closed : List OpenContainer) (log : List Event) :
    Prop where
  replaced : log.filterMap Event.replacing? =
    ((closed.filterMap Reading.background?).tail).map (·.name)
  stray : log.filterMap Event.stray? = (strayExamples body).map (·.head.line)
  inside : ∀ e ∈ log, e.tagCount = 0 ∧ e.outside? = none

namespace Assembly

variable {a : Assembly} {t : Token}

theorem attach_log (a : Assembly) (argument : StepArgument) (e : Event) :
    (a.attach argument e).log = a.log ∨ (a.attach argument e).log = a.log ++ [e] := by
  unfold attach
  split
  · exact Or.inr rfl
  · split
    · exact Or.inr rfl
    · exact Or.inl rfl

/-- A token that opens no node leads to no report about tags. -/
theorem place_log (a : Assembly) (ht : t.opensNode = false) :
    ∃ es, (a.place t).log = a.log ++ es ∧ ∀ e ∈ es, e.concernsTags = false := by
  have hnone (l : List Event) (hl : l = a.log) :
      ∃ es, l = a.log ++ es ∧ ∀ e ∈ es, e.concernsTags = false :=
    ⟨[], by rw [hl, List.append_nil], by simp⟩
  have hone (l : List Event) (e : Event) (he : e.concernsTags = false)
      (hl : l = a.log ∨ l = a.log ++ [e]) :
      ∃ es, l = a.log ++ es ∧ ∀ e ∈ es, e.concernsTags = false := by
    rcases hl with hl | hl
    · exact hnone l hl
    · exact ⟨[e], hl, by simpa using he⟩
  cases hk : t.kind with
  | feature | background | scenario | scenarioOutline | examples =>
    simp [Token.opensNode, Token.isFeature, Token.isContainer, TokenKind.isContainer,
      Token.isExamples, hk] at ht
  | tag =>
    simp only [place, hk]
    exact hnone _ rfl
  | description =>
    simp only [place, hk]
    apply hone _ (.descriptionWithoutFeature t.line) rfl
    unfold placeDescription
    split
    · exact Or.inl rfl
    · exact Or.inr rfl
  | step family =>
    simp only [place, hk]
    apply hone _ (.stepWithoutContainer t.line) rfl
    unfold placeStep
    split
    · exact Or.inr rfl
    · exact Or.inl rfl
  | row =>
    simp only [place, hk, placeRow]
    split
    · exact hone _ (.rowWithoutStep t.line) rfl (a.attach_log _ _)
    · split
      · split
        · exact hone _ (.rowWithoutExamples t.line) rfl (Or.inr rfl)
        · exact hnone _ rfl
      · exact hone _ (.rowOfDiscardedExamples t.line) rfl (Or.inr rfl)
  | block =>
    simp only [place, hk]
    exact hone _ (.blockWithoutStep t.line) rfl (a.attach_log _ _)

end Assembly

/-- The containers of a body that have joined its feature while the last one is open. -/
def Reading.closedContainers (body : List Token) : List OpenContainer :=
  (parts Token.isContainer body).dropLast.map container

open Reading

theorem strayExamples_lines_concat (body : List Token) (t : Token) :
    (strayExamples (body ++ [t])).map (·.head.line) =
      (strayExamples body).map (·.head.line)
        ++ if t.isExamples && !inOutline body then [t.line] else [] := by
  rw [List.map_eq_flatMap, List.map_eq_flatMap]
  exact strayExamples_concat (fun _ _ => rfl) body t

/-- A background that joins is reported if there is one already. -/
theorem replacing_joinEvents (h : Heading) (d : Option Text) (cs : List OpenContainer)
    (c : OpenContainer) :
    (((cs ++ [c]).filterMap background?).tail).map (·.name) =
      ((cs.filterMap background?).tail).map (·.name)
        ++ (Assembly.joinEvents (featureOf h d cs) c).filterMap Event.replacing? := by
  rw [List.filterMap_append]
  cases c with
  | background c =>
    cases hb : cs.filterMap background? with
    | nil => simp [Assembly.joinEvents, featureOf, background?, hb]
    | cons b bs => simp [Assembly.joinEvents, featureOf, background?, hb, Event.replacing?]
  | scenario _ | outline _ => simp [Assembly.joinEvents, background?, List.filterMap_cons]

theorem mem_joinEvents {f : Feature} {c : OpenContainer} {e : Event}
    (he : e ∈ Assembly.joinEvents f c) : ∃ name, e = .replacedBackground name := by
  unfold Assembly.joinEvents at he
  split at he
  · split at he
    · exact ⟨_, List.mem_singleton.1 he⟩
    · cases he
  · cases he

namespace Reports

variable {h : Heading} {body : List Token} {closed : List OpenContainer} {log : List Event}
  {a : Assembly} {t : Token}

/-- Reports that do not concern tags. -/
theorem append (hr : Reports body closed log) {es : List Event}
    (hes : ∀ e ∈ es, e.concernsTags = false) : Reports body closed (log ++ es) := by
  have hnone : ∀ e ∈ es,
      ((e.tagCount = 0 ∧ e.outside? = none) ∧ e.replacing? = none) ∧ e.stray? = none := by
    intro e he
    simpa [Event.concernsTags] using hes e he
  refine ⟨?_, ?_, ?_⟩
  · rw [List.filterMap_append, hr.replaced,
      List.filterMap_eq_nil_iff.2 fun e he => (hnone e he).1.2, List.append_nil]
  · rw [List.filterMap_append, hr.stray,
      List.filterMap_eq_nil_iff.2 fun e he => (hnone e he).2, List.append_nil]
  · intro e he
    rcases List.mem_append.1 he with he | he
    · exact hr.inside e he
    · exact (hnone e he).1.1

/-- When the open container joins, a background that it replaces is reported. -/
theorem close (hr : Reads h body a) (hreports : Reports body (closedContainers body) a.log) :
    Reports body (containers body) a.close.log := by
  have hc := hr.container
  have hf := hr.feature
  have hreplaced := hreports.replaced
  have hstray := hreports.stray
  rcases List.eq_nil_or_concat' (parts Token.isContainer body) with hp | ⟨qs, q, hp⟩
  · rw [closedContainers, hp] at hreplaced
    rw [hp] at hc
    have hclose : a.close = a := by
      unfold Assembly.close
      rw [hc]
      rfl
    rw [hclose]
    exact ⟨by rw [hreplaced, containers, hp]; rfl, hstray, hreports.inside⟩
  · rw [closedContainers, hp, List.dropLast_concat] at hreplaced
    rw [hp, List.getLast?_concat, Option.map_some] at hc
    rw [hp, List.dropLast_concat] at hf
    have hclose : a.close.log = a.log ++ Assembly.joinEvents
        (featureOf h (description body) (qs.map Reading.container)) (Reading.container q) := by
      unfold Assembly.close
      rw [hc, hf]
    rw [hclose]
    refine ⟨?_, ?_, ?_⟩
    · rw [List.filterMap_append, hreplaced, containers, hp, List.map_append, List.map_singleton]
      exact (replacing_joinEvents h _ _ _).symm
    · have hnone : ∀ e ∈ Assembly.joinEvents (featureOf h (description body)
          (qs.map Reading.container)) (Reading.container q), e.stray? = none := by
        intro e he
        obtain ⟨name, rfl⟩ := mem_joinEvents he
        rfl
      rw [List.filterMap_append, hstray, List.filterMap_eq_nil_iff.2 hnone, List.append_nil]
    · intro e he
      rcases List.mem_append.1 he with he | he
      · exact hreports.inside e he
      · obtain ⟨name, rfl⟩ := mem_joinEvents he
        exact ⟨rfl, rfl⟩

/-- Examples are reported if the open container is no outline. -/
theorem examples (hr : Reads h body a) (hreports : Reports body (closedContainers body) a.log)
    (he : t.isExamples = true) :
    Reports (body ++ [t]) (closedContainers body) (a.place t).log := by
  have hk : t.kind = .examples := by simpa [Token.isExamples] using he
  have hplace : a.place t = a.placeExamples t := by simp [Assembly.place, hk]
  have hlog : (a.placeExamples t).log =
      a.log ++ if inOutline body then [] else [.examplesOutsideOutline t.line] := by
    have hc := hr.container
    rw [inOutline_eq]
    unfold Assembly.placeExamples
    cases hq : (parts Token.isContainer body).getLast? with
    | none =>
      rw [hq] at hc
      simp [hc, Assembly.report]
    | some q =>
      rw [hq, Option.map_some] at hc
      cases hkind : q.head.kind <;> simp [hc, Reading.container, hkind, Assembly.report]
  rw [hplace, hlog]
  refine ⟨?_, ?_, ?_⟩
  · rw [List.filterMap_append, hreports.replaced]
    cases inOutline body <;> simp [Event.replacing?]
  · rw [List.filterMap_append, hreports.stray, strayExamples_lines_concat, he]
    cases inOutline body <;> simp [Event.stray?]
  · intro e hmem
    rcases List.mem_append.1 hmem with hmem | hmem
    · exact hreports.inside e hmem
    · cases ho : inOutline body <;> simp_all [Event.tagCount, Event.outside?]

/-- **One token.** -/
theorem place (hr : Reads h body a) (hreports : Reports body (closedContainers body) a.log)
    (hf : t.isFeature = false) :
    Reports (body ++ [t]) (closedContainers (body ++ [t])) (a.place t).log := by
  cases hc : t.isContainer with
  | true =>
    have he : t.isExamples = false := by
      cases hk : t.kind <;>
        simp_all [Token.isContainer, TokenKind.isContainer, Token.isExamples]
    have hplace : (a.place t).log = a.close.log := by
      cases hk : t.kind <;>
        simp_all [Token.isContainer, TokenKind.isContainer, Assembly.place, Assembly.enter]
    have hclosed : closedContainers (body ++ [t]) = containers body := by
      rw [closedContainers, parts_concat_of_pos hc, List.dropLast_concat, containers]
    rw [hplace, hclosed]
    have hclose := hreports.close hr
    refine ⟨hclose.replaced, ?_, hclose.inside⟩
    rw [hclose.stray, strayExamples_lines_concat, he]
    simp
  | false =>
    have hclosed : closedContainers (body ++ [t]) = closedContainers body := by
      rw [closedContainers, parts_concat_of_neg hc, dropLast_modifyLast, closedContainers]
    rw [hclosed]
    cases he : t.isExamples with
    | true => exact hreports.examples hr he
    | false =>
      obtain ⟨es, hlog, hes⟩ := a.place_log (t := t) (by simp [Token.opensNode, hf, hc, he])
      rw [hlog]
      have happend := hreports.append hes
      refine ⟨happend.replaced, ?_, happend.inside⟩
      rw [happend.stray, strayExamples_lines_concat, he]
      simp

/-- **A body.** -/
theorem foldl (h : Heading) (hbody : ∀ t ∈ body, t.isFeature = false) :
    Reports body (closedContainers body)
      (body.foldl Assembly.place { feature := some ⟨h, none, none, []⟩ }).log := by
  induction body using List.reverseRecOn with
  | nil => exact ⟨rfl, rfl, by simp⟩
  | append_singleton body t ih =>
    have hfront : ∀ u ∈ body, u.isFeature = false := fun u hu =>
      hbody u (List.mem_append_left _ hu)
    rw [List.foldl_append]
    exact (ih hfront).place ((Reads.start h []).foldl hfront) (hbody t (by simp))

end Reports

/-- That a log covers the tags that the bodies of some features lose. -/
structure CoversBodies (bodies : List (List Token)) (log : List Event) : Prop where
  replaced : log.filterMap Event.replacing? =
    bodies.flatMap fun body => (backgrounds body).tail.map (·.head.text)
  stray : log.filterMap Event.stray? =
    bodies.flatMap fun body => (strayExamples body).map (·.head.line)
  outside : log.filterMap Event.outside? = []
  unclaimed : (log.map Event.tagCount).sum = (bodies.flatMap Reading.waitingTags).length

theorem CoversBodies.append {bs cs : List (List Token)} {log more : List Event}
    (hb : CoversBodies bs log) (hc : CoversBodies cs more) :
    CoversBodies (bs ++ cs) (log ++ more) where
  replaced := by rw [List.filterMap_append, hb.replaced, hc.replaced, List.flatMap_append]
  stray := by rw [List.filterMap_append, hb.stray, hc.stray, List.flatMap_append]
  outside := by rw [List.filterMap_append, hb.outside, hc.outside, List.append_nil]
  unclaimed := by
    rw [List.map_append, List.sum_append, hb.unclaimed, hc.unclaimed, List.flatMap_append,
      List.length_append]

/-- At the end of a segment the tags that still wait are counted. -/
theorem coversBodies_ofTokens {ts : List Token} {q : Part Token}
    (hq : q ∈ parts Token.isFeature ts) :
    CoversBodies [dropTrailing Token.isTag q.slice] (Assembly.ofTokens (segmentOf q)).log := by
  have hbody := isFeature_of_mem_body hq
  generalize hb : dropTrailing Token.isTag q.slice = body at hbody
  have hreads := (Reads.start (featureHeading q) []).foldl hbody
  have hclose := (Reports.foldl (featureHeading q) hbody).close hreads
  rw [ofTokens_eq (head_of_mem_parts hq), hb]
  generalize body.foldl Assembly.place _ = a at hreads hclose
  have htags : a.close.tags = waitingTags body := by rw [a.close_tags, hreads.tags]
  have hlog : a.complete.log = a.close.log ++
      if waitingTags body = [] then [] else [.tagsWithoutNode (waitingTags body).length] := by
    rw [Assembly.complete, htags]
    by_cases hwait : waitingTags body = []
    · simp [hwait]
    · simp [hwait, Assembly.report]
  have hnone : (a.close.log.map Event.tagCount).sum = 0 := by
    apply List.sum_eq_zero
    intro n hn
    obtain ⟨e, he, rfl⟩ := List.mem_map.1 hn
    exact (hclose.inside e he).1
  have houtside : a.close.log.filterMap Event.outside? = [] :=
    List.filterMap_eq_nil_iff.2 fun e he => (hclose.inside e he).2
  rw [hlog]
  refine ⟨?_, ?_, ?_, ?_⟩
  · rw [List.flatMap_singleton, List.filterMap_append, hclose.replaced, containers_background?,
      ← List.map_tail, List.map_map]
    split <;> exact List.append_nil _
  · rw [List.flatMap_singleton, List.filterMap_append, hclose.stray]
    split <;> simp [Event.stray?]
  · rw [List.filterMap_append, houtside]
    split <;> simp [Event.outside?]
  · rw [List.flatMap_singleton, List.map_append, List.sum_append, hnone]
    split <;> simp_all [Event.tagCount]

/-! ## All tokens -/

/-- The reports of all segments cover what the bodies lose. -/
theorem coversBodies_segments (ts : List Token) :
    CoversBodies (bodies ts)
      ((segments ts).flatMap fun segment => (Assembly.ofTokens segment).log) := by
  have hall (qs : List (Part Token)) (hqs : ∀ q ∈ qs, q ∈ parts Token.isFeature ts) :
      CoversBodies (qs.map fun q => dropTrailing Token.isTag q.slice)
        (qs.flatMap fun q => (Assembly.ofTokens (segmentOf q)).log) := by
    induction qs with
    | nil => exact ⟨rfl, rfl, rfl, rfl⟩
    | cons q qs ih =>
      have hfirst := coversBodies_ofTokens (hqs q (by simp))
      exact hfirst.append (ih fun r hr => hqs r (List.mem_cons_of_mem _ hr))
  rw [bodies, segments_eq, List.flatMap_map]
  exact hall _ fun q hq => hq

/-- What is reported about the segments: the tokens in front of them, and the tags behind
them. -/
theorem segmentEvents_tags (ts : List Token) :
    (segmentEvents ts).filterMap Event.replacing? = [] ∧
      (segmentEvents ts).filterMap Event.stray? = [] ∧
      (segmentEvents ts).filterMap Event.outside? =
        (if unsegmented ts = [] then [] else [(unsegmented ts).length]) ∧
      ((segmentEvents ts).map Event.tagCount).sum = (segmentation ts).2.length := by
  rw [segmentEvents]
  by_cases hout : unsegmented ts = [] <;> by_cases hrest : (segmentation ts).2 = [] <;>
    simp [hout, hrest, Event.replacing?, Event.stray?, Event.outside?, Event.tagCount]

/-- What is reported about the segments comes before what is reported in them. -/
theorem filterMap_buildEvents {β : Type} (ts : List Token) {g : Event → Option β}
    (hspan : ∀ n, g (.buildSpan n) = none) :
    (buildEvents ts).filterMap g = (segmentEvents ts).filterMap g
      ++ ((segments ts).flatMap fun segment => (Assembly.ofTokens segment).log).filterMap g := by
  rw [buildEvents, List.cons_append, List.filterMap_cons_none (hspan _), List.filterMap_append]

/-- **No tag is lost without a report.** -/
theorem build_tags_accounted (ts : List Token) :
    AccountsForTags ts (build ts) (buildEvents ts) ∧
      ts.countP Token.isTag = ((build ts).flatMap Feature.allTags).length
        + (replacedTags ts).length + (strayTags ts).length
        + (unsegmented ts).countP Token.isTag + ((buildEvents ts).map Event.tagCount).sum := by
  have hbodies := coversBodies_segments ts
  obtain ⟨hreplacing, hstray, houtside, hcount⟩ := segmentEvents_tags ts
  have hunclaimed : ((buildEvents ts).map Event.tagCount).sum = (unclaimedTags ts).length := by
    have hlength : (segmentation ts).2.length = (tagsOf (ts.rtakeWhile Token.isTag)).length := by
      rw [segmentation_remaining, ← takeTrailing_eq_rtakeWhile,
        tagsOf_of_forall fun t ht => of_mem_takeTrailing ht, List.length_map]
    rw [buildEvents, List.cons_append, List.map_cons, List.sum_cons, List.map_append,
      List.sum_append, hcount, hbodies.unclaimed, unclaimedTags, List.length_append, hlength]
    simp only [Event.tagCount]
    omega
  refine ⟨⟨tagsOf_perm ts, ?_, ?_, ?_, hunclaimed⟩, ?_⟩
  · rw [filterMap_buildEvents ts fun _ => rfl, hreplacing, hbodies.replaced, List.nil_append]
  · rw [filterMap_buildEvents ts fun _ => rfl, hstray, hbodies.stray, List.nil_append]
  · rw [filterMap_buildEvents ts fun _ => rfl, houtside, hbodies.outside, List.append_nil]
  · have hlength := (tagsOf_perm ts).length_eq
    have hfilter (us : List Token) : us.countP Token.isTag = (tagsOf us).length := by
      rw [tagsOf, List.length_map, List.countP_eq_length_filter]
    rw [hfilter, hfilter, hunclaimed, hlength]
    simp only [List.length_append]

/-- Without the tags of stray examples the numbers do not agree. -/
theorem build_tags_of_stray_examples :
    let ts : List Token := [⟨.feature, "Feature", "A", 0⟩, ⟨.scenario, "Scenario", "S", 1⟩,
      ⟨.tag, "@", "x", 2⟩, ⟨.examples, "Examples", [], 3⟩]
    ts.countP Token.isTag ≠ ((build ts).flatMap Feature.allTags).length
        + (replacedTags ts).length + (unsegmented ts).countP Token.isTag
        + ((buildEvents ts).map Event.tagCount).sum ∧
      buildEvents ts = [.buildSpan 4, .examplesOutsideOutline 3] := by
  decide

end Gherkin
