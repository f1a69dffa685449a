import Gherkin.Proofs.Assembling
import Gherkin.Proofs.TokenOrder
import Gherkin.Dialect.Standard
import Mathlib.Data.List.Perm.Basic

/-!
# Nothing is lost in silence

Reading is lenient, but every time something is left out that is reported.

> `parseText_lossless`: where no report says so, what the tokens of a document say
> and what its features say is the same, each thing as often.

An `Item` is one thing that is said, wherever it ends up.  A token that an assembly
takes without a report is one item more in it (`Assembly.place_takes`): this is the
law of one step, and a run keeps it.  A feature or a description would replace an
earlier one and say nothing, but a segment has one feature only, and in the tokens
of a document a description stands directly behind its feature.
-/

namespace Gherkin

/-! ## Reports -/

/-- How a report begins that says that something is left out. -/
def lossWords : List String := ["ignoring", "dropping", "replacing"]

/-- Whether a report says that something is left out. -/
def EventRecord.isLoss : EventRecord → Bool
  | span _ _ => false
  | message _ text _ => lossWords.any fun word => word.toList.isPrefixOf text.toList

/-- That no report says so. -/
def Silent (events : List Event) : Prop := ∀ e ∈ events, e.record.isLoss = false

theorem silent_append {l m : List Event} : Silent (l ++ m) ↔ Silent l ∧ Silent m :=
  List.forall_mem_append

theorem not_silent_of_mem {l : List Event} {e : Event} (he : e.record.isLoss = true)
    (hmem : e ∈ l) : ¬ Silent l := by
  intro h
  rw [h e hmem] at he
  cases he

/-! ## Items -/

/-- One thing that is said in a document. -/
inductive Item where
  | node (kind : TokenKind) (keyword name : Text)
  | tag (name : Text)
  | description (text : Text)
  | block (text : Text)
  | row (cells : Row)
deriving DecidableEq, Repr

/-- What a token says. -/
def Token.item (t : Token) : Item :=
  match t.kind with
  | .tag => .tag t.text
  | .description => .description t.text
  | .block => .block t.text
  | .row => .row (Line.cells t.text)
  | kind => .node kind t.keyword t.text

/-- What a tag says. -/
def Tag.item (t : Tag) : Item := .tag t.name

/-- What the heading of a node says, which a token of the given kind opens. -/
def Heading.items (kind : TokenKind) (h : Heading) : List Item :=
  .node kind h.keyword h.name :: h.tags.map Tag.item

def StepArgument.item : StepArgument → Item
  | block text => .block text
  | row cells => .row cells

def Step.items (s : Step) : List Item :=
  .node (.step s.family) s.keyword s.name :: s.arguments.map StepArgument.item

def Examples.items (e : Examples) : List Item := e.toHeading.items .examples ++ e.rows.map .row

def Container.items (kind : TokenKind) (c : Container) : List Item :=
  c.toHeading.items kind ++ c.steps.flatMap Step.items

def Outline.items (o : Outline) : List Item :=
  o.toContainer.items .scenarioOutline ++ o.examples.flatMap Examples.items

def ScenarioItem.items : ScenarioItem → List Item
  | scenario c => c.items .scenario
  | outline o => o.items

/-- All that a feature says. -/
def Feature.items (f : Feature) : List Item :=
  f.toHeading.items .feature ++ f.description.toList.map .description
    ++ f.background.toList.flatMap (Container.items .background)
    ++ f.scenarios.flatMap ScenarioItem.items

def OpenContainer.items : OpenContainer → List Item
  | background c => c.items .background
  | scenario c => c.items .scenario
  | outline o => o.items

/-- All that an assembly has kept: what the feature and the open container say, and
the tags that wait. -/
def Assembly.items (a : Assembly) : List Item :=
  a.feature.toList.flatMap Feature.items ++ a.container.toList.flatMap OpenContainer.items
    ++ a.tags.map Tag.item

/-! ## One token -/

namespace OpenContainer

/-- What the steps of a container gain, the container gains. -/
theorem items_withSteps {c : OpenContainer} {steps : List Step} {i : Item}
    (h : steps.flatMap Step.items = c.steps.flatMap Step.items ++ [i]) :
    (c.withSteps steps).items.Perm (i :: c.items) := by
  apply List.perm_iff_count.2
  intro x
  cases c <;>
    simp only [withSteps, items, Container.items, Outline.items, OpenContainer.steps] at h ⊢ <;>
    simp only [h, List.count_append, List.count_cons, List.count_nil] <;> omega

end OpenContainer

namespace Assembly

variable {a a' : Assembly} {t : Token}

/-- That `a'` holds one item more than `a`, which has reported no loss. -/
structure Takes (a a' : Assembly) (i : Item) : Prop where
  silent : Silent a.log
  items : a'.items.Perm (i :: a.items)

/-- What more there is beside the items of `a'`, seen from `a`. -/
theorem Takes.perm_cons {i : Item} (h : a.Takes a' i) {l is : List Item}
    (hl : l.Perm (is ++ a'.items)) : l.Perm (i :: is ++ a.items) :=
  hl.trans ((h.items.append_left is).trans List.perm_middle)

/-- What the open container gains, the assembly gains. -/
theorem takes_of_container {c c' : OpenContainer} {i : Item} (hc : a.container = some c)
    (hc' : a'.container = some c') (hf : a'.feature = a.feature) (ht : a'.tags = a.tags)
    (hlog : a'.log = a.log) (hsilent : Silent a'.log) (h : c'.items.Perm (i :: c.items)) :
    a.Takes a' i := by
  refine ⟨hlog ▸ hsilent, List.perm_iff_count.2 fun x => ?_⟩
  have hx := h.count_eq x
  simp only [items, hc, hc', hf, ht, Option.toList_some, List.flatMap_singleton,
    List.count_append, List.count_cons] at hx ⊢
  omega

theorem not_silent_report {e : Event} (he : e.record.isLoss = true) :
    ¬ Silent (a.report e).log :=
  not_silent_of_mem he (by simp [report])

theorem attach_takes {argument : StepArgument} {e : Event} (he : e.record.isLoss = true)
    (h : Silent (a.attach argument e).log) : a.Takes (a.attach argument e) argument.item := by
  unfold attach at h ⊢
  split at h
  · exact absurd h (not_silent_report he)
  next c hc =>
    split at h
    · exact absurd h (not_silent_report he)
    next hsteps =>
      rw [if_neg hsteps]
      refine takes_of_container hc rfl rfl rfl rfl h ?_
      apply OpenContainer.items_withSteps
      have hadd (s : Step) : Step.items { s with arguments := s.arguments ++ [argument] } =
          s.items ++ [argument.item] := by simp [Step.items]
      rw [flatMap_modifyLast hadd, if_neg (mt List.isEmpty_iff.2 hsteps)]

theorem placeStep_takes {family : StepFamily} (h : Silent (a.placeStep t family).log) :
    a.Takes (a.placeStep t family) (.node (.step family) t.keyword t.text) := by
  unfold placeStep at h ⊢
  split at h
  · exact absurd h (not_silent_report rfl)
  next c hc =>
    refine takes_of_container hc rfl rfl rfl rfl h ?_
    apply OpenContainer.items_withSteps
    simp [Step.items]

theorem placeRow_takes (h : Silent (a.placeRow t).log) :
    a.Takes (a.placeRow t) (.row (Line.cells t.text)) := by
  unfold placeRow at h ⊢
  split at h
  · show a.Takes _ (StepArgument.row (Line.cells t.text)).item
    exact attach_takes rfl h
  · split at h
    next o hc =>
      split at h
      · exact absurd h (not_silent_report rfl)
      next hexamples =>
        rw [if_neg hexamples]
        refine takes_of_container hc rfl rfl rfl rfl h ?_
        have hadd (e : Examples) : Examples.items { e with rows := e.rows ++ [Line.cells t.text] } =
            e.items ++ [.row (Line.cells t.text)] := by simp [Examples.items]
        simp only [OpenContainer.items, Outline.items]
        rw [flatMap_modifyLast hadd, if_neg (mt List.isEmpty_iff.2 hexamples),
          ← List.append_assoc]
        exact List.perm_append_singleton _ _
    · exact absurd h (not_silent_report rfl)

/-- Examples take the tags along that wait. -/
theorem placeExamples_takes (h : Silent (a.placeExamples t).log) :
    a.Takes (a.placeExamples t) (.node .examples t.keyword t.text) := by
  unfold placeExamples at h ⊢
  split at h
  next o hc =>
    refine ⟨h, List.perm_iff_count.2 fun x => ?_⟩
    simp only [items, hc, Option.toList_some, List.flatMap_singleton, OpenContainer.items,
      Outline.items, List.flatMap_append, Examples.items, Heading.items, heading,
      List.count_append, List.count_cons, List.map_nil, List.count_nil]
    omega
  · exact absurd h (not_silent_report rfl)

theorem placeDescription_takes (h : Silent (a.placeDescription t).log)
    (hd : ∀ f, a.feature = some f → f.description = none) :
    a.Takes (a.placeDescription t) (.description t.text) := by
  unfold placeDescription at h ⊢
  split at h
  next f hf =>
    refine ⟨h, List.perm_iff_count.2 fun x => ?_⟩
    simp only [items, hf, hd f hf, Option.toList_some, Option.toList_none, List.map_nil,
      List.map_cons, List.flatMap_singleton, Feature.items, List.count_append, List.count_cons,
      List.count_nil]
    omega
  · exact absurd h (not_silent_report rfl)

/-- The open container joins the feature with all that it has. -/
theorem close_items (h : Silent a.close.log) :
    Silent a.log ∧ a.close.items.Perm a.items ∧ a.close.container = none := by
  unfold close at h ⊢
  split at h
  next hc => exact ⟨h, List.Perm.refl _, hc⟩
  next c hc =>
    split at h
    · exact absurd h (not_silent_report rfl)
    next f hf =>
      obtain ⟨hlog, hjoin⟩ := silent_append.1 h
      refine ⟨hlog, List.perm_iff_count.2 fun x => ?_, rfl⟩
      cases c with
      | background c =>
        -- a background that is there already would be replaced, and that is reported
        have hb : f.background = none := by
          cases hb : f.background with
          | none => rfl
          | some b =>
            simp only [joinEvents, hb, Option.isSome_some, if_true] at hjoin
            exact absurd hjoin (not_silent_of_mem rfl List.mem_cons_self)
        simp only [items, hf, hc, hb, join, Option.toList_some, Option.toList_none,
          List.flatMap_nil, List.flatMap_singleton, Feature.items, OpenContainer.items,
          List.count_append, List.count_nil]
        omega
      | scenario _ | outline _ =>
        simp only [items, hf, hc, join, Option.toList_some, Option.toList_none,
          List.flatMap_nil, List.flatMap_singleton, List.flatMap_append, Feature.items,
          OpenContainer.items, ScenarioItem.items, List.count_append, List.count_nil]
        omega

/-- A container that opens takes the tags along that wait. -/
theorem enter_takes {c : OpenContainer} {i : Item} (h : Silent (a.enter c).log)
    (hc : c.items = i :: a.tags.map Tag.item) : a.Takes (a.enter c) i := by
  obtain ⟨hlog, hitems, hnone⟩ := close_items (a := a) h
  refine ⟨hlog, List.perm_iff_count.2 fun x => ?_⟩
  have hx := hitems.count_eq x
  simp only [items, enter, hc, hnone, close_tags, Option.toList_some, Option.toList_none,
    List.flatMap_nil, List.flatMap_singleton, List.map_nil, List.count_append, List.count_cons,
    List.count_nil] at hx ⊢
  omega

/-- **One token.**  Where an assembly takes a token and reports no loss, it keeps
what the token says and all that it had. -/
theorem place_takes (h : Silent (a.place t).log) (hf : t.isFeature = false)
    (hd : t.kind = .description → ∀ f, a.feature = some f → f.description = none) :
    a.Takes (a.place t) t.item := by
  cases hk : t.kind with
  | feature => simp [Token.isFeature, hk] at hf
  | tag =>
    simp only [place, Token.item, hk] at h ⊢
    refine ⟨h, ?_⟩
    simp only [items, List.map_append, ← List.append_assoc]
    exact List.perm_append_singleton _ _
  | description =>
    simp only [place, Token.item, hk] at h ⊢
    exact placeDescription_takes h (hd hk)
  | background | scenario | scenarioOutline =>
    simp only [place, Token.item, hk] at h ⊢
    apply enter_takes h
    simp [OpenContainer.items, Container.items, Outline.items, Heading.items, heading]
  | examples =>
    simp only [place, Token.item, hk] at h ⊢
    exact placeExamples_takes h
  | step family =>
    simp only [place, Token.item, hk] at h ⊢
    exact placeStep_takes h
  | row =>
    simp only [place, Token.item, hk] at h ⊢
    exact placeRow_takes h
  | block =>
    simp only [place, Token.item, hk] at h ⊢
    exact attach_takes rfl h

/-! ## A segment -/

/-- **A run of tokens**, none of which could replace an earlier one. -/
theorem foldl_takes {ts : List Token} (h : Silent (ts.foldl place a).log)
    (hts : ∀ t ∈ ts, t.isFeature = false ∧ t.kind ≠ .description) :
    Silent a.log ∧ (ts.foldl place a).items.Perm (ts.map Token.item ++ a.items) := by
  induction ts generalizing a with
  | nil => exact ⟨h, List.Perm.refl _⟩
  | cons t ts ih =>
    obtain ⟨hplace, hrun⟩ := ih h fun u hu => hts u (List.mem_cons_of_mem _ hu)
    obtain ⟨hf, hd⟩ := hts t List.mem_cons_self
    have hstep := place_takes hplace hf fun hk => absurd hk hd
    exact ⟨hstep.silent, hstep.perm_cons hrun⟩

/-- The tokens behind a feature token: only the first one can be a description. -/
theorem foldl_body_takes {body : List Token} (h : Silent (body.foldl place a).log)
    (hf : ∀ t ∈ body, t.isFeature = false)
    (hd : ∀ before t after, body = before ++ t :: after → t.kind = .description → before = [])
    (hnone : ∀ f, a.feature = some f → f.description = none) :
    (body.foldl place a).items.Perm (body.map Token.item ++ a.items) := by
  cases body with
  | nil => exact List.Perm.refl _
  | cons t body =>
    have hbody : ∀ u ∈ body, u.isFeature = false ∧ u.kind ≠ .description := by
      intro u hu
      refine ⟨hf u (List.mem_cons_of_mem _ hu), fun hk => ?_⟩
      obtain ⟨before, after, rfl⟩ := List.append_of_mem hu
      exact List.cons_ne_nil t before (hd (t :: before) u after rfl hk)
    rw [List.foldl_cons] at h ⊢
    obtain ⟨hplace, hrun⟩ := foldl_takes h hbody
    exact (place_takes hplace (hf t List.mem_cons_self) fun _ => hnone).perm_cons hrun

/-- At the end nothing is open and nothing waits any more. -/
theorem complete_items (h : Silent a.complete.log) :
    Silent a.log ∧ (a.complete.feature.toList.flatMap Feature.items).Perm a.items := by
  unfold complete at h ⊢
  dsimp only at h ⊢
  split at h
  next htags =>
    rw [if_pos htags]
    obtain ⟨hlog, hitems, hnone⟩ := close_items h
    refine ⟨hlog, List.Perm.trans ?_ hitems⟩
    simp [items, hnone, List.isEmpty_iff.1 htags]
  · exact absurd h (not_silent_report rfl)

end Assembly

/-- In the tokens of a document a description is the first token behind its feature. -/
theorem InOrder.eq_nil_of_description {ts : List Token} (h : InOrder ts) {q : Part Token}
    (hq : q ∈ parts Token.isFeature ts) {before after : List Token} {t : Token}
    (hslice : q.slice = before ++ t :: after) (ht : t.kind = .description) : before = [] := by
  rcases List.eq_nil_or_concat' before with rfl | ⟨before, u, rfl⟩
  · rfl
  · obtain ⟨rest, hts⟩ := exists_append_of_mem_parts hq
    have hu : u.isFeature = false := of_mem_slice hq u (by simp [hslice])
    have hfollow := h (q.before ++ q.head :: (before ++ [u])) t (after ++ rest)
      (by rw [hts, hslice]; simp)
    have hlast := hfollow.description ht
    rw [← List.cons_append, ← List.append_assoc, List.getLast?_concat, Option.any_some, hu] at hlast
    cases hlast

/-- A feature token and the tags before it say what the heading of the feature does. -/
theorem heading_items {q : Part Token} (hq : q.head.isFeature = true) :
    ((Reading.featureHeading q).items .feature).Perm
      ((takeTrailing Token.isTag q.before ++ [q.head]).map Token.item) := by
  have hk := Token.kind_of_isFeature hq
  have hhead : q.head.item = .node .feature q.head.keyword q.head.text := by
    simp [Token.item, hk]
  have htags : (takeTrailing Token.isTag q.before).map Token.item =
      (Reading.featureHeading q).tags.map Tag.item := by
    rw [Reading.featureHeading, List.map_map]
    apply List.map_congr_left
    intro t ht
    have hkt := Token.kind_of_isTag (of_mem_takeTrailing ht)
    simp [Token.item, hkt, Tag.item]
  rw [List.map_append, htags, List.map_singleton, hhead, Heading.items]
  exact (List.perm_append_singleton _ _).symm

/-- A segment that gives no report of a loss keeps what its tokens say. -/
theorem ofTokens_items {ts : List Token} (horder : InOrder ts) {q : Part Token}
    (hq : q ∈ parts Token.isFeature ts)
    (h : Silent (Assembly.ofTokens (segmentOf q)).log) :
    ((Assembly.ofTokens (segmentOf q)).feature.toList.flatMap Feature.items).Perm
      ((segmentOf q).map Token.item) := by
  have hf := head_of_mem_parts hq
  have hcut := dropTrailing_append_takeTrailing Token.isTag q.slice
  rw [ofTokens_eq hf] at h ⊢
  obtain ⟨hrun, hcomplete⟩ := Assembly.complete_items h
  have hbody := Assembly.foldl_body_takes hrun
    (fun t ht => of_mem_slice hq t (hcut ▸ List.mem_append_left _ ht))
    (fun before t after heq ht => horder.eq_nil_of_description hq
      (by rw [← hcut, heq, List.append_assoc, List.cons_append]) ht)
    (fun f hf => by cases hf; rfl)
  have hstart : ({ feature := some ⟨Reading.featureHeading q, none, none, []⟩ } : Assembly).items =
      (Reading.featureHeading q).items .feature := by
    simp [Assembly.items, Feature.items]
  rw [hstart] at hbody
  rw [segmentOf, List.append_cons, List.map_append]
  exact (hcomplete.trans hbody).trans
    (((heading_items hf).append_left _).trans List.perm_append_comm)

/-! ## All segments -/

/-- Where nothing is reported, the segments are all tokens. -/
theorem flatten_segments_of_silent {ts : List Token} (h : Silent (segmentEvents ts)) :
    (segments ts).flatten = ts := by
  rw [segmentEvents] at h
  obtain ⟨hfront, hback⟩ := silent_append.1 h
  have hunsegmented : unsegmented ts = [] := by
    rw [← List.isEmpty_iff]
    by_contra hne
    rw [if_neg hne] at hfront
    exact not_silent_of_mem rfl List.mem_cons_self hfront
  have hremaining : (segmentation ts).2 = [] := by
    rw [← List.isEmpty_iff]
    by_contra hne
    rw [if_neg hne] at hback
    exact not_silent_of_mem rfl List.mem_cons_self hback
  have hall := segments_flatten ts
  rwa [hunsegmented, hremaining, List.nil_append, List.append_nil] at hall

/-- Building the features of tokens in order loses nothing that it does not report. -/
theorem build_items {ts : List Token} (horder : InOrder ts) (h : Silent (buildEvents ts)) :
    ((build ts).flatMap Feature.items).Perm (ts.map Token.item) := by
  rw [buildEvents] at h
  obtain ⟨hcut, hsegments⟩ := silent_append.1 h
  have hall := flatten_segments_of_silent fun e he => hcut e (List.mem_cons_of_mem _ he)
  have hfeatures : (build ts).flatMap Feature.items =
      (segments ts).flatMap fun segment =>
        (Assembly.ofTokens segment).feature.toList.flatMap Feature.items := by
    rw [build, List.filterMap_eq_flatMap_toList, List.flatMap_assoc]
  have htokens : ts.map Token.item =
      (segments ts).flatMap fun segment => segment.map Token.item := by
    rw [List.flatMap_def, ← List.map_flatten, hall]
  rw [hfeatures, htokens]
  apply List.Perm.flatMap_left
  intro segment hsegment
  have hlog : Silent (Assembly.ofTokens segment).log := fun e he =>
    hsegments e (List.mem_flatMap.2 ⟨segment, hsegment, he⟩)
  rw [segments_eq] at hsegment
  obtain ⟨q, hq, rfl⟩ := List.mem_map.1 hsegment
  exact ofTokens_items horder hq hlog

namespace DialectTable

/-- **Silence means that nothing is lost.**  Where reading a document gives features
and reports nothing as ignored, dropped or replaced, these features say what the
tokens say: all of it, and each thing as often. -/
theorem parseText_lossless {t : DialectTable} {source : Text} {fs : List Feature}
    (hfs : t.parseText source = .ok fs)
    (hsilent : Silent (t.parseEvents (Text.lines source))) :
    ∃ ts, t.tokenizeText source = .ok ts ∧
      (fs.flatMap Feature.items).Perm (ts.map Token.item) := by
  cases hd : t.dialectOf (Text.lines source) with
  | error e =>
    rw [parseText, parse, tokenize_eq, hd] at hfs
    cases hfs
  | ok d =>
    have hts : t.tokenize (Text.lines source) =
        .ok (foundTokens (Line.scan d (Text.lines source))) := tokenize_of_dialectOf hd
    rw [parseText, parse, hts] at hfs
    obtain rfl := Except.ok.inj hfs
    rw [parseEvents, hts] at hsilent
    exact ⟨_, hts, build_items (Line.inOrder_scan d _) (silent_append.1 hsilent).2⟩

/-- Tags, a description, a row and a text block below steps, and examples. -/
theorem parseText_lossless_of_outline :
    let source : Text :=
      "@x\nFeature: A\ntold\nScenario Outline: S\nGiven a\n| 1 |\nThen b\n'''c'''\n@y\nExamples:\n| 2 |"
    ∃ fs, standard.parseText source = .ok fs ∧
      Silent (standard.parseEvents (Text.lines source)) ∧
      ∃ ts, standard.tokenizeText source = .ok ts ∧
        (fs.flatMap Feature.items).Perm (ts.map Token.item) := by
  intro source
  let fs : List Feature :=
    [{ keyword := "Feature", name := "A", tags := [⟨"x"⟩], description := some "told"
       background := none
       scenarios := [.outline
        { keyword := "Scenario Outline", name := "S", tags := []
          steps := [⟨"Given", "a", .givenStep, .givenStep, [.row ["1"]]⟩,
            ⟨"Then", "b", .thenStep, .thenStep, [.block "c"]⟩]
          examples := [{ keyword := "Examples", name := [], tags := [⟨"y"⟩]
                         rows := [["2"]] }] }] }]
  have hfs : standard.parseText source = .ok fs := by decide
  have hsilent : Silent (standard.parseEvents (Text.lines source)) := by
    unfold Silent
    decide
  exact ⟨fs, hfs, hsilent, parseText_lossless hfs hsilent⟩

end DialectTable

end Gherkin
