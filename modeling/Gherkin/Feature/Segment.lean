import Gherkin.Token
import Gherkin.Event
import Gherkin.Trailing

/-!
# Segments

A sequence of tokens is cut into one segment for each feature token.  A segment
starts with the tags directly in front of its feature, which therefore do not
belong to the segment before.  What stands in front of the first of these tags
is left out, and so are tags at the very end.

`segments` mirrors `segment`, `featurePositions` mirrors `feature_positions`, and
`takeTrailing` does the work of `split_trailing_tags`.  What differs: the tags at the end
of a run are looked for in the run alone and not behind the tags that were handed on to
it.  A run starts with its feature, so that this comes to the same.
-/

namespace Gherkin

namespace Token

def isTag (t : Token) : Bool := t.kind == .tag

def isFeature (t : Token) : Bool := t.kind == .feature

end Token

/-- Tokens cut in front of every feature: those before the first feature, and a
run for each feature. -/
def cutAtFeatures : List Token → List Token × List (List Token)
  | [] => ([], [])
  | t :: ts =>
    let (lead, runs) := cutAtFeatures ts
    if t.isFeature then ([], (t :: lead) :: runs) else (t :: lead, runs)

/-- Hand the tags at the end of each run on to the run after it.  The first run
gets `carried`, and the tags at the end of the last one remain. -/
def handOnTags (carried : List Token) : List (List Token) → List (List Token) × List Token
  | [] => ([], carried)
  | run :: runs =>
    let (segments, remaining) := handOnTags (takeTrailing Token.isTag run) runs
    ((carried ++ dropTrailing Token.isTag run) :: segments, remaining)

/-- The segments of a sequence of tokens, and the tags that remain at its end. -/
def segmentation (ts : List Token) : List (List Token) × List Token :=
  let (lead, runs) := cutAtFeatures ts
  handOnTags (takeTrailing Token.isTag lead) runs

/-- One segment for each feature, in order. -/
def segments (ts : List Token) : List (List Token) := (segmentation ts).1

/-- The tokens in front of the first segment. -/
def unsegmented (ts : List Token) : List Token :=
  dropTrailing Token.isTag (cutAtFeatures ts).1

/-- What is left out when a sequence of tokens is cut into segments. -/
def segmentEvents (ts : List Token) : List Event :=
  let outside := unsegmented ts
  let remaining := (segmentation ts).2
  (if outside.isEmpty then [] else [.tokensOutsideFeature outside.length])
    ++ (if remaining.isEmpty then [] else [.tagsWithoutFeature remaining.length])

/-- The positions of the feature tokens. -/
def featurePositions (ts : List Token) : List Nat :=
  (ts.zipIdx.filter fun (t, _) => t.isFeature).map (·.2)

end Gherkin
