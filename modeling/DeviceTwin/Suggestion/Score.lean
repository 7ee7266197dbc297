import DeviceTwin.Suggestion.Best
import DeviceTwin.Text.Classes

/-!
# A matcher that keeps its rows

A pattern fits a name if its characters occur in the name in the same order,
`firstPlaces` being where they occur first. A pattern without capitals does not
tell capitals from small letters.

The score of a fit rewards characters that stand together and characters that
begin a word: behind a separator, or a capital behind a small letter. It is
worked out row by row, one row for each character of the pattern; a cell tells the
best score of a fit that ends at its column (`best`) and of one that has ended
before (`gap`), and the bonus of the run of characters it belongs to. Two rows are
used in turn and written over in place, so a cell that is not written keeps what
it held two rows before. The rows stay when the score is given and are written over
for the next one, and only the upper one is cleared. What is left of the lower one,
the bonuses, has its part in the next scores: a score may be another one behind
another question.
-/

namespace DeviceTwin.Suggestion

open DeviceTwin.Text

/-- Only a pattern with a capital in it tells capitals from small letters. -/
def isCaseSensitive (pattern : List Char) : Bool :=
  pattern.any isUpper

def sameLetter (sensitive : Bool) (a b : Char) : Bool :=
  if sensitive then a == b else toLower a == toLower b

/-- Where each character of the pattern occurs first behind the one before it. -/
def placesFrom (sensitive : Bool) (column : Nat) : List Char → List Char → Option (List Nat)
  | _, [] => some []
  | [], _ :: _ => none
  | c :: name, p :: pattern =>
    if sameLetter sensitive c p then
      (placesFrom sensitive (column + 1) name pattern).map (column :: ·)
    else placesFrom sensitive (column + 1) name (p :: pattern)

def firstPlaces (name pattern : List Char) : Option (List Nat) :=
  placesFrom (isCaseSensitive pattern) 0 name pattern

inductive CharRole where
  | nothing
  | upper
  | digit
  | lower
  | hardSeparator
  | softSeparator
  deriving DecidableEq, Repr

def roleOf (c : Char) : CharRole :=
  let n := c.toNat
  if n = 0 then .nothing
  else if [' ', '/', '\\', '|', '(', ')', '[', ']', '\x7b', '\x7d'].contains c then
    .hardSeparator
  else if (0x21 ≤ n && n ≤ 0x27) || (0x2A ≤ n && n ≤ 0x2E) || (0x3A ≤ n && n ≤ 0x40) ||
      (0x5E ≤ n && n ≤ 0x60) || c = '~' then
    .softSeparator
  else if isDigit c then .digit
  else if isUpper c then .upper
  else .lower

/-- What a character at the beginning of a word is worth. -/
def wordBonus : CharRole → CharRole → Int
  | .nothing, _ => 8
  | .hardSeparator, _ => 8
  | .softSeparator, _ => 7
  | .lower, .upper => 6
  | .digit, .upper => 6
  | _, _ => 0

def bonusesFrom : CharRole → List Char → List Int
  | _, [] => []
  | before, c :: cs => wordBonus before (roleOf c) :: bonusesFrom (roleOf c) cs

/-- The bonus of each character of a name; the first one counts twice. -/
def bonuses (name : List Char) : List Int :=
  match bonusesFrom .nothing name with
  | [] => []
  | b :: bs => 2 * b :: bs

structure Cell where
  best : Int
  gap : Int
  bonus : Int
  deriving DecidableEq, Repr, Inhabited

/-- Below every score that is reached. -/
def noScore : Int := -32768

/-- What a run of characters is worth at least. -/
def runBonus : Int := 4

/-- One character of the name against one of the pattern. `left` and `diagonal`
are the cells before this one in its row and in the row above; the first cell of
the answer takes the place of `left`. -/
def step (sensitive : Bool) (p c : Char) (bonus : Int) (diagonal left old : Cell) :
    Cell × Cell :=
  let gap := max (left.best - 4) (left.gap - 1)
  if sameLetter sensitive c p then
    let run := max (max left.bonus bonus) runBonus
    let worth : Int := if c = p then 16 else 14
    ({ left with bonus := run },
      { old with best := max (diagonal.best + run) (diagonal.gap + bonus) + worth, gap := gap })
  else
    (left, ⟨noScore, gap, 0⟩)

/-- Goes through a row from the cell `left` on. -/
def sweep (sensitive : Bool) (p : Char) :
    List Char → List Int → Cell → List Cell → Cell → List Cell → List Cell
  | c :: name, b :: bonuses, diagonal, above :: row, left, old :: cells =>
    let (left, cell) := step sensitive p c b diagonal left old
    left :: sweep sensitive p name bonuses above row cell cells
  | _, _, _, _, left, cells => left :: cells

/-- Writes one row over, from the column before the first place on. -/
def writeRow (sensitive : Bool) (name : List Char) (p : Char) (place : Nat)
    (above row : List Cell) : List Cell :=
  match above.drop place, row.drop place with
  | diagonal :: above, left :: cells =>
    row.take place ++
      sweep sensitive p (name.drop place) ((bonuses name).drop place) diagonal above left cells
  | _, _ => row

/-- The rows after the last character of the pattern: the one written last, and the
other one. -/
def fill (sensitive : Bool) (name : List Char) :
    List Char → List Nat → List Cell → List Cell → List Cell × List Cell
  | p :: pattern, place :: places, above, row =>
    fill sensitive name pattern places (writeRow sensitive name p place above row) above
  | _, _, above, row => (above, row)

def maximum : List Int → Int
  | [] => noScore
  | n :: ns => ns.foldl max n

/-- A cell that was never written. -/
def unwritten : Cell := ⟨noScore, noScore, 0⟩

/-- Cells cut off or filled up to a number. -/
def resized (size : Nat) (cells : List Cell) : List Cell :=
  cells.take size ++ List.replicate (size - cells.length) unwritten

/-- The score of a pattern in a name, if it fits at all, and the two rows as they are
then, one behind the other. An empty pattern fits without a look at them. -/
def scoreOver (name pattern : List Char) (cells : List Cell) : Option Int × List Cell :=
  match firstPlaces name pattern with
  | none => (none, cells)
  | some [] => (some 0, cells)
  | some (first :: places) =>
    let width := name.length + 1
    let upper := List.replicate width ⟨noScore, -1, 0⟩
    let lower := ((resized (2 * width) cells).drop width).set first unwritten
    let (last, other) :=
      fill (isCaseSensitive pattern) name pattern (first :: places) upper lower
    let score := maximum ((last.drop (places.getLastD first)).map Cell.best)
    (some score, if pattern.length % 2 = 0 then last ++ other else other ++ last)

end DeviceTwin.Suggestion

namespace DeviceTwin.Concrete

open DeviceTwin.Suggestion

/-- A matcher keeps its rows from one question to the next. -/
scoped instance rowMatcher : Matcher where
  Memory := List Cell
  blank := []
  ask name pattern := scoreOver name.toList pattern.toList

end DeviceTwin.Concrete
