import DeviceTwin.Text.Classes
import DeviceTwin.Text.Split

/-!
# The grammar of model identifiers

A device-model identifier reads `dtmi:segment:segment;major.minor.minor`: one or
more segments and a version of one or more numbers. `Parts` is an identifier
taken apart and `Parts.text` puts it together; `IsDtmi` says which texts arise
from well-formed parts. The grammar knows ASCII only.
-/

namespace DeviceTwin.Dtmi

open DeviceTwin.Text

/-- What every identifier begins with. -/
def scheme : List Char := ['d', 't', 'm', 'i', ':']

def isSegmentChar (c : Char) : Bool :=
  isLetter c || isDigit c || c == '_'

/-- A letter followed by letters, digits and underscores. -/
def isSegment : List Char → Bool
  | [] => false
  | c :: s => isLetter c && s.all isSegmentChar

/-- A number of at least one, without leading zeros. -/
def isMajor : List Char → Bool
  | [] => false
  | c :: s => isDigit c && c != '0' && s.all isDigit

/-- A number without leading zeros. -/
def isMinor (s : List Char) : Bool :=
  s == ['0'] || isMajor s

structure Parts where
  segments : List (List Char)
  major : List Char
  minors : List (List Char)
  deriving DecidableEq, Repr

namespace Parts

structure WellFormed (p : Parts) : Prop where
  nonempty : p.segments ≠ []
  segments : ∀ s ∈ p.segments, isSegment s
  major : isMajor p.major
  minors : ∀ m ∈ p.minors, isMinor m

def text (p : Parts) : List Char :=
  scheme ++ join ':' p.segments ++ ';' :: join '.' (p.major :: p.minors)

end Parts

def IsDtmi (s : List Char) : Prop :=
  ∃ p : Parts, p.WellFormed ∧ s = p.text

end DeviceTwin.Dtmi
