/-
# Sets of characters given by ranges of code points

Unicode properties are tables. A table is a list of closed ranges in increasing order, and
membership walks it from the left. The walk stops at the first range that begins after the
character, so the frequent characters at the low end are decided in a few steps.
-/

namespace RecordFlow.Text

/-- A set of code points as closed ranges, in increasing order and without overlap. -/
abbrev Ranges := List (Nat × Nat)

namespace Ranges

/-- Membership of a code point. Ranges to the right of the first one that begins above `code`
are not looked at, since all of them begin above it too. -/
def holds : Ranges → Nat → Bool
  | [], _ => false
  | (low, high) :: rest, code =>
      if code < low then false
      else if code ≤ high then true
      else holds rest code

/-- Membership of a character. -/
def contains (ranges : Ranges) (c : Char) : Bool := ranges.holds c.toNat

end Ranges

end RecordFlow.Text
