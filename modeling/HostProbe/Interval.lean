/-!
Open intervals over offsets, and the bisection step. `low` is an offset taken to be rejected,
`high` one taken to be accepted; a larger offset means a shorter script.

The arithmetic is on integers. `settled?` and `midpoint?` are the same operations on words of
64 bits, where a sum or difference may not be representable.
-/

namespace HostProbe

structure Interval where
  low : Int
  high : Int
  deriving DecidableEq, Repr

namespace Interval

def width (i : Interval) : Int := i.high - i.low

/-- No offset lies strictly between the bounds. -/
def isSettled (i : Interval) : Bool := decide (i.width ≤ 1)

def midpoint (i : Interval) : Int := (i.high + i.low) / 2

def narrow (i : Interval) (mid : Int) (accepted : Bool) : Interval :=
  if accepted then { i with high := mid } else { i with low := mid }

theorem midpoint_between (i : Interval) (h : i.isSettled = false) :
    i.low < i.midpoint ∧ i.midpoint < i.high := by
  have h : ¬ i.high - i.low ≤ 1 := of_decide_eq_false h
  simp only [midpoint]
  omega

theorem narrow_midpoint_width (i : Interval) (accepted : Bool) (h : i.isSettled = false) :
    0 < (i.narrow i.midpoint accepted).width ∧
      (i.narrow i.midpoint accepted).width < i.width := by
  have hm := i.midpoint_between h
  cases accepted <;> simp only [narrow, width, if_true, Bool.false_eq_true, if_false] <;> omega

inductive Overflow where
  | add
  | subtract
  deriving DecidableEq, Repr

def Overflow.message : Overflow → String
  | .add => "attempt to add with overflow"
  | .subtract => "attempt to subtract with overflow"

/-- Whether an integer is a signed word of 64 bits. -/
def isWord (n : Int) : Bool :=
  decide (-9223372036854775808 ≤ n ∧ n < 9223372036854775808)

def settled? (i : Interval) : Except Overflow Bool :=
  if isWord (i.high - i.low) then .ok i.isSettled else .error .subtract

def midpoint? (i : Interval) : Except Overflow Int :=
  if isWord (i.high + i.low) then .ok i.midpoint else .error .add

/-- One recorded step: an answer at the midpoint, or at an offset chosen from outside. -/
structure Step where
  accepted : Bool
  mid : Option Int
  deriving DecidableEq, Repr

/-- The intervals after each step. A midpoint that is not representable ends the list. -/
def trace (i : Interval) : List Step → List (Except Overflow Interval)
  | [] => []
  | step :: steps =>
    match step.mid.elim i.midpoint? .ok with
    | .ok mid =>
      let next := i.narrow mid step.accepted
      .ok next :: next.trace steps
    | .error e => [.error e]

end Interval

end HostProbe
