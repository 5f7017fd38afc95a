/-
Spans of time, counted in nanoseconds. The longest span has fewer than `2 ^ 64`
seconds.
-/
import ChainIndex.Binary64

namespace ChainIndex

structure Span where
  nanos : Nat
  deriving DecidableEq, Inhabited

namespace Span

def perSecond : Nat := 1000000000

def perMilli : Nat := 1000000

def zero : Span := ⟨0⟩

def ofSeconds (n : Nat) : Span := ⟨n * perSecond⟩

def ofMillis (n : Nat) : Span := ⟨n * perMilli⟩

/-- The whole seconds, and the nanoseconds beyond them. -/
def seconds (s : Span) : Nat := s.nanos / perSecond

def subsecond (s : Span) : Nat := s.nanos % perSecond

def max (s t : Span) : Span := ⟨Nat.max s.nanos t.nanos⟩

def isZero (s : Span) : Bool := s.nanos == 0

/-- The milliseconds that a wait of this span takes: a started millisecond is
waited for to its end. -/
def waitMillis (s : Span) : Nat := (s.nanos + perMilli - 1) / perMilli

/-- No span has as many seconds. -/
def secondsLimit : Nat := 0x10000000000000000

/-- A number of seconds in nanoseconds, rounded; nothing if it is too large. -/
def ofBinary64? (x : Binary64) : Option Span :=
  if x.lessThan secondsLimit then
    let nanos := x.timesNearest perSecond
    if nanos < secondsLimit * perSecond then some ⟨nanos⟩ else none
  else none

end Span

end ChainIndex
