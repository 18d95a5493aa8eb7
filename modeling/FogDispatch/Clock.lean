import FogDispatch.Number.Notation

/-!
# Simulated time

Points in time and spans between them.  Points are compared in the total order of their carrier, so
that every set of events has an order of delivery, whatever times they carry.
-/

namespace FogDispatch

/-- A span of simulated time in seconds. -/
structure Span (α : Type) where
  value : α
  deriving DecidableEq, Repr, Inhabited

/-- A point in simulated time. -/
structure Time (α : Type) where
  value : α
  deriving DecidableEq, Repr, Inhabited

section

variable {α : Type} [Arith α]

instance : Add (Span α) where
  add d e := ⟨d.value + e.value⟩

instance : HAdd (Time α) (Span α) (Time α) where
  hAdd t d := ⟨t.value + d.value⟩

instance : HSub (Time α) (Time α) (Span α) where
  hSub t u := ⟨t.value - u.value⟩

namespace Span

def zero : Span α := ⟨Arith.zero⟩

end Span

namespace Time

def zero : Time α := ⟨Arith.zero⟩

def order (t u : Time α) : Ordering := Arith.order t.value u.value

def isBefore (t u : Time α) : Bool := t.order u == .lt

def isAfter (t u : Time α) : Bool := t.order u == .gt

/-- Whether `t` comes no later than `u`. -/
def isBy (t u : Time α) : Bool := t.order u != .gt

/-- The later of two points in time, the first one of equal points. -/
def later (t u : Time α) : Time α := if u.isAfter t then u else t

end Time
end

namespace Time

/-- A point in time as text, with three places. -/
def text (t : Time Binary64) : String := t.value.fixed 3

end Time

namespace Span

/-- A span of time as text, with three places. -/
def text (d : Span Binary64) : String := d.value.fixed 3

end Span
end FogDispatch
