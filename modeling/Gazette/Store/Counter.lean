/-!
# Stored counters

A counter is stored as a whole number of 64 bits. Counting past the greatest one leaves an inexact
number behind, which no longer changes and can no longer be read.
-/
namespace Gazette

inductive Counter
  | exact (n : Int)
  | inexact
deriving DecidableEq, Repr, Inhabited

namespace Counter

/-- The greatest exact value. -/
def greatest : Int := 0x7fffffffffffffff

/-- The counter after one more event. -/
def next : Counter → Counter
  | exact n => if n < greatest then exact (n + 1) else inexact
  | inexact => inexact

end Counter
end Gazette
