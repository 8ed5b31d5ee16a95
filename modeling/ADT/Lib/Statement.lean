import ADT.Lib.Interleave

/-!
# Lib.Statement — how a statement of a database comes out

It reports how many rows it changed, or it throws.  Whether one that threw took effect is not seen by the caller.
-/

namespace ADT.Interleave

inductive Outcome
  | changes (n : ℕ)
  | threw (tookEffect : Bool)

def Outcome.effective : Outcome → Bool
  | .changes n => n == 1
  | .threw tookEffect => tookEffect

/-- A statement that may change nothing, but must not throw. -/
def Outcome.any {S : Signature} {ε : Type} (unavailable : ε) : Outcome → Prog S ε Unit
  | .changes _ => pure ()
  | .threw _ => throw unavailable

end ADT.Interleave
