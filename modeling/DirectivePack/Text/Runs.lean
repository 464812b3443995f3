/-!
Sets of characters given by the lengths of runs: how many numbers from zero on are outside, how many
after that inside, and so on, in turns.  What is behind the last run is outside.
-/

namespace DirectivePack

/-- Whether a number is inside, where `inside` says it of the first run. -/
def inRuns (inside : Bool) : List Nat → Nat → Bool
  | [], _ => false
  | length :: runs, n => if n < length then inside else inRuns (! inside) runs (n - length)

end DirectivePack
