import ExactQuadrature.Journal.Basic

/-! # Profiles

A profile reports how long a computation has taken since its start and where the time went: one
line for every task path, the slowest first, with its total duration, the number of its tasks and
its names from the outermost inwards. -/

namespace ExactQuadrature

namespace Journal

/-- The timings from the longest total to the shortest; equal totals keep their order. -/
def slowestFirst (journal : Journal) : List Timing :=
  journal.timings.mergeSort fun first second => second.total ≤ first.total

/-- Text moved to the right end of a field. -/
def alignRight (width : Nat) (text : String) : String :=
  String.ofList (List.replicate (width - text.length) ' ') ++ text

/-- One line of a profile. -/
def profileLine (timing : Timing) : String :=
  alignRight 16 (Binary64.briefText timing.total) ++ " " ++
    alignRight 6 (toString timing.count) ++ "x " ++ " / ".intercalate timing.path ++ "\n"

/-- The profile at the time the clock shows. -/
def profileText (journal : Journal) : String :=
  "Total duration: " ++ Binary64.briefText (Clock.seconds journal.clock.now) ++ " seconds\n\n" ++
    String.join (journal.slowestFirst.map profileLine)

/-- Read the clock and write a profile. -/
def profile (journal : Journal) : String × Journal :=
  let read := { journal with clock := journal.clock.advance }
  (read.profileText, read)

end Journal

end ExactQuadrature
