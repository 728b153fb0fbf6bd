/-
  Whole runs.

  * `trace` lists the states of a run step by step, where messages from the
    managing process arrive before each step;
  * `complete` is a run to its end.

  A run takes at most two steps for each candidate and five more, so that bound
  limits both.
-/
import SongLibrary.Reconcile.Step

namespace SongLibrary.Reconcile.Run

variable (s : Setup) (w : Services)

/-- The number of candidates there can be: the files and the records. -/
def candidateBound (r : Run) : Nat :=
  r.files.entries.length + ((r.files.openTable s.databasePath).2.map SongTable.size).getD 0

/-- The number of steps that are enough for a run. -/
def stepBound (r : Run) : Nat :=
  2 * r.candidateBound s + 5

/-- The states after at most `bound` steps, up to the end of the run, from step
    `n` on; before step `k` the messages `arriving k` arrive. -/
def traceFrom (arriving : Nat → List Control) :
    Nat → Nat → Run → List (Run × Except Failure Progress)
  | 0, _, _ => []
  | bound + 1, n, r =>
    let after := (r.controls (arriving n)).step s w
    match after with
    | (r, .ok .continue) => after :: traceFrom arriving bound (n + 1) r
    | _ => [after]

/-- The states after the steps of a run. -/
def trace (arriving : Nat → List Control) (r : Run) : List (Run × Except Failure Progress) :=
  traceFrom s w arriving (r.stepBound s) 0 r

/-- The end of a run with at most `bound` steps left. -/
def completeWithin : Nat → Run → Run × Except Failure Counters
  | 0, r => (r, .ok r.counters)
  | bound + 1, r =>
    match r.step s w with
    | (r, .ok .continue) => completeWithin bound r
    | (r, .ok .done) => (r, .ok r.counters)
    | (r, .error failure) => (r, .error failure)

/-- The end of a run, where messages have arrived before it began. -/
def complete (arrived : List Control) (r : Run) : Run × Except Failure Counters :=
  completeWithin s w (r.stepBound s) (r.controls arrived)

end SongLibrary.Reconcile.Run
