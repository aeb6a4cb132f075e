-- SUMMARY: Sinks for the lines of a witness: one that keeps all of them and one of limited room.
import WitnessLift.Storage.Error
import WitnessLift.Witness.Line

/-!
# Sinks

Where the lines of a witness go. A sink takes one line after the other until it fails.
-/

namespace WitnessLift

/-- A destination with state `σ`: taking a line leads to a new state and may fail. -/
structure Sink (σ : Type) where
  put : σ → WitnessLine → σ × Option StorageError

namespace Sink

/-- Gives lines to a sink up to the first that it fails on. -/
def putAll (sink : Sink σ) (s : σ) : List WitnessLine → σ × Option StorageError
  | [] => (s, none)
  | line :: rest =>
    match sink.put s line with
    | (s, none) => putAll sink s rest
    | (s, some cause) => (s, some cause)

/-- A sink that keeps all lines and never fails. -/
def collect : Sink (Array WitnessLine) where
  put lines line := (lines.push line, none)

/-- The bytes that a limited sink has taken, and how many more it takes. -/
structure Quota where
  written : Text.Bytes := []
  room : Nat
  deriving DecidableEq, Repr

/-- A sink of limited room. It takes of a line what fits, and fails if that is not all. -/
def limited (names : Bool) : Sink Quota where
  put q line :=
    let bytes := line.bytes names
    let taken := bytes.take q.room
    ({ written := q.written ++ taken, room := q.room - taken.length },
      if bytes.length ≤ q.room then none else some .full)

end Sink

end WitnessLift
