import TapeMachine.CommandLine.Run
import TapeMachine.Engine
import TapeMachine.Fault
import TapeMachine.Feed
import TapeMachine.Feed.Fuel
import TapeMachine.Focus
import TapeMachine.HostCommand
import TapeMachine.Main
import TapeMachine.Proofs.Alike
import TapeMachine.Proofs.Chunks
import TapeMachine.Proofs.CountingLoop
import TapeMachine.Proofs.Footprint
import TapeMachine.Proofs.Frontier
import TapeMachine.Proofs.Grammar
import TapeMachine.Proofs.Interchange
import TapeMachine.Proofs.Jam
import TapeMachine.Proofs.Refinement
import TapeMachine.Proofs.Rooted
import TapeMachine.Proofs.Script
import TapeMachine.Proofs.Skipping
import TapeMachine.Proofs.Stepping
import TapeMachine.Proofs.StraightLine
import TapeMachine.Proofs.Tolerated
import TapeMachine.Proofs.Unfolding
import TapeMachine.Proofs.Verbatim
import TapeMachine.Stepper
import TapeMachine.Stream.Sink
import TapeMachine.Stream.Source
import TapeMachine.Tape.Basic
import TapeMachine.Tape.Fixed
import TapeMachine.Tape.Metered
import TapeMachine.Tape.Sparse
import TapeMachine.Text.Blank
import TapeMachine.Text.Columns
import TapeMachine.Text.Lines
import TapeMachine.Text.Quoted
import TapeMachine.Proofs.CursorView
import TapeMachine.Proofs.Forwarding
import TapeMachine.Proofs.HeadMoves
import TapeMachine.Proofs.HeadView
