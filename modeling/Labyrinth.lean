import Labyrinth.Instruction.Levels
import Labyrinth.Instruction.Sample
import Labyrinth.Instruction.Visits
import Labyrinth.Language.Parse
import Labyrinth.Language.Source
import Labyrinth.Language.Block
import Labyrinth.Maze.Drawing
import Labyrinth.Run.Session
import Labyrinth.Run.Signal
import Labyrinth.Run.Host
import Labyrinth.Level.Campaign
import Labyrinth.Level.Fingerprint
import Labyrinth.Level.Drawing
import Labyrinth.Proofs.Run.Simulation
import Labyrinth.Proofs.Run.LiveSteps
import Labyrinth.Proofs.Level.Playable
import Labyrinth.Proofs.Language.FrontEnds
import Labyrinth.Proofs.Level.Winning
import Labyrinth.Proofs.Language.Rereading
import Labyrinth.Proofs.Language.Rebuilding
import Labyrinth.Proofs.Run.Continuation
import Labyrinth.Proofs.Level.Perfect
import Labyrinth.Proofs.Level.DepthFirst
import Labyrinth.Language.Assembly
import Labyrinth.Proofs.Language.Attempts
import Labyrinth.Proofs.Run.Hosting
import Labyrinth.Proofs.Run.Keeping
import Labyrinth.Proofs.Run.Superseding
import Labyrinth.Proofs.Run.HostSteps
import Labyrinth.Proofs.Run.HostHistory
import Labyrinth.Proofs.Run.Recording
import Labyrinth.Proofs.Run.Safety
import Labyrinth.Proofs.Run.Stripping
import Labyrinth.Proofs.Instruction.Nesting
import Labyrinth.Proofs.Run.Depth
import Labyrinth.Proofs.Run.Length
import Labyrinth.Proofs.Text.SmallLetters
import Labyrinth.Proofs.Level.Searching
import Labyrinth.Proofs.Level.Census
import Labyrinth.Proofs.Language.Retokenizing
import Labyrinth.Proofs.Level.Gathering
import Labyrinth.Proofs.Maze.Acceptance
import Labyrinth.Proofs.Run.Sessions
import Labyrinth.Proofs.Instruction.Measures
import Labyrinth.Proofs.Level.Fingerprints
import Labyrinth.Proofs.Level.Agreement
import Labyrinth.Proofs.Level.Streams
