import Abacus.Calculator
import Abacus.Expr.Basic
import Abacus.Expr.Json
import Abacus.Proofs.Accepted
import Abacus.Proofs.Admission
import Abacus.Proofs.Blanks
import Abacus.Proofs.Calls
import Abacus.Proofs.Dense
import Abacus.Proofs.Derivable
import Abacus.Proofs.Descent
import Abacus.Proofs.Described
import Abacus.Proofs.Digits
import Abacus.Proofs.Encoded
import Abacus.Proofs.Entry
import Abacus.Proofs.Flat
import Abacus.Proofs.FloatValue
import Abacus.Proofs.Fused
import Abacus.Proofs.Grammar
import Abacus.Proofs.Groups
import Abacus.Proofs.Height
import Abacus.Proofs.Layers
import Abacus.Proofs.Locality
import Abacus.Proofs.Log
import Abacus.Proofs.LogOrder
import Abacus.Proofs.Lookahead
import Abacus.Proofs.Named
import Abacus.Proofs.Nested
import Abacus.Proofs.NumeralValue
import Abacus.Proofs.Offset
import Abacus.Proofs.Printed
import Abacus.Proofs.ReadBack
import Abacus.Proofs.Rendered
import Abacus.Proofs.Repair
import Abacus.Proofs.Repaired
import Abacus.Proofs.Resumed
import Abacus.Proofs.Room
import Abacus.Proofs.Rounding
import Abacus.Proofs.Routes
import Abacus.Proofs.Run
import Abacus.Proofs.Sameness
import Abacus.Proofs.Shortest
import Abacus.Proofs.Shown
import Abacus.Proofs.Simulation
import Abacus.Proofs.Spelling
import Abacus.Proofs.Traversal
import Abacus.Proofs.Twins
import Abacus.Proofs.Unpacked
import Abacus.Proofs.Viable
import Abacus.Settings.Json
