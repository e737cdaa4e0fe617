import Constituency.Log
import Constituency.Main
import Constituency.Proofs.Grammar.Source
import Constituency.Proofs.Parse.Arena
import Constituency.Proofs.Parse.Nesting
import Constituency.Proofs.Parse.Pruning
import Constituency.Proofs.Parse.Usefulness
import Constituency.Proofs.Rule.Text
import Constituency.Proofs.Parse.Location
import Constituency.Proofs.Parse.Chunk
import Constituency.Proofs.Grammar.UnitCycle
import Constituency.Proofs.Grammar.Productivity
import Constituency.Proofs.Grammar.Warning
import Constituency.Proofs.Grammar.Agreement
import Constituency.Proofs.Parse.Budget
import Constituency.Proofs.ParseTree.Innermost
import Constituency.Proofs.Grammar.Block
import Constituency.Proofs.Token.Place
import Constituency.Proofs.ParseTree.Printed
import Constituency.Proofs.ParseTree.Bracketing
import Constituency.Proofs.ParseTree.Layout
import Constituency.Proofs.Token.Stability
import Constituency.Proofs.CommandLine.Session
import Constituency.Proofs.Parse.Log
import Constituency.Proofs.CommandLine.Options
import Constituency.Proofs.Chart.UnitFixpoint
import Constituency.Proofs.Chart.Enumeration
import Constituency.Proofs.Parse.Bounds
