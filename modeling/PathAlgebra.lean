import PathAlgebra.Carrier
import PathAlgebra.Cell
import PathAlgebra.Display
import PathAlgebra.Equiv.Basic
import PathAlgebra.Equiv.Check
import PathAlgebra.Equiv.Pair
import PathAlgebra.Family
import PathAlgebra.Family.Segments
import PathAlgebra.Level.Contraction
import PathAlgebra.Level.Witness
import PathAlgebra.Main
import PathAlgebra.Outcome
import PathAlgebra.Pair.Map
import PathAlgebra.Pair.Path
import PathAlgebra.Path.Basic
import PathAlgebra.Path.Laws
import PathAlgebra.Report
import PathAlgebra.Table.Basic
import PathAlgebra.Table.Extensionality
import PathAlgebra.Table.Grid
import PathAlgebra.Text.Blank
import PathAlgebra.Text.Name
import PathAlgebra.Text.Printable
import PathAlgebra.Text.Quoted
import PathAlgebra.Text.Range
import PathAlgebra.Text.Symbol
import PathAlgebra.Theory.Basic
import PathAlgebra.Theory.PairChecks
import PathAlgebra.Theory.Pairs
import PathAlgebra.Theory.TaskRunner
import PathAlgebra.Theory.Transcript
import PathAlgebra.Value
import PathAlgebra.Proofs.Cell.Pairing
import PathAlgebra.Proofs.Level.Acceptance
import PathAlgebra.Proofs.Level.Product
import PathAlgebra.Proofs.Enumeration
import PathAlgebra.Proofs.Table.Selection
import PathAlgebra.Proofs.Table.WellFormed
import PathAlgebra.Proofs.Equiv.Lawful
import PathAlgebra.Proofs.Equiv.Term
import PathAlgebra.Proofs.Table.Listing
import PathAlgebra.Proofs.Enumeration.Term
import PathAlgebra.Proofs.Level.Transfer
import PathAlgebra.Proofs.Table.GridListing
import PathAlgebra.Proofs.Theory.PairChecks
import PathAlgebra.Proofs.Equiv.Verdict
import PathAlgebra.Proofs.Level.Monotone
import PathAlgebra.Proofs.Table.Obtainable
import PathAlgebra.Proofs.Table.Extensionality
import PathAlgebra.Proofs.Cell.Path
import PathAlgebra.Proofs.Pair.Path
import PathAlgebra.Proofs.Text.Name
import PathAlgebra.Proofs.Text.Symbol
import PathAlgebra.Proofs.Text.Quoted
import PathAlgebra.Proofs.Theory.Declaration
import PathAlgebra.Proofs.Level.Retraction
import PathAlgebra.Proofs.Equiv.GivenTrips
import PathAlgebra.Proofs.Equiv.RoundTrips
import PathAlgebra.Proofs.Theory.Checking
import PathAlgebra.Proofs.Level.Builders
import PathAlgebra.Proofs.Equiv.Product
import PathAlgebra.Proofs.Equiv.Composite
import PathAlgebra.Proofs.Text.Cutting
import PathAlgebra.Proofs.Text.WholeName
import PathAlgebra.Proofs.Text.Steps
import PathAlgebra.Proofs.Table.Tabulation
import PathAlgebra.Proofs.Cell.Functoriality
import PathAlgebra.Proofs.Path.Laws
import PathAlgebra.Proofs.Family.Transport
import PathAlgebra.Proofs.Level.Failure
import PathAlgebra.Proofs.Table.ProductFamily
import PathAlgebra.Proofs.Enumeration.Reckoning
import PathAlgebra.Proofs.Table.Reckoning
import PathAlgebra.Proofs.Report.Merging
