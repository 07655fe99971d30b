import MonthlyForecast.Calculation
import MonthlyForecast.Contract.PolicyFile
import MonthlyForecast.Contract.Report
import MonthlyForecast.Contract.Request
import MonthlyForecast.Graph.Adjacency
import MonthlyForecast.Proofs.Graph.Cycles
import MonthlyForecast.Proofs.Graph.SimpleCycles
import MonthlyForecast.Proofs.Validation.Findings
import MonthlyForecast.Proofs.Validation.WellFormed
import MonthlyForecast.Proofs.Graph.Precedence
import MonthlyForecast.Proofs.Tree.Placement
import MonthlyForecast.Proofs.Tree.Schedule
import MonthlyForecast.Proofs.Tree.Construction
import MonthlyForecast.Proofs.Tree.Expansion
import MonthlyForecast.Proofs.Evaluation.Determined
import MonthlyForecast.Proofs.Evaluation.Run
import MonthlyForecast.Proofs.Evaluation.Safety
import MonthlyForecast.Proofs.Tree.Checked
import MonthlyForecast.Proofs.Calculation.Relations
import MonthlyForecast.Proofs.Calculation.Completion
import MonthlyForecast.Proofs.Calculation.Equations
import MonthlyForecast.Proofs.Calculation.Solution
import MonthlyForecast.Proofs.Graph.Reach
import MonthlyForecast.Proofs.Graph.Component
import MonthlyForecast.Proofs.Tree.Dependence
import MonthlyForecast.Proofs.Evaluation.TreeOrder
import MonthlyForecast.Proofs.Evaluation.Unfolded
import MonthlyForecast.Proofs.Report.Alignment
import MonthlyForecast.Proofs.Calculation.EdgeOrder
import MonthlyForecast.Proofs.Report.Entries
import MonthlyForecast.Proofs.Calculation.NodeOrder
import MonthlyForecast.Proofs.Report.Horizon
import MonthlyForecast.Proofs.Calculation.ReadSet
import MonthlyForecast.Proofs.Graph.Renumbering
import MonthlyForecast.Proofs.Tree.Renumbering
import MonthlyForecast.Proofs.Calculation.Connection
import MonthlyForecast.Proofs.Calculation.Ignored
import MonthlyForecast.Proofs.Report.Coverage
import MonthlyForecast.Proofs.Report.Correspondence
import MonthlyForecast.Proofs.Calendar.Shift
import MonthlyForecast.Proofs.Report.Refinement
import MonthlyForecast.Proofs.Evaluation.Finite
import MonthlyForecast.Proofs.Evaluation.ShiftedSeries
import MonthlyForecast.Proofs.Report.Finite
import MonthlyForecast.Proofs.Report.Translation
import MonthlyForecast.Proofs.Graph.Ordering
import MonthlyForecast.Proofs.Graph.SearchPriority
import MonthlyForecast.Proofs.Report.RangeIndependence
import MonthlyForecast.Proofs.Report.Audit
import MonthlyForecast.Proofs.Contract.Report
import MonthlyForecast.Proofs.Graph.LeadingTo
import MonthlyForecast.Proofs.Graph.NamedCycles
import MonthlyForecast.Proofs.Decimal.Places
import MonthlyForecast.Proofs.Report.TraceDrawing
import MonthlyForecast.Proofs.Calendar.Range
import MonthlyForecast.Proofs.Evaluation.Intake
import MonthlyForecast.Proofs.Evaluation.Guarded
import MonthlyForecast.Proofs.Evaluation.Writes
