import DiceCalculator.Main
import DiceCalculator.Report.Figure
import DiceCalculator.Report.Listing
import DiceCalculator.Proofs.Combinatorics.Retention
import DiceCalculator.Proofs.Command.Ending
import DiceCalculator.Proofs.Distribution.Independence
import DiceCalculator.Proofs.Distribution.Normalization
import DiceCalculator.Proofs.Expr.Admissibility
import DiceCalculator.Proofs.Expr.Construction
import DiceCalculator.Proofs.Expr.Diagnosis
import DiceCalculator.Proofs.Expr.Mean
import DiceCalculator.Proofs.Expr.Parentheses
import DiceCalculator.Proofs.Expr.Sampling
import DiceCalculator.Proofs.Expr.SharedMemory
import DiceCalculator.Proofs.Json.Roll
import DiceCalculator.Proofs.Report.Bars
import DiceCalculator.Proofs.Report.Carets
import DiceCalculator.Proofs.Report.Columns
import DiceCalculator.Proofs.Rolling.Ledger
import DiceCalculator.Proofs.Rolling.Replay
import DiceCalculator.Proofs.Rolling.Session
import DiceCalculator.Proofs.Settings.Overlay
