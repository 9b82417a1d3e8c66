import SmellLint.Main
import SmellLint.Models
import SmellLint.Proofs.CallGraph.Receiver
import SmellLint.Proofs.CallGraph.Recorded
import SmellLint.Proofs.CommandLine.Execute
import SmellLint.Proofs.Dataset.Balance
import SmellLint.Proofs.Dataset.Functions
import SmellLint.Proofs.Dataset.Injection
import SmellLint.Proofs.Dataset.Judging
import SmellLint.Proofs.Dataset.Labelling
import SmellLint.Proofs.Evaluation
import SmellLint.Proofs.FrameAccess
import SmellLint.Proofs.Imports
import SmellLint.Proofs.Project.Attempts
import SmellLint.Proofs.Project.Parallel
import SmellLint.Proofs.Project.Resume
import SmellLint.Proofs.Project.Totals
import SmellLint.Proofs.Renaming.ImportStyle
import SmellLint.Proofs.Report
import SmellLint.Proofs.Reports
import SmellLint.Proofs.Service.Assistant
import SmellLint.Proofs.Service.Folder
import SmellLint.Proofs.Table.Appending
import SmellLint.Proofs.Window
import SmellLint.Service.Http
