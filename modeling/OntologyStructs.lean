import OntologyStructs.Main
import OntologyStructs.Proofs.Resolution.Rerun
import OntologyStructs.Proofs.Resolution.Rearranged
import OntologyStructs.Proofs.Struct
import OntologyStructs.Proofs.Workbench
import OntologyStructs.Proofs.Digraph
import OntologyStructs.Proofs.Dump
import OntologyStructs.Proofs.Naming
import OntologyStructs.Proofs.Outputs
import OntologyStructs.Proofs.WellNamed
import OntologyStructs.Proofs.GoFile
import OntologyStructs.Proofs.Resolution.LeftOut
import OntologyStructs.Proofs.Document
import OntologyStructs.Proofs.Json.Reading
import OntologyStructs.Proofs.Utf8
import OntologyStructs.Proofs.FileTree
import OntologyStructs.Proofs.Json.Indented
import OntologyStructs.Proofs.Json.Portable
import OntologyStructs.Proofs.Reloading
import OntologyStructs.Proofs.Agreement
import OntologyStructs.Proofs.CommandLine
import OntologyStructs.Proofs.PackageClause
import OntologyStructs.Proofs.Settings.Sources
import OntologyStructs.Proofs.Resolution.Arrivals
import OntologyStructs.Proofs.Resolution.Circles
import OntologyStructs.Proofs.Resolution.Turns
import OntologyStructs.Proofs.Resolution.Counting
import OntologyStructs.Proofs.Groups
import OntologyStructs.Proofs.Repeats
import OntologyStructs.Proofs.Rounds
import OntologyStructs.Proofs.Resolution.Order
import OntologyStructs.Proofs.Shadowed
import OntologyStructs.Proofs.Value.Spelled
import OntologyStructs.Proofs.Naming.Exported
import OntologyStructs.Proofs.Tags
import OntologyStructs.Proofs.Naming.Words
import OntologyStructs.Proofs.Naming.Segment
import OntologyStructs.Proofs.Columns
import OntologyStructs.Proofs.ExitStatus
