import InkLint.Device
import InkLint.Main
import InkLint.Output.Document
import InkLint.Text.Letter
import InkLint.Text.Pattern
import InkLint.Proofs.Join
import InkLint.Proofs.Lookup
import InkLint.Proofs.Walk.Entry
import InkLint.Proofs.Walk.Position
import InkLint.Proofs.Walk.Chain
import InkLint.Proofs.Walk.Files
import InkLint.Proofs.Walk.Faults
import InkLint.Proofs.Walk.Parts
import InkLint.Proofs.Walk.Depth
import InkLint.Proofs.Scan.Calls
import InkLint.Proofs.Scan.Contract
import InkLint.Proofs.Scan.Log
import InkLint.Proofs.Scan.Unresolved
import InkLint.Proofs.Scan.Target
import InkLint.Proofs.CommandLine.Run
import InkLint.Proofs.Json.Grammar
import InkLint.Proofs.Json.Reader
import InkLint.Proofs.Json.Reading
import InkLint.Proofs.Json.Layout
import InkLint.Proofs.Output.Document
import InkLint.Proofs.Text.Segmentation
import InkLint.Proofs.Text.Lossy
import InkLint.Proofs.Rules
import InkLint.Proofs.Output.Sink
import InkLint.Proofs.Output.Bounded
import InkLint.Proofs.Output.Agreement
import InkLint.Proofs.Output.Colour
import InkLint.Proofs.Output.History
import InkLint.Proofs.Compare.Independence
import InkLint.Proofs.Compare.Within
import InkLint.Proofs.Compare.Gains
import InkLint.Proofs.Compare.AddedFile
import InkLint.Proofs.Compare.Spelling
import InkLint.Proofs.Extension
import InkLint.Proofs.Scan.Abort
import InkLint.Proofs.Reformat
import InkLint.Proofs.Output.Broken
