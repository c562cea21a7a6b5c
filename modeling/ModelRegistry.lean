import ModelRegistry.Names.Map
import ModelRegistry.Names.Set
import ModelRegistry.Text.Blank
import ModelRegistry.Text.Quoted
import ModelRegistry.Text.SnakeCase
import ModelRegistry.Json.Basic
import ModelRegistry.Json.Render
import ModelRegistry.Json.Fault
import ModelRegistry.Json.Source
import ModelRegistry.Json.Quotation
import ModelRegistry.Json.Numeral
import ModelRegistry.Json.Token
import ModelRegistry.Json.Document
import ModelRegistry.Json.Choice
import ModelRegistry.Json.Tagged
import ModelRegistry.Registry.Format
import ModelRegistry.Options
import ModelRegistry.Report
import ModelRegistry.Inconsistency
import ModelRegistry.PostProcessing
import ModelRegistry.Settings
import ModelRegistry.Main
import ModelRegistry.Proofs.FirstMatch
import ModelRegistry.Proofs.Members
import ModelRegistry.Proofs.Passes
import ModelRegistry.Proofs.Difference
import ModelRegistry.Proofs.Schedule
import ModelRegistry.Proofs.Findings
import ModelRegistry.Proofs.ImportClosure
import ModelRegistry.Proofs.ImportGrammar
import ModelRegistry.Proofs.Strictness
import ModelRegistry.Proofs.Treatment
import ModelRegistry.Proofs.Replay
import ModelRegistry.Proofs.Frame
import ModelRegistry.Proofs.Locality
import ModelRegistry.Proofs.Rerun
import ModelRegistry.Proofs.SortedEntries
import ModelRegistry.Proofs.Trees
import ModelRegistry.Proofs.Documents
import ModelRegistry.Proofs.Decoders
import ModelRegistry.Proofs.Records
import ModelRegistry.Proofs.RegistryReading
import ModelRegistry.Proofs.Literals
import ModelRegistry.Proofs.Rounding
import ModelRegistry.Proofs.Doubles
import ModelRegistry.Proofs.DoubleText
import ModelRegistry.Proofs.Rereading
import ModelRegistry.Proofs.WrittenText
import ModelRegistry.Proofs.RoundTrip
import ModelRegistry.Proofs.FixedPoint
import ModelRegistry.Proofs.Events
import ModelRegistry.Proofs.Parents
import ModelRegistry.Proofs.TaggedObjects
import ModelRegistry.Proofs.ReportReading
import ModelRegistry.Proofs.CompleteDocuments
import ModelRegistry.Proofs.ValidTexts
import ModelRegistry.Proofs.FiniteNumbers
import ModelRegistry.Proofs.Spacing
import ModelRegistry.Proofs.Rearrangement
import ModelRegistry.Proofs.StableDecoders
import ModelRegistry.Proofs.Reproducibility
import ModelRegistry.Proofs.Files
import ModelRegistry.Proofs.CommandRuns
import ModelRegistry.Proofs.Warnings
import ModelRegistry.Proofs.Precheck
import ModelRegistry.Proofs.Rejection
import ModelRegistry.Proofs.ArgumentGrammar
import ModelRegistry.Proofs.CommandGrammar
import ModelRegistry.Proofs.PropertiesReading
import ModelRegistry.Proofs.FrontEnd
import ModelRegistry.Proofs.Growth
import ModelRegistry.Proofs.PathPrefix
import ModelRegistry.Proofs.RegistryGrammar
import ModelRegistry.Proofs.SupportedFeatures
import ModelRegistry.Proofs.InsertionOrder
import ModelRegistry.Proofs.CanonicalOrder
