import CoreLocator.Files.Directory
import CoreLocator.Main
import CoreLocator.Network.Answering
import CoreLocator.Network.Offline
import CoreLocator.Network.Scripted
import CoreLocator.Proofs.Network.Scripted
import CoreLocator.Proofs.Response.Body
import CoreLocator.Proofs.Decimal
import CoreLocator.Proofs.Response.Head
import CoreLocator.Proofs.Candidate
import CoreLocator.Proofs.Discovery.Stages
import CoreLocator.Proofs.Discovery.Framing
import CoreLocator.Proofs.Discovery.Traffic
import CoreLocator.Proofs.Network.Simulation
import CoreLocator.Proofs.Discovery.Simulation
import CoreLocator.Proofs.Discovery.Teardown
import CoreLocator.Proofs.Network.History
import CoreLocator.Proofs.Discovery.Isolation
import CoreLocator.Proofs.Response.Delivery
import CoreLocator.Proofs.Discovery.Agreement
import CoreLocator.Proofs.Discovery.Capacity
import CoreLocator.Proofs.Discovery.Chunking
import CoreLocator.Proofs.Bytes
import CoreLocator.Proofs.Utf8
import CoreLocator.Proofs.Json.Spelling
import CoreLocator.Proofs.Json.Tree
import CoreLocator.Proofs.Json.Skim
import CoreLocator.Proofs.Json.Literal
import CoreLocator.Proofs.Json.Path
import CoreLocator.Proofs.Json.Steps
import CoreLocator.Proofs.Json.Lookup
import CoreLocator.Proofs.Json.Acceptance
import CoreLocator.Proofs.Document
import CoreLocator.Proofs.Selection
import CoreLocator.Proofs.Document.Renaming
import CoreLocator.Proofs.Discovery.Interpretation
import CoreLocator.Proofs.Response.Scanner
import CoreLocator.Proofs.Response.Completion
import CoreLocator.Proofs.Response.Declared
import CoreLocator.Proofs.Json.Writing
import CoreLocator.Proofs.Json.Record
import CoreLocator.Proofs.Settings.File
import CoreLocator.Proofs.Discovery.Admission
import CoreLocator.Proofs.Settings.Check
import CoreLocator.Proofs.Retry
import CoreLocator.Proofs.Response.Fetch
import CoreLocator.Proofs.Response.Outcome
import CoreLocator.Proofs.Network.Transcript
import CoreLocator.Proofs.Discovery.Custody
import CoreLocator.Proofs.Response.Matcher
import CoreLocator.Proofs.Response.Refusal
import CoreLocator.Proofs.Response.Reading
import CoreLocator.Proofs.Response.Streaming
import CoreLocator.Proofs.Certificate
import CoreLocator.Proofs.Certificate.Decoding
import CoreLocator.Proofs.Discovery.Presentable
import CoreLocator.Proofs.Discovery.Enumeration
import CoreLocator.Proofs.Request.Line
import CoreLocator.Proofs.Retry.Attempts
import CoreLocator.Proofs.Json.Denotation
import CoreLocator.Proofs.Report
import CoreLocator.Proofs.CommandLine.Overlay
import CoreLocator.Proofs.Decimal.Leading
import CoreLocator.Proofs.Response.Capture
import CoreLocator.Proofs.Document.Paths
import CoreLocator.Proofs.Network.Sending
