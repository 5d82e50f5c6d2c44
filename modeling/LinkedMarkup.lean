import LinkedMarkup.Annotation.Element
import LinkedMarkup.Annotation.Evaluation
import LinkedMarkup.Annotation.Evaluation.Inheritance
import LinkedMarkup.Annotation.Evaluation.Property
import LinkedMarkup.Annotation.Evaluation.Roles
import LinkedMarkup.Annotation.Evaluation.StartTag
import LinkedMarkup.Annotation.Extraction
import LinkedMarkup.Annotation.ListForest
import LinkedMarkup.Annotation.Moment
import LinkedMarkup.Annotation.NodeSupply
import LinkedMarkup.Annotation.Prefixes
import LinkedMarkup.Annotation.Register
import LinkedMarkup.Annotation.Resolution
import LinkedMarkup.Annotation.Scope
import LinkedMarkup.Annotation.Settings
import LinkedMarkup.Annotation.Work
import LinkedMarkup.Command.Job
import LinkedMarkup.Command.Path
import LinkedMarkup.Command.Usage
import LinkedMarkup.Delivery.Gathering
import LinkedMarkup.Delivery.Handover
import LinkedMarkup.Delivery.Intake
import LinkedMarkup.Delivery.Scheduler
import LinkedMarkup.Delivery.Signal
import LinkedMarkup.Encoding.Utf8
import LinkedMarkup.Fault
import LinkedMarkup.Fault.Arguments
import LinkedMarkup.Iri.Reference
import LinkedMarkup.Iri.Validity
import LinkedMarkup.Log
import LinkedMarkup.Main
import LinkedMarkup.Markup.Document
import LinkedMarkup.Markup.Event
import LinkedMarkup.Markup.Html.Attribute
import LinkedMarkup.Markup.Html.CharacterNames
import LinkedMarkup.Markup.Html.CharacterReference
import LinkedMarkup.Markup.Html.Construction
import LinkedMarkup.Markup.Html.Nesting
import LinkedMarkup.Markup.Html.RawText
import LinkedMarkup.Markup.Html.Token
import LinkedMarkup.Markup.MediaType
import LinkedMarkup.Markup.Tree
import LinkedMarkup.Markup.Unfinished
import LinkedMarkup.Markup.Walk
import LinkedMarkup.Markup.Xml.Construction
import LinkedMarkup.Markup.Xml.Declarations
import LinkedMarkup.Markup.Xml.Namespaces
import LinkedMarkup.Markup.Xml.Syntax
import LinkedMarkup.Markup.Xml.Token
import LinkedMarkup.Number.Binary
import LinkedMarkup.Number.Datum
import LinkedMarkup.Number.Decimal
import LinkedMarkup.Number.Floating
import LinkedMarkup.Number.SignedRange
import LinkedMarkup.Proofs.Coupling.Attributes
import LinkedMarkup.Proofs.Coupling.Basic
import LinkedMarkup.Proofs.Coupling.Keeping
import LinkedMarkup.Proofs.Coupling.Padding
import LinkedMarkup.Proofs.Coupling.Property
import LinkedMarkup.Proofs.Coupling.Resolution
import LinkedMarkup.Proofs.Coupling.StartTag
import LinkedMarkup.Proofs.Coupling.Steps
import LinkedMarkup.Proofs.Delivery.Cancellation
import LinkedMarkup.Proofs.Delivery.Consumer
import LinkedMarkup.Proofs.Delivery.Course
import LinkedMarkup.Proofs.Delivery.Deliveries
import LinkedMarkup.Proofs.Delivery.Findings
import LinkedMarkup.Proofs.Delivery.Gathered
import LinkedMarkup.Proofs.Delivery.Outcome
import LinkedMarkup.Proofs.Delivery.Reception
import LinkedMarkup.Proofs.Delivery.Reporting
import LinkedMarkup.Proofs.Delivery.Streaming
import LinkedMarkup.Proofs.Encoding.Grammar
import LinkedMarkup.Proofs.Encoding.Malformed
import LinkedMarkup.Proofs.Encoding.Scanning
import LinkedMarkup.Proofs.Encoding.Sequences
import LinkedMarkup.Proofs.Evaluation.Advances
import LinkedMarkup.Proofs.Evaluation.Attributes
import LinkedMarkup.Proofs.Evaluation.Blocks
import LinkedMarkup.Proofs.Evaluation.Breaches
import LinkedMarkup.Proofs.Evaluation.Completion
import LinkedMarkup.Proofs.Evaluation.Content
import LinkedMarkup.Proofs.Evaluation.Contribution
import LinkedMarkup.Proofs.Evaluation.Emission
import LinkedMarkup.Proofs.Evaluation.Environment
import LinkedMarkup.Proofs.Evaluation.Growth
import LinkedMarkup.Proofs.Evaluation.History
import LinkedMarkup.Proofs.Evaluation.Immediate
import LinkedMarkup.Proofs.Evaluation.Independence
import LinkedMarkup.Proofs.Evaluation.Interruption
import LinkedMarkup.Proofs.Evaluation.Languages
import LinkedMarkup.Proofs.Evaluation.Lodging
import LinkedMarkup.Proofs.Evaluation.MemberOrder
import LinkedMarkup.Proofs.Evaluation.Naming
import LinkedMarkup.Proofs.Evaluation.Obligations
import LinkedMarkup.Proofs.Evaluation.Opening
import LinkedMarkup.Proofs.Evaluation.Ownership
import LinkedMarkup.Proofs.Evaluation.Placement
import LinkedMarkup.Proofs.Evaluation.Precedence
import LinkedMarkup.Proofs.Evaluation.Provenance
import LinkedMarkup.Proofs.Evaluation.Recognition
import LinkedMarkup.Proofs.Evaluation.References
import LinkedMarkup.Proofs.Evaluation.Refusals
import LinkedMarkup.Proofs.Evaluation.Resources
import LinkedMarkup.Proofs.Evaluation.Run
import LinkedMarkup.Proofs.Evaluation.Safety
import LinkedMarkup.Proofs.Evaluation.Siblings
import LinkedMarkup.Proofs.Evaluation.Styles
import LinkedMarkup.Proofs.Evaluation.Subjects
import LinkedMarkup.Proofs.Evaluation.Supplied
import LinkedMarkup.Proofs.Evaluation.Unbased
import LinkedMarkup.Proofs.Evaluation.Values
import LinkedMarkup.Proofs.Evaluation.Wrapping
import LinkedMarkup.Proofs.Evaluation.WrittenOnce
import LinkedMarkup.Proofs.Iri.Authority
import LinkedMarkup.Proofs.Iri.Fragment
import LinkedMarkup.Proofs.Lists.Accounts
import LinkedMarkup.Proofs.Lists.Collections
import LinkedMarkup.Proofs.Lists.Contents
import LinkedMarkup.Proofs.Lists.Factories
import LinkedMarkup.Proofs.Lists.FailedFlushes
import LinkedMarkup.Proofs.Lists.Forest
import LinkedMarkup.Proofs.Lists.Histories
import LinkedMarkup.Proofs.Lists.LateUses
import LinkedMarkup.Proofs.Lists.Links
import LinkedMarkup.Proofs.Lists.Owners
import LinkedMarkup.Proofs.Lists.Padding
import LinkedMarkup.Proofs.Lists.Returns
import LinkedMarkup.Proofs.Lists.Strands
import LinkedMarkup.Proofs.Lists.Uses
import LinkedMarkup.Proofs.Lists.Writing
import LinkedMarkup.Proofs.Markup.AttributeNames
import LinkedMarkup.Proofs.Markup.HtmlTrees
import LinkedMarkup.Proofs.Markup.Namespaces
import LinkedMarkup.Proofs.Markup.Nesting
import LinkedMarkup.Proofs.Markup.ReportedNames
import LinkedMarkup.Proofs.Markup.Scopes
import LinkedMarkup.Proofs.Markup.Traces
import LinkedMarkup.Proofs.Markup.Traversal
import LinkedMarkup.Proofs.Renaming.Emissions
import LinkedMarkup.Proofs.Renaming.Lists
import LinkedMarkup.Proofs.Renaming.Renamed
import LinkedMarkup.Proofs.Renaming.Sessions
import LinkedMarkup.Proofs.Renaming.Steps
import LinkedMarkup.Proofs.Renaming.Supply
import LinkedMarkup.Proofs.Standards.Basic
import LinkedMarkup.Proofs.Standards.StartTag
import LinkedMarkup.Proofs.Standards.Steps
import LinkedMarkup.Proofs.Standards.Validity
import LinkedMarkup.Proofs.Text.Cutting
import LinkedMarkup.Proofs.Text.Entries
import LinkedMarkup.Proofs.Work.Ensures
import LinkedMarkup.Proofs.Work.Faults
import LinkedMarkup.Proofs.Work.Secures
import LinkedMarkup.Statement.LanguageTag
import LinkedMarkup.Statement.Namespace
import LinkedMarkup.Statement.Quad
import LinkedMarkup.Statement.Record
import LinkedMarkup.Statement.Term
import LinkedMarkup.Store.Canonical
import LinkedMarkup.Store.Document
import LinkedMarkup.Store.Graph
import LinkedMarkup.Store.Query
import LinkedMarkup.Store.Query.Literal
import LinkedMarkup.Store.Query.Name
import LinkedMarkup.Store.Query.Reader
import LinkedMarkup.Text.Blank
import LinkedMarkup.Text.Case
import LinkedMarkup.Text.Digit
import LinkedMarkup.Text.Entries
import LinkedMarkup.Text.Letter
import LinkedMarkup.Text.Printable
import LinkedMarkup.Text.Split
import LinkedMarkup.Time.Calendar
import LinkedMarkup.Time.Duration
import LinkedMarkup.Time.Instant
import LinkedMarkup.Proofs.Scheduling.Reentrancy
import LinkedMarkup.Proofs.Prefixes.CompactNames
import LinkedMarkup.Proofs.Scheduling.Order
import LinkedMarkup.Proofs.Coupling.Events
import LinkedMarkup.Proofs.Nodes.Identity
import LinkedMarkup.Proofs.Moments.Durations
import LinkedMarkup.Proofs.Moments.Forms
import LinkedMarkup.Proofs.Evaluation.CapturedMarkup
import LinkedMarkup.Proofs.Iri.SameDocument
import LinkedMarkup.Proofs.Command.Arguments
import LinkedMarkup.Proofs.Command.Endings
import LinkedMarkup.Proofs.Capturing.Registers
import LinkedMarkup.Proofs.Capturing.Removal
