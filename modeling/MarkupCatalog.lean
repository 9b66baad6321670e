import MarkupCatalog.Text.Lines
import MarkupCatalog.Identifier
import MarkupCatalog.Header
import MarkupCatalog.Options.View
import MarkupCatalog.Options.Attributes
import MarkupCatalog.Config
import MarkupCatalog.Block
import MarkupCatalog.Entry
import MarkupCatalog.Entry.Session
import MarkupCatalog.CommandLine.Arguments
import MarkupCatalog.CommandLine.FileTree
import MarkupCatalog.CommandLine.Run
import MarkupCatalog.Header.Sample
import MarkupCatalog.Main
import MarkupCatalog.CommandLine.Aftermath
import MarkupCatalog.Proofs.Block.Places
import MarkupCatalog.Proofs.Block.Spans
import MarkupCatalog.Proofs.Block.Removal
import MarkupCatalog.Proofs.Block.Source
import MarkupCatalog.Proofs.Options.Reading
import MarkupCatalog.Proofs.Entry.Parse
import MarkupCatalog.Proofs.Header.Marks
import MarkupCatalog.Proofs.Header.Written
import MarkupCatalog.Proofs.Block.Unopened
import MarkupCatalog.Proofs.Draft
import MarkupCatalog.Proofs.RoundTrip
import MarkupCatalog.Proofs.Layout
import MarkupCatalog.Proofs.Entry.Session
import MarkupCatalog.Proofs.Block.Opening
import MarkupCatalog.Proofs.Entry.Writing
import MarkupCatalog.Proofs.CommandLine.Inputs
import MarkupCatalog.Proofs.CommandLine.Serving
import MarkupCatalog.Proofs.Block.Locality
import MarkupCatalog.Proofs.Block.Context
import MarkupCatalog.Proofs.Text.Words
import MarkupCatalog.Proofs.Entry.Identity
import MarkupCatalog.Proofs.Header.Division
import MarkupCatalog.Proofs.Header.Compound
import MarkupCatalog.Proofs.Header.Shape
import MarkupCatalog.Proofs.Layout.Margin
import MarkupCatalog.Proofs.Layout.Relaid
import MarkupCatalog.Proofs.Entry.Content
import MarkupCatalog.Proofs.Block.Warning
import MarkupCatalog.Proofs.Options.Attributes
import MarkupCatalog.Proofs.Entry.Export
import MarkupCatalog.Proofs.Entry.Ending
import MarkupCatalog.Proofs.Value.Plain
import MarkupCatalog.Proofs.Entry.Reimport
import MarkupCatalog.Proofs.Options.View
import MarkupCatalog.Proofs.Config.Merging
import MarkupCatalog.Proofs.Comment.Parts
