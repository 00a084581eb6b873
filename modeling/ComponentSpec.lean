import ComponentSpec.Annotate
import ComponentSpec.Assembly
import ComponentSpec.Blueprint
import ComponentSpec.Build
import ComponentSpec.CommandLine.Arguments
import ComponentSpec.CommandLine.Run
import ComponentSpec.CommandLine.Words
import ComponentSpec.Declarations
import ComponentSpec.Disk.Changes
import ComponentSpec.Disk.Path
import ComponentSpec.Disk.Pattern
import ComponentSpec.Disk.Search
import ComponentSpec.Disk.Tree
import ComponentSpec.Display
import ComponentSpec.Facet.Command
import ComponentSpec.Facet.Event
import ComponentSpec.Facet.Inherited
import ComponentSpec.Facet.Options
import ComponentSpec.Fault
import ComponentSpec.Json.Reader
import ComponentSpec.Json.Writer
import ComponentSpec.Library
import ComponentSpec.Main
import ComponentSpec.Members
import ComponentSpec.Node
import ComponentSpec.Number.Decimal
import ComponentSpec.Number.Double
import ComponentSpec.Number.Shortest
import ComponentSpec.Schema.Component
import ComponentSpec.Schema.SchemaType
import ComponentSpec.Settings
import ComponentSpec.Text.Blank
import ComponentSpec.Text.Codes
import ComponentSpec.Text.Digit
import ComponentSpec.Text.Letter
import ComponentSpec.Text.Lines
import ComponentSpec.Text.Lowercase
import ComponentSpec.Text.Printable
import ComponentSpec.Text.Quoted
import ComponentSpec.Text.Ranges
import ComponentSpec.Text.Utf8
import ComponentSpec.Trace
import ComponentSpec.Value
import ComponentSpec.Proofs.Tables
import ComponentSpec.Proofs.Checked
import ComponentSpec.Proofs.Parts
import ComponentSpec.Proofs.Members
import ComponentSpec.Proofs.Expansion
import ComponentSpec.Proofs.Sample
import ComponentSpec.Proofs.Annotations
import ComponentSpec.Proofs.Outline
import ComponentSpec.Proofs.Depth
import ComponentSpec.Proofs.Acyclic
import ComponentSpec.Proofs.Plain
import ComponentSpec.Proofs.Circle
import ComponentSpec.Proofs.Assembly
import ComponentSpec.Proofs.Lookups
import ComponentSpec.Proofs.Stages
import ComponentSpec.Proofs.Statements
import ComponentSpec.Proofs.Commands
import ComponentSpec.Proofs.Naming
import ComponentSpec.Proofs.Levels
import ComponentSpec.Proofs.Defaults
import ComponentSpec.Proofs.Erasure
import ComponentSpec.Proofs.Counterparts
import ComponentSpec.Proofs.Enclosing
import ComponentSpec.Proofs.InterfaceAlias
import ComponentSpec.Proofs.Rewriting
import ComponentSpec.Proofs.Alike
import ComponentSpec.Proofs.Dialect
import ComponentSpec.Proofs.Twins
import ComponentSpec.Proofs.DialectTypes
import ComponentSpec.Proofs.DialectFacets
import ComponentSpec.Proofs.DialectSchema
import ComponentSpec.Proofs.Sequence
import ComponentSpec.Proofs.Reading
import ComponentSpec.Proofs.Wrapping
import ComponentSpec.Proofs.Unfiled
import ComponentSpec.Proofs.Building
import ComponentSpec.Proofs.Platforms
import ComponentSpec.Proofs.Reducing
import ComponentSpec.Proofs.Checking
import ComponentSpec.Proofs.Searching
import ComponentSpec.Proofs.Transparency
import ComponentSpec.Proofs.Files
import ComponentSpec.Proofs.Spelling
import ComponentSpec.Proofs.Delivery
import ComponentSpec.Proofs.Nullability
import ComponentSpec.Proofs.DeclaredDefaults
import ComponentSpec.Proofs.Enums
import ComponentSpec.Proofs.Options
import ComponentSpec.Proofs.ListedCommands
import ComponentSpec.Proofs.Chains
import ComponentSpec.Proofs.Combining
import ComponentSpec.Proofs.Filing
import ComponentSpec.Proofs.Paths
import ComponentSpec.Proofs.Patterns
import ComponentSpec.Proofs.Ways
import ComponentSpec.Proofs.Collecting
import ComponentSpec.Proofs.Grouping
