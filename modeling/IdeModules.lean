import IdeModules.Main
import IdeModules.Proofs.Classification
import IdeModules.Proofs.DeclarationOrder
import IdeModules.Proofs.Libraries
import IdeModules.Proofs.Flattening
import IdeModules.Proofs.Xml.Cutting
import IdeModules.Proofs.Xml.Names
import IdeModules.Proofs.Xml.Escaping
import IdeModules.Proofs.Xml.Tags
import IdeModules.Proofs.Xml.Consumption
import IdeModules.Proofs.Xml.Pieces
import IdeModules.Proofs.Xml.LineEnds
import IdeModules.Proofs.Xml.Trees
import IdeModules.Proofs.Xml.Printing
import IdeModules.Proofs.Xml.Prefixes
import IdeModules.Proofs.Xml.Building
import IdeModules.Proofs.Xml.Documents
import IdeModules.Proofs.Xml.Prologs
import IdeModules.Proofs.Descriptor.Made
import IdeModules.Proofs.Xml.Acceptance
import IdeModules.Proofs.Xml.Indentation
import IdeModules.Proofs.Descriptor.Writing
import IdeModules.Proofs.Descriptor.Rewriting
import IdeModules.Proofs.Descriptor.Reading
import IdeModules.Proofs.Descriptor.Frame
import IdeModules.Proofs.Descriptor.Saving
import IdeModules.Proofs.Descriptor.RoundTrip
import IdeModules.Proofs.Descriptor.Generated
import IdeModules.Proofs.Descriptor.Merging
import IdeModules.Proofs.FileTree
import IdeModules.Proofs.Run
import IdeModules.Proofs.Generation
import IdeModules.Proofs.Regeneration
import IdeModules.Proofs.ContentRoots
import IdeModules.Proofs.FeedOrder
import IdeModules.Proofs.Xml.Resemblance
import IdeModules.Proofs.Descriptor.Overwriting
import IdeModules.Proofs.Remembering
import IdeModules.Disk
import IdeModules.Proofs.Disk
import IdeModules.Proofs.Raising
import IdeModules.Proofs.Drafts
import IdeModules.Proofs.Stopping
import IdeModules.Proofs.Targets
import IdeModules.Proofs.Halting
import IdeModules.Proofs.FileTree.PlainPaths
import IdeModules.Proofs.Overlays
import IdeModules.Proofs.Previews
import IdeModules.Proofs.Interleaving
import IdeModules.Proofs.Restriction
import IdeModules.Proofs.Preparation
import IdeModules.Proofs.Xml.Comments
import IdeModules.Proofs.FileTree.Standing
import IdeModules.Proofs.Workspace
import IdeModules.Proofs.Rerun
import IdeModules.Proofs.Rendering
import IdeModules.Proofs.Ownership
import IdeModules.Proofs.Declarations
import IdeModules.Proofs.Verbatim
import IdeModules.Proofs.Xml.Rearrangement
import IdeModules.Proofs.Descriptor.LastWriter
import IdeModules.Proofs.Failing
import IdeModules.Proofs.Loading
import IdeModules.Proofs.Entries
import IdeModules.Proofs.Identities
import IdeModules.Proofs.Inheritance
import IdeModules.Proofs.Reporting
import IdeModules.Proofs.OrderEntries
import IdeModules.Proofs.PathVariables
import IdeModules.Proofs.Json.Worth
import IdeModules.Proofs.FirstPlaces
import IdeModules.Proofs.Layout
import IdeModules.Proofs.Diagnostics
import IdeModules.Proofs.Overriding
import IdeModules.Proofs.Levels
import IdeModules.Proofs.StoredPaths
import IdeModules.Proofs.Listing
import IdeModules.Proofs.Descriptor.Grouping
