import SchemaScript.Main
import SchemaScript.Session
import SchemaScript.Proofs.Distinct
import SchemaScript.Proofs.Reach
import SchemaScript.Proofs.Merge
import SchemaScript.Proofs.Sections
import SchemaScript.Proofs.CreationOrder
import SchemaScript.Proofs.Inventory
import SchemaScript.Proofs.AllOrNothing
import SchemaScript.Proofs.History
import SchemaScript.Proofs.Turns
import SchemaScript.Proofs.Paths
import SchemaScript.Proofs.Cycles
import SchemaScript.Proofs.Expansion
import SchemaScript.Proofs.CycleReport
import SchemaScript.Proofs.CycleDetection
import SchemaScript.Proofs.Naming
import SchemaScript.Proofs.NullFree
import SchemaScript.Proofs.Loaded
import SchemaScript.Proofs.Outcome
import SchemaScript.Proofs.Description
import SchemaScript.Proofs.Layout
import SchemaScript.Proofs.Reading
import SchemaScript.Proofs.Decoding
import SchemaScript.Proofs.Lexing
import SchemaScript.Proofs.Containment
import SchemaScript.Proofs.Staging
import SchemaScript.Proofs.Rearrangement
import SchemaScript.Proofs.Documents
import SchemaScript.Proofs.DeclarationOrder
import SchemaScript.Proofs.FilterUnion
import SchemaScript.Proofs.Reloading
import SchemaScript.Proofs.LoadingPaths
import SchemaScript.Proofs.DepthFirst
import SchemaScript.Proofs.Repeats
import SchemaScript.Proofs.Batches
import SchemaScript.Proofs.Additions
import SchemaScript.Proofs.Ways
import SchemaScript.Proofs.Footprint
import SchemaScript.Proofs.Halting
import SchemaScript.Proofs.Gathering
import SchemaScript.Proofs.Forms
import SchemaScript.Proofs.Scanning
import SchemaScript.Proofs.Tokens
import SchemaScript.Proofs.Nodes
import SchemaScript.Proofs.Noting
import SchemaScript.Log.Nesting
import SchemaScript.Proofs.Accepting
import SchemaScript.Proofs.Grammar
import SchemaScript.Proofs.UnknownKeys
import SchemaScript.Proofs.Overrides
import SchemaScript.Proofs.KeptSettings
import SchemaScript.Proofs.Keys
import SchemaScript.Proofs.Nesting
import SchemaScript.Proofs.Discovery
import SchemaScript.Proofs.LiteralLists
