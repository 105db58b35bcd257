import CodeAtlas.Main
import CodeAtlas.Proofs.AncestorChains
import CodeAtlas.Proofs.Arrangement
import CodeAtlas.Proofs.Attributes
import CodeAtlas.Proofs.BuildOrder
import CodeAtlas.Proofs.BuildSteps
import CodeAtlas.Proofs.Building
import CodeAtlas.Proofs.CallSites
import CodeAtlas.Proofs.Condense
import CodeAtlas.Proofs.Consistency
import CodeAtlas.Proofs.Containment
import CodeAtlas.Proofs.Contents
import CodeAtlas.Proofs.Declarations
import CodeAtlas.Proofs.DeclaredTables
import CodeAtlas.Proofs.DirectoryNames
import CodeAtlas.Proofs.DocumentRecords
import CodeAtlas.Proofs.DottedNames
import CodeAtlas.Proofs.Drafts
import CodeAtlas.Proofs.Enclosure
import CodeAtlas.Proofs.Exports.Evaluation
import CodeAtlas.Proofs.Exports.Frame
import CodeAtlas.Proofs.Exports.Settle
import CodeAtlas.Proofs.Exports.Stability
import CodeAtlas.Proofs.Exports.Statements
import CodeAtlas.Proofs.Findings
import CodeAtlas.Proofs.FirstDeclarations
import CodeAtlas.Proofs.Folds
import CodeAtlas.Proofs.Footprints
import CodeAtlas.Proofs.Imports.Frame
import CodeAtlas.Proofs.Imports.Meaning
import CodeAtlas.Proofs.Imports.Request
import CodeAtlas.Proofs.Imports.Resolution
import CodeAtlas.Proofs.Imports.Settle
import CodeAtlas.Proofs.Imports.Traversal
import CodeAtlas.Proofs.Imports.Wildcards
import CodeAtlas.Proofs.InstanceAttributes
import CodeAtlas.Proofs.JsonText
import CodeAtlas.Proofs.Layout
import CodeAtlas.Proofs.Lifting
import CodeAtlas.Proofs.LiveNames
import CodeAtlas.Proofs.Nesting
import CodeAtlas.Proofs.Orderly
import CodeAtlas.Proofs.Outline
import CodeAtlas.Proofs.Ownership
import CodeAtlas.Proofs.Passes
import CodeAtlas.Proofs.Places
import CodeAtlas.Proofs.QualNames
import CodeAtlas.Proofs.Refinements
import CodeAtlas.Proofs.RelationTypes
import CodeAtlas.Proofs.RelativeImports
import CodeAtlas.Proofs.SavedSettings
import CodeAtlas.Proofs.Scanning
import CodeAtlas.Proofs.Schedules
import CodeAtlas.Proofs.Sessions
import CodeAtlas.Proofs.Settling
import CodeAtlas.Proofs.Shelves
import CodeAtlas.Proofs.SingleModule
import CodeAtlas.Proofs.SourceFiles
import CodeAtlas.Proofs.Store
import CodeAtlas.Proofs.StoreRuns
import CodeAtlas.Proofs.SyntaxTrees
import CodeAtlas.Proofs.TreeDocument
import CodeAtlas.Proofs.Turns
import CodeAtlas.Proofs.Visits
import CodeAtlas.Proofs.Walk
import CodeAtlas.Proofs.Walking
import CodeAtlas.Session
