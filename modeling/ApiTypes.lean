import ApiTypes.Binary64
import ApiTypes.Binary64.Arithmetic
import ApiTypes.Binary64.Digits
import ApiTypes.Binding
import ApiTypes.CommandLine
import ApiTypes.CommandLine.Arguments
import ApiTypes.CommandLine.Plan
import ApiTypes.Composition
import ApiTypes.Config
import ApiTypes.Constraints
import ApiTypes.Constraints.Intersection
import ApiTypes.Data
import ApiTypes.Data.Json
import ApiTypes.Data.Yaml
import ApiTypes.Data.Yaml.Scalar
import ApiTypes.Declaration
import ApiTypes.Diagnostic
import ApiTypes.Document
import ApiTypes.Document.Content
import ApiTypes.Document.Parameter
import ApiTypes.Document.PathItem
import ApiTypes.Document.Schema
import ApiTypes.Document.SchemaReading
import ApiTypes.Document.SchemaWriting
import ApiTypes.Failure
import ApiTypes.File
import ApiTypes.Lowering
import ApiTypes.Main
import ApiTypes.Naming
import ApiTypes.Naming.Route
import ApiTypes.Node
import ApiTypes.Normalization
import ApiTypes.Pointer
import ApiTypes.Primitive
import ApiTypes.Proofs.Acceptance
import ApiTypes.Proofs.Additions
import ApiTypes.Proofs.AliasCycles
import ApiTypes.Proofs.ArrayLimits
import ApiTypes.Proofs.Arrays
import ApiTypes.Proofs.ChoiceMembers
import ApiTypes.Proofs.Composition
import ApiTypes.Proofs.Contributions
import ApiTypes.Proofs.Declaration
import ApiTypes.Proofs.Dependents
import ApiTypes.Proofs.DocumentSchemas
import ApiTypes.Proofs.Emission
import ApiTypes.Proofs.EnumValues
import ApiTypes.Proofs.Extension
import ApiTypes.Proofs.Finish
import ApiTypes.Proofs.FurtherProperties
import ApiTypes.Proofs.InheritedTypes
import ApiTypes.Proofs.Inlining
import ApiTypes.Proofs.Invariance
import ApiTypes.Proofs.JsonData
import ApiTypes.Proofs.JsonTrees
import ApiTypes.Proofs.Keywords
import ApiTypes.Proofs.Lowering
import ApiTypes.Proofs.MergeSteps
import ApiTypes.Proofs.MergedConstraints
import ApiTypes.Proofs.MergedMembers
import ApiTypes.Proofs.NeutralMembers
import ApiTypes.Proofs.Node
import ApiTypes.Proofs.NodeParts
import ApiTypes.Proofs.Normalization
import ApiTypes.Proofs.Nullability
import ApiTypes.Proofs.Outline
import ApiTypes.Proofs.ParameterOverrides
import ApiTypes.Proofs.PartialEquivalence
import ApiTypes.Proofs.Pointer
import ApiTypes.Proofs.Precedence
import ApiTypes.Proofs.RecordForms
import ApiTypes.Proofs.RecordMerge
import ApiTypes.Proofs.ReferenceChains
import ApiTypes.Proofs.References
import ApiTypes.Proofs.Registry
import ApiTypes.Proofs.Registry.Bisimulation
import ApiTypes.Proofs.Registry.Comparison
import ApiTypes.Proofs.Registry.Equivalence
import ApiTypes.Proofs.Registry.History
import ApiTypes.Proofs.Registry.Identifiers
import ApiTypes.Proofs.Registry.Pairing
import ApiTypes.Proofs.Registry.PartialEquivalence
import ApiTypes.Proofs.Registry.Support
import ApiTypes.Proofs.Reordering
import ApiTypes.Proofs.Reports
import ApiTypes.Proofs.RequiredFields
import ApiTypes.Proofs.ReservedWords
import ApiTypes.Proofs.RoundTrip
import ApiTypes.Proofs.Rounding
import ApiTypes.Proofs.Satisfaction.Divisors
import ApiTypes.Proofs.Satisfaction.Equivalence
import ApiTypes.Proofs.Satisfaction.Intersection
import ApiTypes.Proofs.Satisfaction.Merging
import ApiTypes.Proofs.Satisfaction.Ranges
import ApiTypes.Proofs.Satisfaction.Types
import ApiTypes.Proofs.Satisfaction.Value
import ApiTypes.Proofs.Satisfaction.Walk
import ApiTypes.Proofs.Schema
import ApiTypes.Proofs.SchemaNodes
import ApiTypes.Proofs.SchemaReading
import ApiTypes.Proofs.Search
import ApiTypes.Proofs.Spelling
import ApiTypes.Proofs.Splicing
import ApiTypes.Proofs.Stacks
import ApiTypes.Proofs.Synthesis.Abreast
import ApiTypes.Proofs.Synthesis.Accounting
import ApiTypes.Proofs.Synthesis.Addition
import ApiTypes.Proofs.Synthesis.Adequacy
import ApiTypes.Proofs.Synthesis.Agreement
import ApiTypes.Proofs.Synthesis.Alarms
import ApiTypes.Proofs.Synthesis.Beginnings
import ApiTypes.Proofs.Synthesis.Bindings
import ApiTypes.Proofs.Synthesis.Blame
import ApiTypes.Proofs.Synthesis.BoundTypes
import ApiTypes.Proofs.Synthesis.Candidates
import ApiTypes.Proofs.Synthesis.ChoiceCases
import ApiTypes.Proofs.Synthesis.Choices
import ApiTypes.Proofs.Synthesis.Concurrence
import ApiTypes.Proofs.Synthesis.Consistency
import ApiTypes.Proofs.Synthesis.Correspondence
import ApiTypes.Proofs.Synthesis.Coverage
import ApiTypes.Proofs.Synthesis.DeclaredShapes
import ApiTypes.Proofs.Synthesis.Demands
import ApiTypes.Proofs.Synthesis.Entries
import ApiTypes.Proofs.Synthesis.Execution
import ApiTypes.Proofs.Synthesis.Exploration
import ApiTypes.Proofs.Synthesis.FailurePlaces
import ApiTypes.Proofs.Synthesis.Growth
import ApiTypes.Proofs.Synthesis.Inclusion
import ApiTypes.Proofs.Synthesis.Inheritance
import ApiTypes.Proofs.Synthesis.Inlining
import ApiTypes.Proofs.Synthesis.Inversion
import ApiTypes.Proofs.Synthesis.Knowledge
import ApiTypes.Proofs.Synthesis.Maintenance
import ApiTypes.Proofs.Synthesis.Mentions
import ApiTypes.Proofs.Synthesis.OperationTraversal
import ApiTypes.Proofs.Synthesis.Operations
import ApiTypes.Proofs.Synthesis.Outcome
import ApiTypes.Proofs.Synthesis.Outlines
import ApiTypes.Proofs.Synthesis.PacedIntersections
import ApiTypes.Proofs.Synthesis.PacedSchemas
import ApiTypes.Proofs.Synthesis.PacedWalks
import ApiTypes.Proofs.Synthesis.Pacing
import ApiTypes.Proofs.Synthesis.Padding
import ApiTypes.Proofs.Synthesis.Reachability
import ApiTypes.Proofs.Synthesis.Records
import ApiTypes.Proofs.Synthesis.Recurrence
import ApiTypes.Proofs.Synthesis.Reporting
import ApiTypes.Proofs.Synthesis.Reservation
import ApiTypes.Proofs.Synthesis.Run
import ApiTypes.Proofs.Synthesis.Splicing
import ApiTypes.Proofs.Synthesis.Standing
import ApiTypes.Proofs.Synthesis.Steps
import ApiTypes.Proofs.Synthesis.Traversal
import ApiTypes.Proofs.Synthesis.Unfolding
import ApiTypes.Proofs.Synthesis.Warnings
import ApiTypes.Proofs.Table
import ApiTypes.Proofs.Termination
import ApiTypes.Proofs.TypeLists
import ApiTypes.Proofs.ValueRoundTrip
import ApiTypes.Proofs.Versions
import ApiTypes.Proofs.Warnings
import ApiTypes.Proofs.Withdrawal
import ApiTypes.Reading
import ApiTypes.Reading.Error
import ApiTypes.Reading.RecordForm
import ApiTypes.Registry
import ApiTypes.Registry.Equivalence
import ApiTypes.Resolver
import ApiTypes.Search
import ApiTypes.Source
import ApiTypes.Source.Fault
import ApiTypes.Source.JsonNumber
import ApiTypes.Source.JsonString
import ApiTypes.Source.JsonText
import ApiTypes.Source.Yaml.BlockScalar
import ApiTypes.Source.Yaml.Characters
import ApiTypes.Source.Yaml.Collection
import ApiTypes.Source.Yaml.Node
import ApiTypes.Source.Yaml.Scalar
import ApiTypes.Source.Yaml.Token
import ApiTypes.Source.Yaml.Tokens
import ApiTypes.Source.Yaml.Tree
import ApiTypes.Source.Yaml.Word
import ApiTypes.Summary
import ApiTypes.Synthesis
import ApiTypes.Synthesis.Alias
import ApiTypes.Synthesis.Component
import ApiTypes.Synthesis.Operations
import ApiTypes.Synthesis.Walk
import ApiTypes.Synthesis.Withdrawal
import ApiTypes.Synthesis.Workspace
import ApiTypes.Table
import ApiTypes.Text.Case
import ApiTypes.Text.Hidden
import ApiTypes.Text.Letters
import ApiTypes.Text.Words
import ApiTypes.TypeExpr
