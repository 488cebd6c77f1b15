import GraphQLModels.Main
import GraphQLModels.Model.Display
import GraphQLModels.Model.Generated
import GraphQLModels.Model.Session
import GraphQLModels.Proofs.ClassOrder
import GraphQLModels.Proofs.Dispatch
import GraphQLModels.Proofs.EnumMembers
import GraphQLModels.Proofs.RoundTrip
import GraphQLModels.Proofs.ScalarCoverage
import GraphQLModels.Proofs.UnionFields
import GraphQLModels.Proofs.UnionMembership
import GraphQLModels.Proofs.TidyReferences
import GraphQLModels.Proofs.ReferentialClosure
import GraphQLModels.Proofs.DocumentEdits
import GraphQLModels.Proofs.NullableFields
import GraphQLModels.Proofs.Nullability
import GraphQLModels.Proofs.ParentsFirst
import GraphQLModels.Proofs.Subtyping
import GraphQLModels.Proofs.InterfaceContracts
import GraphQLModels.Proofs.TargetPrecedence
import GraphQLModels.Proofs.FieldOverride
import GraphQLModels.Proofs.CommandOutcome
import GraphQLModels.Proofs.Connections
import GraphQLModels.Proofs.NodeTypes
import GraphQLModels.Proofs.DocumentReading
import GraphQLModels.Proofs.DescribedClasses
import GraphQLModels.Proofs.ContractTypes
import GraphQLModels.Proofs.CommonFields
import GraphQLModels.Proofs.HiddenTypes
import GraphQLModels.Proofs.Accessors
import GraphQLModels.Proofs.ScalarImports
import GraphQLModels.Proofs.Unwrapping
import GraphQLModels.Proofs.PaginationRule
import GraphQLModels.Proofs.Filters
import GraphQLModels.Proofs.SchemaOrder
import GraphQLModels.Proofs.DeclaredErrors
import GraphQLModels.Proofs.Sessions
import GraphQLModels.Proofs.ModuleDocstring
import GraphQLModels.Proofs.NeededImports
import GraphQLModels.Proofs.ReferenceReports
import GraphQLModels.Proofs.Undocumented
