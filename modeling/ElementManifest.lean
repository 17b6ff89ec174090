import ElementManifest.Main
import ElementManifest.Proofs.AttributeNames
import ElementManifest.Proofs.DocBlocks
import ElementManifest.Proofs.NormalizedPlaces
import ElementManifest.Proofs.CallSites
import ElementManifest.Proofs.ConfigSearch
import ElementManifest.Proofs.Conservation
import ElementManifest.Proofs.ExportChains
import ElementManifest.Proofs.Fallback
import ElementManifest.Proofs.FileIdentity
import ElementManifest.Proofs.FirstWrite
import ElementManifest.Proofs.GlobSpelling
import ElementManifest.Proofs.Inspections
import ElementManifest.Proofs.MovedProjects
import ElementManifest.Proofs.Outputs
import ElementManifest.Proofs.PathOrder
import ElementManifest.Proofs.PathPlaces
import ElementManifest.Proofs.Rerun
import ElementManifest.Proofs.SameInference
import ElementManifest.Proofs.ScanOnce
import ElementManifest.Proofs.ScannedFiles
import ElementManifest.Proofs.Schedules
import ElementManifest.Proofs.SharedCache
import ElementManifest.Proofs.StackDiscipline
import ElementManifest.Proofs.SplitPatterns
import ElementManifest.Proofs.TestFiles
import ElementManifest.Proofs.Transparency
import ElementManifest.Proofs.WellFormedShapes
import ElementManifest.Proofs.Codecs
import ElementManifest.Proofs.GenericInstances
import ElementManifest.Proofs.OwnMembers
import ElementManifest.Proofs.OwnNames
import ElementManifest.Proofs.ExpandedForms
import ElementManifest.Proofs.InterfaceOrAlias
import ElementManifest.Proofs.LiteralContents
import ElementManifest.Proofs.UnionParts
import ElementManifest.Proofs.UnionOrder
import ElementManifest.Proofs.PickAndOmit
import ElementManifest.Proofs.DescriptionLines
import ElementManifest.Proofs.Parentheses
