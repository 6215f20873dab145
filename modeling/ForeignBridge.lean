import ForeignBridge.Main
import ForeignBridge.Session
import ForeignBridge.Proofs.Activity
import ForeignBridge.Proofs.CleanRuns
import ForeignBridge.Proofs.RootCounts
import ForeignBridge.Proofs.RoundTrip
import ForeignBridge.Proofs.Grammar
import ForeignBridge.Proofs.ViablePrefixes
import ForeignBridge.Proofs.FamilyOutcomes
import ForeignBridge.Proofs.TypeOutcomes
import ForeignBridge.Proofs.RegistryRuns
import ForeignBridge.Proofs.Repetitions
import ForeignBridge.Proofs.Introspection
import ForeignBridge.Proofs.Renderings
import ForeignBridge.Proofs.Translations
import ForeignBridge.Proofs.Cycles
import ForeignBridge.Proofs.Listings
import ForeignBridge.Proofs.Requirements
import ForeignBridge.Proofs.TypeIdentity
import ForeignBridge.Proofs.Fingerprints
import ForeignBridge.Proofs.TypeNames
import ForeignBridge.Proofs.Agreement
import ForeignBridge.Proofs.Tracing
import ForeignBridge.Proofs.Traceless
import ForeignBridge.Proofs.Phases
import ForeignBridge.Proofs.Namespaces
import ForeignBridge.Proofs.Dictionaries
import ForeignBridge.Proofs.Signatures
import ForeignBridge.Proofs.Undisturbed
import ForeignBridge.Proofs.Descriptions
import ForeignBridge.Proofs.Depths
