import Wireform.Builder
import Wireform.FieldSequence
import Wireform.Main
import Wireform.Proofs.Checked
import Wireform.Proofs.Segments
import Wireform.Proofs.Content
import Wireform.Proofs.Parser
import Wireform.Proofs.Scanning
import Wireform.Proofs.Reading
import Wireform.Proofs.Nesting
import Wireform.Proofs.Containment
import Wireform.Proofs.SelfDelimiting
import Wireform.Proofs.Numbers
import Wireform.Proofs.Encoding
import Wireform.Proofs.Success
import Wireform.Proofs.Scripts
import Wireform.Proofs.Writing
import Wireform.Proofs.Appending
import Wireform.Proofs.RoundTrip
import Wireform.Proofs.Resolution
import Wireform.Proofs.WellFormed
import Wireform.Proofs.Compiling
import Wireform.Proofs.Typedefs
import Wireform.Proofs.Readings
import Wireform.Proofs.DescribedTogether
import Wireform.Proofs.Renaming
import Wireform.Proofs.References
import Wireform.Proofs.EnumLookup
import Wireform.Proofs.Supertypes
import Wireform.Proofs.SameButName
import Wireform.Proofs.Views
import Wireform.Proofs.Inheritance
import Wireform.Proofs.Reordering
import Wireform.Proofs.Targets
import Wireform.Proofs.Identities
import Wireform.Proofs.Clashes
import Wireform.Proofs.MentionedTypes
import Wireform.Proofs.Framing
import Wireform.Proofs.DescribedLimits
import Wireform.Proofs.SchemaJson
import Wireform.Proofs.Acceptance
import Wireform.Proofs.Minimality
import Wireform.Proofs.WriteBack
import Wireform.Proofs.InPlace
import Wireform.Proofs.FailedSteps
import Wireform.Proofs.Payloads
import Wireform.Proofs.RefusedVisits
import Wireform.Proofs.Entries
import Wireform.Proofs.Starting
import Wireform.Proofs.Tracking
import Wireform.Proofs.Regions
import Wireform.Proofs.Reconfiguring
import Wireform.Proofs.Iteration
import Wireform.Proofs.FieldOrder
import Wireform.Proofs.Transcoding
import Wireform.Proofs.FixedSizes
import Wireform.Proofs.StructLayout
import Wireform.Proofs.EncodableEnums
import Wireform.Proofs.TypedefChains
import Wireform.Proofs.OutlinedSchemas
import Wireform.Proofs.Literals
import Wireform.Proofs.SpeltNames
import Wireform.Proofs.MemberClashes
import Wireform.Proofs.WordCodecs
import Wireform.Proofs.LexicalNames
import Wireform.Proofs.FindingSizes
import Wireform.Proofs.Overruns
import Wireform.Proofs.Measurements
