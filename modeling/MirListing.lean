import MirListing.Main
import MirListing.Proofs.Body.Edges
import MirListing.Proofs.Body.Occurrences
import MirListing.Proofs.Body.Operands
import MirListing.Proofs.Body.Scalars
import MirListing.Proofs.Command.Dumps
import MirListing.Proofs.Dump.Filters
import MirListing.Proofs.Dump.Names
import MirListing.Proofs.Items.Keeping
import MirListing.Proofs.Items.PathTexts
import MirListing.Proofs.Listing.Collecting
import MirListing.Proofs.Listing.Comments
import MirListing.Proofs.Listing.Contradictions
import MirListing.Proofs.Listing.Dependence
import MirListing.Proofs.Listing.Points
import MirListing.Proofs.Listing.Stanzas
import MirListing.Proofs.Memory.Documents
import MirListing.Proofs.Memory.Labels
import MirListing.Proofs.Memory.Loading
import MirListing.Proofs.Reading.Invariants
import MirListing.Proofs.Reading.ShortForms
import MirListing.Proofs.Scopes.Entries
import MirListing.Proofs.Scopes.OneTree
import MirListing.Proofs.Session.FailedUpdates
import MirListing.Reader.Inspection
import MirListing.Session.Step
