import BtrfsTopology.CommandLine.Run
import BtrfsTopology.Main
import BtrfsTopology.Proofs.Marker
import BtrfsTopology.Proofs.MountTable
import BtrfsTopology.Proofs.OrderedMap
import BtrfsTopology.Proofs.SubvolumeTree
import BtrfsTopology.Proofs.InternalPath
import BtrfsTopology.Proofs.DeviceSet
import BtrfsTopology.Proofs.Dialogue
import BtrfsTopology.Proofs.Consistency
import BtrfsTopology.Proofs.AncestorWalk
import BtrfsTopology.Proofs.TreeNavigation
import BtrfsTopology.Proofs.Nearest
import BtrfsTopology.Proofs.ChildPath
import BtrfsTopology.Proofs.ResolvedTarget
import BtrfsTopology.Proofs.ResolverAgreement
import BtrfsTopology.Proofs.VfsPath
import BtrfsTopology.Proofs.LookupInverse
import BtrfsTopology.Proofs.LookupSpelling
import BtrfsTopology.Proofs.InnermostMount
import BtrfsTopology.Proofs.ChangeOutcome
import BtrfsTopology.Proofs.Replacement
import BtrfsTopology.Proofs.Discovery
import BtrfsTopology.Proofs.Isolation
import BtrfsTopology.Proofs.Blank
import BtrfsTopology.Proofs.Decimal
import BtrfsTopology.Proofs.HexEscape
import BtrfsTopology.Proofs.MountListing
import BtrfsTopology.Proofs.MountOptions
import BtrfsTopology.Proofs.FilesystemListing
import BtrfsTopology.Proofs.SubvolumeListing
import BtrfsTopology.Proofs.RowPath
import BtrfsTopology.Proofs.Script
import BtrfsTopology.Proofs.RefreshStages
import BtrfsTopology.Proofs.RegistryCache
import BtrfsTopology.Proofs.Machine
import BtrfsTopology.Proofs.RunSafety
import BtrfsTopology.Proofs.Selection
import BtrfsTopology.Proofs.ExactSelection
import BtrfsTopology.Proofs.CanonicalPath
import BtrfsTopology.Proofs.EscapeGrammar
import BtrfsTopology.Proofs.EscapeSearch
import BtrfsTopology.Proofs.LineByLine
import BtrfsTopology.Proofs.TargetConfinement
