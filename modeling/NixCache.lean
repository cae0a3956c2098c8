import NixCache.Core.Index
import NixCache.Core.Proofs.FreshRoot
import NixCache.Core.Proofs.Gc
import NixCache.Core.Wire
import NixCache.Lib.Action
import NixCache.Lib.HashMap
import NixCache.Lib.Worklist
import NixCache.Lib.Sha256
import NixCache.Lib.Encoding
import NixCache.Lib.MerkleTree
import NixCache.Builder.Promote
import NixCache.Builder.Proofs.Compaction
import NixCache.Builder.Proofs.Loading
import NixCache.Builder.Proofs.Promote
import NixCache.Builder.Proofs.Purge
import NixCache.Core.Lookup
import NixCache.Core.Proofs.Closure
import NixCache.Core.Proofs.MultiArchGc
import NixCache.Lib.Concurrent
import NixCache.Lib.Serial
import NixCache.Lib.Text
import NixCache.Lib.Transition
import NixCache.Oci.Proofs.Confinement
import NixCache.Oci.Proofs.Faithful
import NixCache.Oci.Proofs.Flight
import NixCache.Oci.Proofs.Package
import NixCache.Oci.Proofs.Recovery
import NixCache.Oci.Proofs.Serializable
import NixCache.Oci.Proofs.Token
import NixCache.Proxy.Index
import NixCache.Proxy.Proofs.Handlers
import NixCache.Proxy.Proofs.Baseline
import NixCache.Proxy.Proofs.Identity
import NixCache.Core.Proofs.Wildcard
import NixCache.Core.Proofs.NarinfoRoundTrip
import NixCache.Core.Proofs.Pruning
import NixCache.Cli.Proofs.FailClosed
import NixCache.Oci.Proofs.Tags
import NixCache.Oci.Proofs.Platform
import NixCache.Builder.Proofs.ArchTag
import NixCache.Oci.Proofs.TokenExchange
import NixCache.Proxy.Proofs.Counts
import NixCache.Core.Proofs.Receipt
import NixCache.Builder.Proofs.Receipts
import NixCache.Oci.Proofs.Download
import NixCache.Proxy.Proofs.Names
import NixCache.Builder.Export
import NixCache.Builder.Proofs.Export
import NixCache.Core.Bloom
import NixCache.Core.Proofs.Bloom
import NixCache.Core.Proofs.Bloom
import NixCache.Builder.Proofs.Export
import NixCache.Builder.Proofs.List
import NixCache.Lib.JsonValue
import NixCache.Oci.Deletion
import NixCache.Oci.GitHubPackages
import NixCache.Lib.Recording
import NixCache.Oci.Discovery
import NixCache.Oci.Proofs.Unchanging
import NixCache.Oci.Proofs.Discovery
import NixCache.Oci.PackageDeletion
import NixCache.Oci.Proofs.Looking
import NixCache.Oci.Proofs.PackageSample
import NixCache.Oci.Proofs.PackageDeletion
import NixCache.Builder.Proofs.BlobDeletion
