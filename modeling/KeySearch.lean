import KeySearch.Address.Encoder
import KeySearch.Derivation.Wallet
import KeySearch.Key.Json
import KeySearch.Rehearsal.Cue
import KeySearch.Rehearsal.Stub
import KeySearch.Shard.Mask
import KeySearch.Proofs.Address.RoundTrip
import KeySearch.Proofs.Derivation.Memory
import KeySearch.Proofs.Derivation.Refusals
import KeySearch.Proofs.Derivation.Validity
import KeySearch.Proofs.Key.RoundTrip
import KeySearch.Proofs.Search.Batches
import KeySearch.Proofs.Search.Discretion
import KeySearch.Proofs.Search.Repartition
import KeySearch.Proofs.Search.Selection
import KeySearch.Proofs.Search.Sessions
import KeySearch.Proofs.Search.Termination
import KeySearch.Proofs.Search.Transcript
import KeySearch.Proofs.Seed.Mnemonic
import KeySearch.Proofs.Shard.Contradiction
import KeySearch.Proofs.Shard.Resharding
import KeySearch.Text.Record
import KeySearch.Proofs.Search.Projection
import KeySearch.Proofs.Search.Consultation
