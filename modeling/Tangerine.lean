import Tangerine.Library.Transition
import Tangerine.Library.IndexedArray
import Tangerine.Common.Types
import Tangerine.Core.Vm.GovernanceState
import Tangerine.Core.Vm.GovernanceContract
import Tangerine.Core.Vm.GovernanceDKG
import Tangerine.Core.Vm.Evm
import Tangerine.Proof.Evm.OracleFrames
import Tangerine.Core.Genesis
import Tangerine.Proof.Governance.Whitelist
import Tangerine.Proof.Governance.Accounts
import Tangerine.Proof.Governance.Methods
import Tangerine.Proof.Governance.Registry
import Tangerine.Proof.Governance.Staking
import Tangerine.Proof.Governance.DKGFlags
import Tangerine.Dex.App
import Tangerine.Proof.Dex.ConfirmedBlocks
import Tangerine.Core.HeaderChain
import Tangerine.Proof.Chain.HeaderValidation
import Tangerine.Consensus.Dexcon
import Tangerine.Proof.Consensus.Finalize
import Tangerine.Library.Ledger
import Tangerine.Proof.Chain.Supply
import Tangerine.Core.StateTransition
import Tangerine.Dex.Payload
import Tangerine.Proof.Dex.Payloads
import Tangerine.Library.BigEndian
import Tangerine.Library.StateExcept
import Tangerine.Proof.Rlp.SingleByte
import Tangerine.Core.State.Journal
import Tangerine.Core.State.StateDB
import Tangerine.Proof.State.Snapshots
import Tangerine.Rlp.Raw
import Tangerine.Trie.Encoding
import Tangerine.Trie.Node
import Tangerine.Library.KeyMap
import Tangerine.Trie.Trie
import Tangerine.Proof.Trie.Keys
import Tangerine.Proof.Trie.Shape
import Tangerine.Proof.Trie.Update
import Tangerine.Trie.Hasher
import Tangerine.Proof.Trie.Canonical
import Tangerine.Proof.Trie.Hashing
import Tangerine.Proof.Trie.Runs
import Tangerine.Proof.Rlp.Split
import Tangerine.Proof.Trie.Decode
import Tangerine.Trie.MerkleProof
import Tangerine.Proof.Trie.Proofs
import Tangerine.Proof.Governance.ByteStrings
import Tangerine.Proof.Evm.MemoryGas
import Tangerine.Library.Loop
import Tangerine.Core.Types.SigCache
import Tangerine.Proof.Types.SigCache
import Tangerine.Core.TxPool
import Tangerine.Proof.Pool.PriceFloor
import Tangerine.Proof.Rlp.Writers
import Tangerine.Library.ByteBits
import Tangerine.Core.Vm.Analysis
import Tangerine.Proof.Evm.JumpDest
import Tangerine.Library.TwosComplement
import Tangerine.Core.Vm.Instructions
import Tangerine.Proof.Evm.Arithmetic
import Tangerine.Dex.Cache
import Tangerine.Proof.Dex.VoteCache
import Tangerine.Library.Holders
import Tangerine.Dex.PeerSet
import Tangerine.Proof.Dex.PeerConnections
