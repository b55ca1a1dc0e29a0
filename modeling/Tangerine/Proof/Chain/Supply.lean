import Tangerine.Library.Ledger
import Tangerine.Proof.Consensus.Finalize

/-! The native token's supply along a chain of empty blocks. -/

namespace Tangerine.Proof.Supply

open Tangerine.Common Tangerine.Core Tangerine.Core.Vm Tangerine.Consensus Tangerine.Library
  Tangerine.Library.Ledger Function

end Tangerine.Proof.Supply
