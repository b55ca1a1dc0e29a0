import Mathlib

/-! Balances kept per key, zero outside finitely many keys, and their total. -/

namespace Tangerine.Library.Ledger

open Function

variable {Key Entry : Type} [DecidableEq Key]

end Tangerine.Library.Ledger
