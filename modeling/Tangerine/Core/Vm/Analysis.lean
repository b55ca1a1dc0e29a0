import Mathlib.Data.List.AList
import Mathlib.Data.Nat.Size
import Tangerine.Common.Types
import Tangerine.Library.ByteBits
import Tangerine.Library.Loop

/-! The jump-destination analysis (`core/vm/analysis.go`) and `Contract.validJumpdest`. -/

namespace Tangerine.Core.Vm

open Tangerine.Common Tangerine.Library

/-- `PUSH1`. -/
def PUSH1 : UInt8 := 0x60

/-- `PUSH32`. -/
def PUSH32 : UInt8 := 0x7f

/-- `JUMPDEST`. -/
def JUMPDEST : UInt8 := 0x5b

/-- `bitvec`: a set bit marks a byte of push data, an unset one an opcode. -/
structure Bitvec where
  bytes : List UInt8

namespace Bitvec

/-- `set`. -/
def set (bits : Bitvec) (pos : Nat) : Except Halt Bitvec :=
  match bits.bytes[pos / 8]? with
  | some b => .ok ⟨bits.bytes.set (pos / 8) (b ||| 0x80 >>> UInt8.ofNat (pos % 8))⟩
  | none => .error (.panic "index out of range")

/-- `set8`: the eight bits from `pos` on, across the boundary into the next byte. -/
def set8 (bits : Bitvec) (pos : Nat) : Except Halt Bitvec :=
  match bits.bytes[pos / 8]? with
  | none => .error (.panic "index out of range")
  | some b =>
    let bytes := bits.bytes.set (pos / 8) (b ||| 0xFF >>> UInt8.ofNat (pos % 8))
    match bytes[pos / 8 + 1]? with
    | none => .error (.panic "index out of range")
    | some b' => .ok ⟨bytes.set (pos / 8 + 1) (b' ||| ~~~(0xFF >>> UInt8.ofNat (pos % 8)))⟩

/-- `codeSegment`. -/
def codeSegment (bits : Bitvec) (pos : Nat) : Except Halt Bool :=
  match bits.bytes[pos / 8]? with
  | some b => .ok ((b &&& 0x80 >>> UInt8.ofNat (pos % 8)) == 0)
  | none => .error (.panic "index out of range")

end Bitvec

/-- `for ; numbits >= 8; numbits -= 8 { bits.set8(pc); pc += 8 }`. -/
def set8Loop (bits : Bitvec) (pc : Nat) : Nat → Except Halt (Bitvec × Nat × Nat)
  | numbits + 8 => bits.set8 pc >>= fun bits => set8Loop bits (pc + 8) numbits
  | numbits => .ok (bits, pc, numbits)

/-- `for ; numbits > 0; numbits-- { bits.set(pc); pc++ }`: the bits and `pc` it leaves. -/
def setLoop (bits : Bitvec) (pc : Nat) : Nat → Except Halt (Bitvec × Nat)
  | 0 => .ok (bits, pc)
  | numbits + 1 => bits.set pc >>= fun bits => setLoop bits (pc + 1) numbits

/-- One iteration of `codeBitmap`'s loop on `(pc, bits)`. -/
def bitmapStep (code : List UInt8) (state : Nat × Bitvec) : Except Halt (Iteration (Nat × Bitvec)) :=
  let (pc, bits) := state
  match code[pc]? with
  | none => .error (.panic "index out of range")
  | some op =>
    if op ≥ PUSH1 ∧ op ≤ PUSH32 then
      set8Loop bits (pc + 1) (op - PUSH1 + 1).toNat >>= fun (bits, pc, numbits) =>
      setLoop bits pc numbits >>= fun (bits, pc) => .ok (.next (pc, bits))
    else .ok (.next (pc + 1, bits))

/-- `codeBitmap`; the walk advances every turn, so `len(code) + 1` turns suffice. -/
def codeBitmap (code : List UInt8) : Except Halt Bitvec :=
  (whileLoop (fun state => decide (state.1 < code.length)) (bitmapStep code) (code.length + 1)
    (0, ⟨List.replicate (code.length / 8 + 1 + 4) 0⟩)).map Prod.snd

/-- The fields of `Contract` that `validJumpdest` reads and writes. -/
structure Contract where
  jumpdests : AList fun _ : Hash => Bitvec
  analysis : Option Bitvec
  code : List UInt8
  codeHash : Hash

/-- `NewContract` followed by `SetCallCode`: a frame reuses its caller's map of analyses. -/
def Contract.new (parent : Option Contract) (code : List UInt8) (codeHash : Hash) : Contract :=
  ⟨match parent with
    | some parent => parent.jumpdests
    | none => ∅, none, code, codeHash⟩

/-- `validJumpdest`, with the contract as its caches leave it. `dest.BitLen()` is `Nat.size`. -/
def Contract.validJumpdest (c : Contract) (dest : Nat) : Except Halt (Bool × Contract) :=
  let udest := dest % 2 ^ 64
  if dest.size ≥ 63 ∨ udest ≥ c.code.length then .ok (false, c)
  else if c.code[udest]? ≠ some JUMPDEST then .ok (false, c)
  else if c.codeHash ≠ 0 then
    match c.jumpdests.lookup c.codeHash with
    | some analysis => (analysis.codeSegment udest).map (·, c)
    | none =>
      codeBitmap c.code >>= fun analysis =>
      (analysis.codeSegment udest).map (·, { c with jumpdests := c.jumpdests.insert c.codeHash analysis })
  else
    match c.analysis with
    | some analysis => (analysis.codeSegment udest).map (·, c)
    | none =>
      codeBitmap c.code >>= fun analysis =>
      (analysis.codeSegment udest).map (·, { c with analysis := some analysis })

end Tangerine.Core.Vm
